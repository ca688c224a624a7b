import EffectLint.Proofs.Grammar.Placed
import EffectLint.Proofs.Tree.Layout

/-!
A type stands between the place where its reading began and the place that it reached. Where no
type can start, no token is taken for one.
-/

namespace EffectLint

def TokenKind.startsType : Option TokenKind → Bool
  | some (.Basic _) | some .Identifier => true
  | _ => false

namespace Parse

structure TypePlaced (earlier : Spot) (type : TypeTree) (spot : Spot) : Prop where
  laid : type.Laid earlier.offset spot.offset
  moves : TokenKind.startsType earlier.next = true → earlier.offset < spot.offset
  stays : TokenKind.startsType earlier.next = false → spot = earlier

-- A type that more may be read behind.
structure TypeBegun (earlier : Spot) (type : TypeTree) (spot : Spot) : Prop where
  laid : type.Laid earlier.offset spot.offset
  starts : TokenKind.startsType earlier.next = true
  moved : earlier.offset < spot.offset

theorem TypeBegun.placed {earlier spot : Spot} {type : TypeTree} (h : TypeBegun earlier type spot) :
    TypePlaced earlier type spot where
  laid := h.laid
  moves _ := h.moved
  stays hnone := by
    rw [h.starts] at hnone
    cases hnone

theorem TypeBegun.later {earlier middle spot : Spot} {type type' : TypeTree}
    (h : TypeBegun earlier type middle) (hle : middle.offset ≤ spot.offset)
    (hlaid : type.Laid earlier.offset middle.offset → type'.Laid earlier.offset spot.offset) :
    TypeBegun earlier type' spot :=
  ⟨hlaid h.laid, h.starts, Nat.lt_of_lt_of_le h.moved hle⟩

section Lists

variable {α β : Type} {laid : β → Nat → Nat → Prop} {before : Spot → Prop} {spot : Spot}

-- Pieces still stand between two places when more tokens are taken before them or behind them.
theorem early {list : α → List β} {result : α}
    (h : From (Behind before) (Between fun found => InOrder laid (list found)) result spot) :
    From before (Between fun found => InOrder laid (list found)) result spot := by
  obtain ⟨last, ⟨earlier, hbefore, hle⟩, hle', hlaid⟩ := h
  exact ⟨earlier, hbefore, by omega, hlaid.mono hle (Nat.le_refl _)⟩

theorem late {list : α → List β} {result : α}
    (h : Behind (From before (Between fun found => InOrder laid (list found)) result) spot) :
    From before (Between fun found => InOrder laid (list found)) result spot := by
  obtain ⟨last, ⟨earlier, hbefore, hle, hlaid⟩, hle'⟩ := h
  exact ⟨earlier, hbefore, by omega, hlaid.mono (Nat.le_refl _) hle'⟩

-- What a loop has gathered since a place.
def Gathered (before : Spot → Prop) (laid : β → Nat → Nat → Prop) : Array β → Spot → Prop :=
  From before (Between fun found => InOrder laid found.toList)

theorem Gathered.nothing (h : before spot) : Gathered before laid #[] spot :=
  ⟨spot, h, Nat.le_refl _, .nil (Nat.le_refl _)⟩

theorem Gathered.append {found found' : Array β} {more : List β}
    (h : From (Gathered before laid found) (Between (InOrder laid)) more spot)
    (hfound : found'.toList = found.toList ++ more) : Gathered before laid found' spot := by
  obtain ⟨middle, ⟨earlier, hbefore, hle, hlaid⟩, hle', hmore⟩ := h
  refine ⟨earlier, hbefore, by omega, ?_⟩
  show InOrder laid found'.toList _ _
  rw [hfound]
  exact hlaid.append hmore

end Lists

end Parse

-- Where a reading of a nonterminal finds what it gives.
def Nonterminal.Placed : (nonterminal : Nonterminal) → Parse.Spot → nonterminal.Result →
    Parse.Spot → Prop
  | .Expression | .Assignment | .Conditional | .Binary _ | .Unary => Parse.Between Expr.Laid
  | .Type => Parse.TypePlaced
  | .Statement => Parse.Between fun found => InOrder Statement.Laid found.toList

namespace Grammar

open Parse

-- A reading of the nonterminals that finds them one behind the other.
def ReadsPlaced (textEnd : Nat) (self : Reading) : Prop :=
  ∀ nonterminal before,
    Places textEnd before (self nonterminal) (From before nonterminal.Placed)

variable {textEnd : Nat} {before : Spot → Prop} {self : Reading}

theorem placed_readBaseType :
    Places textEnd before readBaseType (From before fun earlier type spot =>
      TypePlaced earlier type spot ∧ (type.isError = false → TypeBegun earlier type spot)) := by
  have hbegun : ∀ {type : TypeTree} {earlier spot : Spot}, before earlier →
      TypeBegun earlier type spot → From before (fun earlier type spot =>
        TypePlaced earlier type spot ∧ (type.isError = false → TypeBegun earlier type spot))
        type spot :=
    fun hbefore h => ⟨_, hbefore, h.placed, fun _ => h⟩
  refine Places.here.bind fun span => Places.inspect.bind fun next => ?_
  split
  · refine (Places.skip fun _ h => ⟨_, h.2⟩).bind fun _ => .pure fun spot h => ?_
    obtain ⟨earlier, ⟨⟨hbefore, -⟩, hnext⟩, hlt⟩ := h
    exact hbegun hbefore ⟨.nil (Nat.le_of_lt hlt), by rw [hnext]; rfl, hlt⟩
  · refine Places.expectName.bind fun found => ?_
    cases found with
    | none => exact .pure fun spot h => absurd h.1.2 h.2
    | some name =>
        refine .pure fun spot h => ?_
        obtain ⟨earlier, ⟨⟨hbefore, -⟩, -⟩, hnext, hstart, hlt⟩ := h
        exact hbegun hbefore ⟨.one (Nat.le_of_eq hstart.symm)
          (Nat.lt_of_le_of_lt (Nat.le_of_eq hstart) hlt), by rw [hnext]; rfl, hlt⟩
  · rename_i hbasic hidentifier
    refine (Places.complain _).bind fun _ => .pure fun spot h => ?_
    obtain ⟨⟨hbefore, -⟩, hnext⟩ := h
    refine ⟨spot, hbefore, ⟨.nil (Nat.le_refl _), fun hstarts => ?_, fun _ => rfl⟩, nofun⟩
    rw [hnext] at hstarts
    unfold TokenKind.startsType at hstarts
    split at hstarts
    · exact absurd rfl (hbasic _)
    · exact absurd rfl hidentifier
    · cases hstarts

theorem placed_listed {α : Type} {item : Parse α} {laid : α → Nat → Nat → Prop}
    (hitem : ∀ before, Places textEnd before item (From before (Between laid))) :
    Places textEnd before (rounds #[] (listRound item)) (Gathered before laid) := by
  refine (Places.rounds (Gathered before laid) fun found => ?_).of_before fun _ => Gathered.nothing
  refine (Places.isAt_still _).bind fun _ => .either (.pure fun _ h => h) <|
    Places.atEnd.bind fun _ => .either (.pure fun _ h => h) <|
    (hitem _).bind fun one => (stepwise_movesOn.eat _).places.bind fun more => ?_
  have hpushed : ∀ spot, Behind (From (Gathered before laid found) (Between laid) one) spot →
      Gathered before laid (found.push one) spot := by
    rintro spot ⟨last, ⟨middle, hgathered, hle, hone⟩, hle'⟩
    have hmore := (InOrder.one hle hone).mono (Nat.le_refl _) hle'
    exact .append ⟨middle, hgathered, hmore.le, hmore⟩ Array.toList_push
  exact .either (.pure hpushed) (.pure hpushed)

section Types

variable (hself : ReadsPlaced textEnd self)

include hself

-- A name that stands where a type would start is read as the type.
theorem placed_readParameter :
    Places textEnd before (readParameter self) (From before (Between Parameter.Laid)) := by
  refine (stepwise_movesOn.eat _).places.bind fun isRef => (hself .Type _).bind fun type =>
    (Places.isAt _).bind fun found => .choose (fun hfound => ?named) fun _ => ?unnamed
  case named =>
    refine Places.expectName.bind fun name => .pure fun spot h => ?_
    cases name with
    | none => exact absurd (h.1.2.mp hfound) h.2
    | some name =>
        obtain ⟨middle, ⟨⟨start, ⟨earlier, hbefore, hle⟩, htype⟩, hat⟩, hnext, hstart, hlt⟩ := h
        have hmoved : start.offset < middle.offset := by
          refine htype.moves (Bool.of_not_eq_false fun hnone => ?_)
          rw [htype.stays hnone] at hnext
          rw [hnext] at hnone
          cases hnone
        refine ⟨earlier, hbefore, by omega, middle.offset, by omega,
          htype.laid.mono hle (Nat.le_refl _), fun other hother => ?_⟩
        obtain rfl := Option.some.inj hother
        omega
  case unnamed =>
    rw [pure_bind]
    refine .pure fun spot h => ?_
    obtain ⟨⟨start, ⟨earlier, hbefore, hle⟩, htype⟩, -⟩ := h
    have hle' := htype.laid.le
    exact ⟨earlier, hbefore, by omega, spot.offset, Nat.le_refl _,
      htype.laid.mono hle (Nat.le_refl _), nofun⟩

theorem placed_readParameters :
    Places textEnd before (readParameters self)
      (From before (Between (InOrder Parameter.Laid))) := by
  refine Places.here.bind fun opened => (stepwise_movesOn.expect _ _ rfl).places.bind fun found =>
    .either ?_ ?_
  · refine (placed_listed fun _ => placed_readParameter hself).bind fun parameters =>
      (stepwise_movesOn.close _ _ _ opened rfl).places.bind fun _ => .pure fun spot h => ?_
    obtain ⟨last, ⟨first, ⟨earlier, ⟨hbefore, -⟩, hle⟩, hle', hlaid⟩, hle''⟩ := h
    exact ⟨earlier, hbefore, by omega, hlaid.mono hle hle''⟩
  · refine .pure fun spot h => ?_
    obtain ⟨earlier, ⟨hbefore, -⟩, hle⟩ := h
    exact ⟨earlier, hbefore, hle, .nil hle⟩

theorem placed_readBracketSuffix (start : Nat) (element : TypeTree) :
    Places textEnd (fun spot => From before TypeBegun element spot ∧
        spot.next = some (.Sign .BracketOpen))
      (readBracketSuffix self start element) (From before TypeBegun) := by
  refine Places.here.bind fun opened => (Places.skip fun _ h => ⟨_, h.1.2⟩).bind fun _ =>
    (stepwise_movesOn.eat _).places.bind fun _ => .either ?array ?map
  case array =>
    refine (Places.since start).bind fun _ => .pure fun spot h => ?_
    obtain ⟨⟨last, ⟨middle, ⟨⟨⟨earlier, hbefore, hbegun⟩, -⟩, -⟩, hlt⟩, hle⟩, -⟩ := h
    exact ⟨earlier, hbefore, hbegun.later (by omega) fun hlaid =>
      hlaid.mono (Nat.le_refl _) (by omega)⟩
  case map =>
    refine (hself .Type _).bind fun key => (stepwise_movesOn.close _ _ _ opened rfl).places.bind fun _ =>
      (Places.since start).bind fun _ => .pure fun spot h => ?_
    obtain ⟨⟨found, ⟨last, ⟨open', ⟨middle, ⟨⟨⟨earlier, hbefore, hbegun⟩, -⟩, -⟩, hlt⟩, hle⟩, hkey⟩,
      hle'⟩, -⟩ := h
    have hkeyed := hkey.laid.le
    refine ⟨earlier, hbefore, hbegun.later (by omega) fun hlaid => ?_⟩
    rw [TypeTree.Laid, TypeTree.mentioned, List.map_append]
    exact hlaid.append (by omega) (hkey.laid.mono (Nat.le_refl _) hle')

theorem placed_readCallableSuffix {keyword : Keyword} (start : Nat) (isDelegate : Bool)
    (result : TypeTree) :
    Places textEnd (fun spot => From before TypeBegun result spot ∧
        spot.next = some (.Word keyword))
      (readCallableSuffix self start isDelegate result) (From before TypeBegun) := by
  refine (Places.skip fun _ h => ⟨_, h.2⟩).bind fun _ => (placed_readParameters hself).bind
    fun parameters => stepwise_movesOn.readPromises.places.bind fun promises =>
    (Places.since start).bind fun _ => .pure fun spot h => ?_
  obtain ⟨⟨last, ⟨opened, ⟨middle, ⟨⟨earlier, hbefore, hbegun⟩, -⟩, hlt⟩, hle, hparameters⟩, hle'⟩,
    -⟩ := h
  refine ⟨earlier, hbefore, hbegun.later (by omega) fun hlaid => ?_⟩
  rw [TypeTree.Laid, TypeTree.mentioned, List.map_append]
  exact hlaid.append (Nat.le_of_lt hlt) ((laid_mentionedIn hparameters).mono (Nat.le_refl _) hle')

theorem placed_readTypeSuffix (start : Nat) (type : TypeTree) :
    Places textEnd (From before TypeBegun type) (readTypeSuffix self start type)
      (Round.holdsAt (From before TypeBegun) (From before TypeBegun)) := by
  refine Places.inspect.bind fun next => ?_
  split
  · refine (Places.skip fun _ h => ⟨_, h.2⟩).bind fun _ => (Places.since start).bind fun _ =>
      .pure fun spot h => ?_
    obtain ⟨⟨middle, ⟨⟨earlier, hbefore, hbegun⟩, -⟩, hlt⟩, -⟩ := h
    exact ⟨earlier, hbefore, hbegun.later (by omega) fun hlaid =>
      hlaid.mono (Nat.le_refl _) (by omega)⟩
  · exact (placed_readBracketSuffix hself start type).bind fun _ => .pure fun _ h => h
  · exact (placed_readCallableSuffix hself start false type).bind fun _ => .pure fun _ h => h
  · exact (placed_readCallableSuffix hself start true type).bind fun _ => .pure fun _ h => h
  · exact .pure fun _ h => h.1

theorem placed_readType : Places textEnd before (readType self) (From before TypePlaced) := by
  refine Places.here.bind fun start => placed_readBaseType.bind fun base =>
    .choose (fun _ => ?alone) fun hfine => ?behind
  case alone =>
    exact .pure fun spot ⟨earlier, hbefore, hplaced⟩ => ⟨earlier, hbefore.1, hplaced.1⟩
  case behind =>
    refine (Places.rounds (From before TypeBegun) (placed_readTypeSuffix hself _)).weaken ?_ ?_
    · exact fun spot ⟨earlier, hbefore, hplaced⟩ =>
        ⟨earlier, hbefore.1, hplaced.2 (Bool.not_eq_true _ ▸ hfine)⟩
    · exact fun type spot ⟨earlier, hbefore, hbegun⟩ => ⟨earlier, hbefore, hbegun.placed⟩

end Types

end Grammar

end EffectLint
