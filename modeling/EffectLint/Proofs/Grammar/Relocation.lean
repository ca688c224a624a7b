import EffectLint.Grammar.Item
import EffectLint.Proofs.Grammar.Reads
import EffectLint.Proofs.Tree.Relocated

/-!
Reading the same tokens at other places. Places are compared with each other only where tokens
start, so tokens that are moved without changing their order are read in the same way, and all
places in what is read are moved along with them.
-/

namespace EffectLint

def Token.relocate (offset : Nat → Nat) (token : Token) : Token :=
  { token with span := token.span.relocate offset }

-- How places are moved. Offsets stay in order, and those that a token may start at stay apart.
structure Relocation where
  offset : Nat → Nat
  starts : Nat → Prop
  monotone : ∀ {low high}, low ≤ high → offset low ≤ offset high
  apart : ∀ {one other}, starts one → starts other → offset one = offset other → one = other
  -- how many more tokens have been taken on the other side
  passed : Nat

-- What is read holds places that are moved. Some of them are compared with others later on, and
-- those have to be where tokens start.
class Movable (α : Type) where
  move : Relocation → α → α
  marked : Relocation → α → Prop

export Movable (move marked)

namespace Movable

variable {α : Type}

-- No places at all.
@[reducible]
def still : Movable α :=
  ⟨fun _ value => value, fun _ _ => True⟩

-- Places that are not compared with others.
@[reducible]
def free (relocate : (Nat → Nat) → α → α) : Movable α :=
  ⟨fun relocation => relocate relocation.offset, fun _ _ => True⟩

@[reducible]
def option (inner : Movable α) : Movable (Option α) :=
  ⟨fun relocation => Option.map (inner.move relocation),
    fun relocation found => ∀ value ∈ found, inner.marked relocation value⟩

instance : Movable Unit := still
instance : Movable Bool := still
instance : Movable String := still
instance : Movable Promises := still
instance : Movable (Option TokenKind) := still
instance : Movable (Option Connective) := still

-- The only numbers that are read count the tokens that have been taken.
instance : Movable Nat :=
  ⟨fun relocation taken => taken + relocation.passed, fun _ _ => True⟩

instance : Movable Span :=
  ⟨fun relocation => Span.relocate relocation.offset,
    fun relocation span => relocation.starts span.start⟩

instance : Movable Name :=
  ⟨fun relocation => Name.relocate relocation.offset,
    fun relocation name => relocation.starts name.span.start⟩

instance : Movable Token := free Token.relocate
instance : Movable TypeTree := free TypeTree.relocate
instance : Movable (Parameter TypeTree) := free Parameter.relocate
instance : Movable Expr := free Expr.relocate
instance : Movable VariableTree := free VariableTree.relocate
instance : Movable Statement := free Statement.relocate
instance : Movable Block := free Block.relocate
instance : Movable Item := free Item.relocate

instance : Movable (Option Name) := option inferInstance
instance : Movable (Option Expr) := option inferInstance
instance : Movable (Option Statement) := option inferInstance
instance : Movable (Option Block) := option inferInstance
instance : Movable (Option Item) := option inferInstance

instance [Movable α] : Movable (List α) :=
  ⟨fun relocation => List.map (move relocation), fun _ _ => True⟩

instance [Movable α] : Movable (Array α) :=
  ⟨fun relocation => Array.map (move relocation), fun _ _ => True⟩

instance (nonterminal : Nonterminal) : Movable nonterminal.Result :=
  match nonterminal with
  | .Expression | .Assignment | .Conditional | .Binary _ | .Unary => inferInstanceAs (Movable Expr)
  | .Type => inferInstanceAs (Movable TypeTree)
  | .Statement => inferInstanceAs (Movable (Option Statement))

end Movable

namespace Parse

open Movable

instance {σ α : Type} [Movable σ] [Movable α] : Movable (Round σ α) where
  move relocation
    | .Again next => .Again (move relocation next)
    | .Done result => .Done (move relocation result)
  marked relocation
    | .Again next => marked relocation next
    | .Done result => marked relocation result

end Parse

-- Two states of reading the same tokens at other places.
structure Relocation.Moved (relocation : Relocation) (limits limits' : Limits)
    (state state' : ParseState) : Prop where
  textEnd : limits'.textEnd = relocation.offset limits.textEnd
  marksEnd : relocation.starts limits.textEnd
  limit : limits'.depth = limits.depth
  rest : state'.rest = state.rest.map (Token.relocate relocation.offset)
  marks : ∀ token ∈ state.rest, relocation.starts token.span.start
  taken : state'.taken = state.taken + relocation.passed
  lastEnd : ∀ start, max state'.lastEnd (relocation.offset start) =
    relocation.offset (max state.lastEnd start)
  fuel : state'.fuel = state.fuel
  depth : state'.depth = state.depth
  complained : ∀ start ∈ state.lastComplaint, relocation.starts start
  lastComplaint : state'.lastComplaint = state.lastComplaint.map relocation.offset
  diagnostics : state'.diagnostics = state.diagnostics.map (Diagnostic.relocate relocation.offset)

theorem Relocation.offset_max (relocation : Relocation) (one other : Nat) :
    max (relocation.offset one) (relocation.offset other) = relocation.offset (max one other) := by
  by_cases h : one ≤ other
  · rw [Nat.max_eq_right h, Nat.max_eq_right (relocation.monotone h)]
  · have hle : other ≤ one := by omega
    rw [Nat.max_eq_left hle, Nat.max_eq_left (relocation.monotone hle)]

namespace Parse

open Movable

-- What is read on one side is read on the other, with its places moved.
def Moves {α : Type} [Movable α] (relocation : Relocation) (body body' : Parse α) : Prop :=
  ∀ limits limits' state state', relocation.Moved limits limits' state state' →
    (∀ reason, body limits state = .error reason → body' limits' state' = .error reason) ∧
      ∀ found after, body limits state = .ok (found, after) →
        marked relocation found ∧ ∃ after', body' limits' state' = .ok (move relocation found, after') ∧
          relocation.Moved limits limits' after after'

namespace Moves

variable {α β σ : Type} [Movable α] [Movable β] [Movable σ] {relocation : Relocation}

theorem pure {result : α} (hmarked : marked relocation result) :
    Moves relocation (Pure.pure result) (Pure.pure (move relocation result)) := by
  intro limits limits' state state' hstate
  refine ⟨fun reason hrun => (by cases hrun), ?_⟩
  intro found after hrun
  cases hrun
  exact ⟨hmarked, state', rfl, hstate⟩

theorem bind {body body' : Parse α} {next next' : α → Parse β} (hbody : Moves relocation body body')
    (hnext : ∀ found, marked relocation found →
      Moves relocation (next found) (next' (move relocation found))) :
    Moves relocation (body >>= next) (body' >>= next') := by
  intro limits limits' state state' hstate
  obtain ⟨herror, hok⟩ := hbody limits limits' state state' hstate
  cases hfound : body limits state with
  | error reason =>
      rw [bind_of_error hfound, bind_of_error (herror reason hfound)]
      refine ⟨fun other hrun => ?_, fun found after hrun => (by cases hrun)⟩
      cases hrun
      rfl
  | ok found =>
      obtain ⟨hmarked, after', hrun', hafter⟩ := hok found.1 found.2 hfound
      rw [bind_of_ok hfound, bind_of_ok hrun']
      exact hnext found.1 hmarked limits limits' found.2 after' hafter

-- Looking at the places and the number of tokens changes nothing.
theorem look {body body' : Parse α} (found : Limits → ParseState → α)
    (hrun : ∀ limits state, body limits state = .ok (found limits state, state))
    (hmoved : ∀ limits limits' state state', relocation.Moved limits limits' state state' →
      marked relocation (found limits state) ∧
        body' limits' state' = .ok (move relocation (found limits state), state')) :
    Moves relocation body body' := by
  intro limits limits' state state' hstate
  obtain ⟨hmarked, hrun'⟩ := hmoved limits limits' state state' hstate
  rw [hrun]
  refine ⟨fun reason hrun => (by cases hrun), ?_⟩
  intro result after hresult
  cases hresult
  exact ⟨hmarked, state', hrun', hstate⟩

theorem here : Moves relocation here here := by
  intro limits limits' state state' hstate
  have hrest := hstate.rest
  unfold Parse.here
  cases hnext : state.rest with
  | nil =>
      rw [hnext] at hrest
      rw [hrest]
      refine ⟨fun reason hrun => (by cases hrun), ?_⟩
      intro found after hrun
      cases hrun
      refine ⟨hstate.marksEnd, state', ?_, hstate⟩
      simp only [List.map_nil, hstate.textEnd]
      rfl
  | cons token rest =>
      rw [hnext] at hrest
      rw [hrest]
      refine ⟨fun reason hrun => (by cases hrun), ?_⟩
      intro found after hrun
      cases hrun
      exact ⟨hstate.marks token (by simp [hnext]), state', rfl, hstate⟩

theorem since {start : Nat} (hstart : relocation.starts start) :
    Moves relocation (since start) (since (relocation.offset start)) := by
  apply look (fun _ state => ⟨start, max state.lastEnd start⟩)
  · exact fun limits state => rfl
  · intro limits limits' state state' hstate
    refine ⟨hstart, ?_⟩
    simp only [Parse.since, hstate.lastEnd start]
    rfl

theorem atEnd : Moves relocation atEnd atEnd := by
  apply look (fun _ state => state.rest.isEmpty)
  · exact fun limits state => rfl
  · intro limits limits' state state' hstate
    refine ⟨trivial, ?_⟩
    simp only [Parse.atEnd, hstate.rest, List.isEmpty_map]
    rfl

theorem taken : Moves relocation taken taken := by
  apply look (fun _ state => state.taken)
  · exact fun limits state => rfl
  · intro limits limits' state state' hstate
    refine ⟨trivial, ?_⟩
    simp only [Parse.taken, hstate.taken]
    rfl

theorem beyond : Moves relocation beyond beyond := by
  apply look (fun _ state => state.rest.tail)
  · exact fun limits state => rfl
  · intro limits limits' state state' hstate
    refine ⟨trivial, ?_⟩
    simp only [Parse.beyond, hstate.rest, ← List.map_tail]
    rfl

theorem inspect : Moves relocation inspect inspect := by
  intro limits limits' state state' hstate
  have hfuel := hstate.fuel
  unfold Parse.inspect
  cases hleft : state.fuel with
  | zero =>
      rw [hleft] at hfuel
      rw [hfuel]
      exact ⟨fun reason hrun => hrun, fun found after hrun => (by cases hrun)⟩
  | succ fuel =>
      rw [hleft] at hfuel
      rw [hfuel]
      refine ⟨fun reason hrun => (by cases hrun), ?_⟩
      intro found after hrun
      cases hrun
      refine ⟨trivial, { state' with fuel }, ?_, { hstate with fuel := rfl }⟩
      have hkind : (state.rest.map (Token.relocate relocation.offset)).head?.map Token.kind =
          state.rest.head?.map Token.kind := by
        cases state.rest <;> rfl
      simp only [hstate.rest, hkind]
      rfl

-- The kind of the next token is the same on both sides.
theorem inspectThen {next next' : Option TokenKind → Parse β}
    (hnext : ∀ found, Moves relocation (next found) (next' found)) :
    Moves relocation (Parse.inspect >>= next) (Parse.inspect >>= next') :=
  inspect.bind fun found _ => hnext found

theorem take : Moves relocation take take := by
  intro limits limits' state state' hstate
  have hrest := hstate.rest
  unfold Parse.take
  cases hnext : state.rest with
  | nil =>
      rw [hnext] at hrest
      rw [hrest]
      refine ⟨fun reason hrun => (by cases hrun), ?_⟩
      intro found after hrun
      cases hrun
      exact ⟨trivial, state', rfl, hstate⟩
  | cons token rest =>
      rw [hnext] at hrest
      rw [hrest]
      refine ⟨fun reason hrun => (by cases hrun), ?_⟩
      intro found after hrun
      cases hrun
      refine ⟨trivial, _, rfl, { hstate with rest := rfl, taken := ?_, lastEnd := ?_, marks := ?_ }⟩
      · exact fun other hmem => hstate.marks other (by simp [hnext, hmem])
      · simp only [hstate.taken]
        omega
      · exact fun start => relocation.offset_max token.span.stop start

theorem report (diagnostic : Diagnostic) :
    Moves relocation (report diagnostic) (report (diagnostic.relocate relocation.offset)) := by
  intro limits limits' state state' hstate
  refine ⟨fun reason hrun => (by cases hrun), ?_⟩
  intro found after hrun
  cases hrun
  refine ⟨trivial, _, rfl, { hstate with diagnostics := ?_ }⟩
  simp only [hstate.diagnostics, Array.map_push]

-- Whether the last complaint was about the same place is the same on both sides.
theorem complain {diagnostic : Diagnostic} (hstart : relocation.starts diagnostic.span.start) :
    Moves relocation (complain diagnostic) (complain (diagnostic.relocate relocation.offset)) := by
  intro limits limits' state state' hstate
  have hsame : state'.lastComplaint = some (relocation.offset diagnostic.span.start) ↔
      state.lastComplaint = some diagnostic.span.start := by
    rw [hstate.lastComplaint, Option.map_eq_some_iff]
    constructor
    · rintro ⟨start, hlast, heq⟩
      rw [hlast, relocation.apart (hstate.complained start hlast) hstart heq]
    · intro hlast
      exact ⟨_, hlast, rfl⟩
  have hstart' : (diagnostic.relocate relocation.offset).span.start =
      relocation.offset diagnostic.span.start := rfl
  simp only [Parse.complain, hstart', hsame]
  refine ⟨fun reason hrun => ?_, fun found after hrun => ?_⟩
  · split at hrun <;> cases hrun
  · by_cases hlast : state.lastComplaint = some diagnostic.span.start
    · rw [if_pos hlast] at hrun ⊢
      cases hrun
      exact ⟨trivial, state', rfl, hstate⟩
    · rw [if_neg hlast] at hrun ⊢
      cases hrun
      refine ⟨trivial, _, rfl,
        { hstate with complained := ?_, lastComplaint := rfl, diagnostics := ?_ }⟩
      · intro start hmem
        obtain rfl := Option.some.inj hmem
        exact hstart
      · simp only [hstate.diagnostics, Array.map_push]

theorem enter : Moves relocation enter enter := by
  intro limits limits' state state' hstate
  unfold Parse.enter
  rw [hstate.limit, hstate.depth]
  by_cases hroom : limits.depth ≤ state.depth
  · rw [if_pos hroom, if_pos hroom]
    refine ⟨fun reason hrun => ?_, fun found after hrun => (by cases hrun)⟩
    cases hrun
    rfl
  · rw [if_neg hroom, if_neg hroom]
    refine ⟨fun reason hrun => (by cases hrun), ?_⟩
    intro found after hrun
    cases hrun
    exact ⟨trivial, _, rfl, { hstate with depth := rfl }⟩

theorem leave : Moves relocation leave leave := by
  intro limits limits' state state' hstate
  refine ⟨fun reason hrun => (by cases hrun), ?_⟩
  intro found after hrun
  cases hrun
  refine ⟨trivial, _, rfl, { hstate with depth := ?_ }⟩
  simp only [hstate.depth]

theorem restoringDepth {body body' : Parse α} (h : Moves relocation body body') :
    Moves relocation (restoringDepth body) (restoringDepth body') := by
  intro limits limits' state state' hstate
  obtain ⟨herror, hok⟩ := h limits limits' state state' hstate
  unfold Parse.restoringDepth
  cases hfound : body limits state with
  | error reason =>
      rw [herror reason hfound]
      exact ⟨fun other hrun => hrun, fun found after hrun => (by cases hrun)⟩
  | ok found =>
      obtain ⟨hmarked, after', hrun', hafter⟩ := hok found.1 found.2 hfound
      rw [hrun']
      refine ⟨fun reason hrun => (by cases hrun), ?_⟩
      intro result after hrun
      cases hrun
      exact ⟨hmarked, _, rfl, { hafter with depth := hstate.depth }⟩

theorem roundsAtMost {round round' : σ → Parse (Round σ α)}
    (hround : ∀ state, marked relocation state →
      Moves relocation (round state) (round' (move relocation state)))
    (bound : Nat) {first : σ} (hfirst : marked relocation first) :
    Moves relocation (roundsAtMost round bound first)
      (roundsAtMost round' bound (move relocation first)) := by
  induction bound generalizing first with
  | zero =>
      intro limits limits' state state' hstate
      exact ⟨fun reason hrun => hrun, fun found after hrun => (by cases hrun)⟩
  | succ bound ih =>
      apply (hround first hfirst).bind
      intro found hfound
      cases found with
      | Again next => exact ih hfound
      | Done result => exact .pure hfound

theorem rounds {round round' : σ → Parse (Round σ α)} {first : σ}
    (hfirst : marked relocation first)
    (hround : ∀ state, marked relocation state →
      Moves relocation (round state) (round' (move relocation state))) :
    Moves relocation (rounds first round) (rounds (move relocation first) round') := by
  intro limits limits' state state' hstate
  have hrounds := roundsAtMost hround (state.fuel + 1) hfirst limits limits' state state' hstate
  unfold Parse.rounds
  rw [hstate.fuel]
  exact hrounds

theorem branch {condition : Prop} [Decidable condition] {yes yes' no no' : Parse α}
    (hyes : Moves relocation yes yes') (hno : Moves relocation no no') :
    Moves relocation (if condition then yes else no) (if condition then yes' else no') := by
  by_cases h : condition
  · rw [if_pos h, if_pos h]
    exact hyes
  · rw [if_neg h, if_neg h]
    exact hno

theorem skip : Moves relocation skip skip :=
  take.bind fun _ _ => .pure trivial

theorem isAt (kind : TokenKind) : Moves relocation (isAt kind) (isAt kind) :=
  inspect.bind fun _ _ => .pure trivial

theorem eat (kind : TokenKind) : Moves relocation (eat kind) (eat kind) :=
  (isAt kind).bind fun _ _ => .branch (skip.bind fun _ _ => .pure trivial) (.pure trivial)

theorem expect (kind : TokenKind) (missing : DiagnosticKind) :
    Moves relocation (expect kind missing) (expect kind missing) :=
  (eat kind).bind fun _ _ => .branch (.pure trivial)
    (here.bind fun _ hspan => (complain hspan).bind fun _ _ => .pure trivial)

theorem expectName : Moves relocation expectName expectName := by
  refine (isAt .Identifier).bind fun _ _ => .branch
    (here.bind fun span hspan => take.bind fun text _ => .pure ?_)
    (here.bind fun span hspan => (complain hspan).bind fun _ _ => .pure nofun)
  intro name hname
  obtain rfl := Option.some.inj hname
  exact hspan

theorem close (sign : Sign) (missing : DiagnosticKind) (opening : String) (opened : Span) :
    Moves relocation (close sign missing opening opened)
      (close sign missing opening (move relocation opened)) :=
  (eat (.Sign sign)).bind fun _ _ => .branch (.pure trivial) (here.bind fun _ _ => report _)

theorem closeParen (opened : Span) :
    Moves relocation (closeParen opened) (closeParen (move relocation opened)) :=
  close _ _ _ opened

theorem recoverStatement : Moves relocation recoverStatement recoverStatement := by
  apply rounds trivial
  intro _ _
  apply inspectThen
  intro next
  split
  · exact .pure trivial
  · exact skip.bind fun _ _ => .pure trivial
  · exact .pure trivial
  · exact skip.bind fun _ _ => .pure trivial

theorem recoverItem : Moves relocation recoverItem recoverItem := by
  apply rounds trivial
  intro _ _
  apply inspectThen
  intro next
  split
  · exact .pure trivial
  · exact skip.bind fun _ _ => .branch (.pure trivial) (.pure trivial)

theorem expectSemicolon : Moves relocation expectSemicolon expectSemicolon :=
  (eat _).bind fun _ _ => .branch (.pure trivial)
    (here.bind fun _ hspan => (complain hspan).bind fun _ _ => recoverStatement)

end Moves

end Parse

end EffectLint
