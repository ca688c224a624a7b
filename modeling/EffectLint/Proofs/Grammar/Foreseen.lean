import EffectLint.Proofs.Grammar.Finished
import EffectLint.Proofs.Tree.Relocated

/-!
The look ahead at a declaration and the type that is read there. The look goes over the suffixes of
a type one by one as the reading does, but takes a map for one only where its key is a single token,
and stops at the first `function` or `delegate`.
-/

namespace EffectLint

namespace TypeTree

-- A type that is a single token.
def isSingle : TypeTree → Bool
  | .Basic _ _ | .Named _ _ => true
  | _ => false

-- Whether a look ahead over the type finds a declaration, where `behind` is what it finds behind it.
def foreseen (behind : Bool) : TypeTree → Bool
  | .Basic _ _ => true
  | .Named _ _ => behind
  | .Pointer _ target => target.foreseen behind
  | .Array _ element => element.foreseen behind
  | .AssocArray _ value key => value.foreseen (behind && key.isSingle)
  | .Callable _ _ _ result _ => result.foreseen true
  | .Error _ => false

theorem foreseen_relocate (offset : Nat → Nat) (type : TypeTree) (behind : Bool) :
    (type.relocate offset).foreseen behind = type.foreseen behind := by
  induction type generalizing behind with
  | Basic | Named | Error => rfl
  | Pointer _ _ ih | Array _ _ ih => exact ih behind
  | AssocArray _ value key ih _ =>
      have hsingle : (key.relocate offset).isSingle = key.isSingle := by cases key <;> rfl
      rw [relocate, foreseen, foreseen, hsingle, ih]
  | Callable _ _ _ _ _ ih _ => exact ih true

end TypeTree

-- The tokens up to some of the later ones spell a type. Of a callable they are followed up to the
-- word behind its result.
inductive StandsFor : List Token → TypeTree → List Token → Prop where
  | Basic {token : Token} {type : BasicType} {rest : List Token} (span : Span)
      (hkind : token.kind = .Basic type) : StandsFor (token :: rest) (.Basic span type) rest
  | Named {token : Token} {rest : List Token} (span : Span) (name : Name)
      (hkind : token.kind = .Identifier) : StandsFor (token :: rest) (.Named span name) rest
  | Pointer {tokens rest : List Token} {target : TypeTree} {star : Token} (span : Span)
      (htarget : StandsFor tokens target (star :: rest)) (hkind : star.kind = .Sign .Star) :
      StandsFor tokens (.Pointer span target) rest
  | Array {tokens rest : List Token} {element : TypeTree} {opening closing : Token} (span : Span)
      (helement : StandsFor tokens element (opening :: closing :: rest))
      (hopening : opening.kind = .Sign .BracketOpen) (hclosing : closing.kind = .Sign .BracketClose) :
      StandsFor tokens (.Array span element) rest
  | AssocArray {tokens inside rest : List Token} {value key : TypeTree} {opening closing : Token}
      (span : Span) (hvalue : StandsFor tokens value (opening :: inside))
      (hkey : StandsFor inside key (closing :: rest)) (hopening : opening.kind = .Sign .BracketOpen)
      (hinside : Parse.nextKind inside ≠ some (.Sign .BracketClose))
      (hclosing : closing.kind = .Sign .BracketClose) :
      StandsFor tokens (.AssocArray span value key) rest
  | Callable {tokens inside rest : List Token} {result : TypeTree} {word : Token} (span : Span)
      (isDelegate : Bool) (promises : Promises) (parameters : List (Parameter TypeTree))
      (hresult : StandsFor tokens result (word :: inside))
      (hword : word.kind = .Word .Function ∨ word.kind = .Word .Delegate) :
      StandsFor tokens (.Callable span isDelegate promises result parameters) rest

namespace Grammar

open Parse

-- What `looksLikeDeclaration` goes by.
def declarationFrom (tokens : List Token) : Bool :=
  match nextKind tokens with
  | some (.Basic _) => true
  | some .Identifier => declarationAhead tokens.tail
  | _ => false

theorem declarationFrom_same {tokens tokens' : List Token} (h : SameAhead tokens tokens') :
    declarationFrom tokens = declarationFrom tokens' := by
  cases h with
  | nil => rfl
  | @cons token token' _ _ hkind hrest =>
      simp only [declarationFrom, nextKind, ← hkind, List.tail_cons]
      cases htoken : token.kind with
      | Identifier => exact declarationAhead_same (hrest (by rw [htoken]; rfl))
      | _ => rfl

end Grammar

namespace StandsFor

open Grammar

variable {tokens rest : List Token} {type : TypeTree}

-- The token behind the first one is not a closing bracket.
def LongerThanOne (tokens : List Token) : Prop :=
  ∃ first second more, tokens = first :: second :: more ∧ second.kind ≠ .Sign .BracketClose

-- A suffix stands right behind a single token, or there is an earlier one.
theorem longerThanOne_of_suffix {suffix : Token} (h : StandsFor tokens type (suffix :: rest))
    (hsuffix : suffix.kind ≠ .Sign .BracketClose)
    (hearlier : type.isSingle = false → LongerThanOne tokens) : LongerThanOne tokens := by
  cases h with
  | Basic span hkind => exact ⟨_, _, _, rfl, hsuffix⟩
  | Named span name hkind => exact ⟨_, _, _, rfl, hsuffix⟩
  | _ => exact hearlier rfl

theorem longerThanOne (h : StandsFor tokens type rest) (hlong : type.isSingle = false) :
    LongerThanOne tokens := by
  induction h with
  | Basic span hkind => cases hlong
  | Named span name hkind => cases hlong
  | Pointer span htarget hkind ih =>
      exact htarget.longerThanOne_of_suffix (by simp [hkind]) ih
  | Array span helement hopening _ ih =>
      exact helement.longerThanOne_of_suffix (by simp [hopening]) ih
  | AssocArray span hvalue _ hopening _ _ ih _ =>
      exact hvalue.longerThanOne_of_suffix (by simp [hopening]) ih
  | Callable span isDelegate promises parameters hresult hword ih =>
      exact hresult.longerThanOne_of_suffix (by rcases hword with h | h <;> simp [h]) ih

-- A look over the brackets of a map goes on behind them only where the key is a single token.
theorem declarationAhead_key {inside rest : List Token} {key : TypeTree} {opening closing : Token}
    (h : StandsFor inside key (closing :: rest)) (hopening : opening.kind = .Sign .BracketOpen)
    (hinside : Parse.nextKind inside ≠ some (.Sign .BracketClose))
    (hclosing : closing.kind = .Sign .BracketClose) :
    declarationAhead (opening :: inside) = (declarationAhead rest && key.isSingle) := by
  obtain ⟨_, openingSpan, openingText⟩ := opening
  obtain rfl : _ = TokenKind.Sign .BracketOpen := hopening
  by_cases hsingle : key.isSingle = true
  · rw [hsingle, Bool.and_true]
    obtain ⟨_, closingSpan, closingText⟩ := closing
    obtain rfl : _ = TokenKind.Sign .BracketClose := hclosing
    cases h with
    | @Basic token _ _ _ hkind =>
        obtain ⟨_, span, text⟩ := token
        obtain rfl : _ = TokenKind.Basic _ := hkind
        rfl
    | @Named token _ _ _ hkind =>
        obtain ⟨_, span, text⟩ := token
        obtain rfl : _ = TokenKind.Identifier := hkind
        rfl
    | _ => cases hsingle
  · have hlong : key.isSingle = false := Bool.eq_false_iff.mpr hsingle
    obtain ⟨first, second, more, rfl, hsecond⟩ := h.longerThanOne hlong
    rw [hlong, Bool.and_false]
    have hfirst : first.kind ≠ .Sign .BracketClose := fun hkind => hinside (congrArg some hkind)
    unfold declarationAhead
    split <;> simp_all

theorem foreseen (h : StandsFor tokens type rest) :
    declarationFrom tokens = type.foreseen (declarationAhead rest) := by
  induction h with
  | Basic span hkind => simp only [declarationFrom, Parse.nextKind, hkind, TypeTree.foreseen]
  | Named span name hkind =>
      simp only [declarationFrom, Parse.nextKind, hkind, TypeTree.foreseen, List.tail_cons]
  | @Pointer _ rest _ star span _ hkind ih =>
      obtain ⟨_, place, text⟩ := star
      obtain rfl : _ = TokenKind.Sign .Star := hkind
      exact ih
  | @Array _ rest _ opening closing span _ hopening hclosing ih =>
      obtain ⟨_, place, text⟩ := opening
      obtain ⟨_, place', text'⟩ := closing
      obtain rfl : _ = TokenKind.Sign .BracketOpen := hopening
      obtain rfl : _ = TokenKind.Sign .BracketClose := hclosing
      exact ih
  | AssocArray span _ hkey hopening hinside hclosing ih _ =>
      rw [TypeTree.foreseen, ← hkey.declarationAhead_key hopening hinside hclosing]
      exact ih
  | @Callable _ inside _ _ word span isDelegate promises parameters _ hword ih =>
      obtain ⟨kind, place, text⟩ := word
      rw [TypeTree.foreseen, ih]
      obtain rfl | rfl : kind = .Word .Function ∨ kind = .Word .Delegate := hword
      · rfl
      · rfl

end StandsFor

namespace Parse

variable {α : Type} {before : List Token → Prop}

-- What is known of the tokens in front is known behind as well.
theorem Ensures.along {body : Parse α} {after : List Token → α → List Token → Prop}
    (h : ∀ tokens, Ensures (· = tokens) body (after tokens)) :
    Ensures before body fun result rest => ∃ tokens, before tokens ∧ after tokens result rest := by
  intro limits state result state' hrun
  obtain ⟨hkept, hquiet⟩ := h state.rest limits state result state' hrun
  refine ⟨hkept, fun hstate hbefore => (hquiet hstate rfl).imp_right ?_⟩
  exact And.imp_right fun hafter => ⟨state.rest, hbefore, hafter⟩

-- What does not depend on the tokens stays.
theorem Candid.keeps {body : Parse α} (h : Candid body) (fact : Prop) :
    Ensures (fun _ => fact) body fun _ _ => fact := by
  intro limits state result state' hrun
  obtain ⟨hkept, hquiet⟩ := h limits state result state' hrun
  exact ⟨hkept, fun hstate hfact => (hquiet hstate trivial).imp_right fun h => ⟨h.1, hfact⟩⟩

-- Where nothing can be known beforehand, nothing is claimed.
theorem Candid.impossible {body : Parse α} {after : α → List Token → Prop} (h : Candid body)
    (hbefore : ∀ rest, ¬before rest) : Ensures before body after :=
  (h.keeps False).weaken hbefore fun _ _ hfalse => hfalse.elim

theorem Ensures.skipNext {kind : TokenKind} :
    Ensures (fun rest => before rest ∧ nextKind rest = some kind) Parse.skip fun _ rest =>
      ∃ token, token.kind = kind ∧ before (token :: rest) :=
  .skip (fun token _ h => ⟨token, Option.some.inj h.2, h.1⟩) fun h => nomatch h.2

theorem Ensures.eat (kind : TokenKind) : Ensures before (eat kind) fun found rest =>
    if found = true then ∃ token, token.kind = kind ∧ before (token :: rest)
    else before rest ∧ nextKind rest ≠ some kind := by
  have hat : Ensures before (Parse.isAt kind) fun found rest =>
      if found = true then before rest ∧ nextKind rest = some kind
      else before rest ∧ nextKind rest ≠ some kind := by
    refine Ensures.inspect.bind fun next => .pure fun rest ⟨hrest, hnext⟩ => ?_
    by_cases h : (next == some kind) = true
    · rw [if_pos h]
      exact ⟨hrest, hnext.trans (eq_of_beq h)⟩
    · rw [if_neg h]
      exact ⟨hrest, fun hkind => h (beq_iff_eq.mpr (hnext.symm.trans hkind))⟩
  refine hat.bind fun found => ?_
  cases found with
  | true => exact Ensures.skipNext.bind fun _ => .pure fun _ h => h
  | false => exact .pure fun _ h => h

theorem Ensures.expectName : Ensures before expectName fun found rest =>
    found.isSome = true ∧ ∃ token, token.kind = .Identifier ∧ before (token :: rest) := by
  refine (Ensures.isAt _).bind fun _ => .branch ?_ ?_
  · refine Ensures.here.bind fun span => ?_
    have htake : Ensures (fun rest => before rest ∧ nextKind rest = some .Identifier) Parse.take
        fun _ rest => ∃ token, token.kind = .Identifier ∧ before (token :: rest) :=
      .take (fun token _ h => ⟨token, Option.some.inj h.2, h.1⟩) fun h => nomatch h.2
    exact htake.bind fun text => .pure fun _ h => ⟨rfl, h⟩
  · exact Ensures.here.bind fun span => (Ensures.complain rfl).bind fun _ => .pure fun _ h => h.elim

theorem Ensures.close {sign : Sign} {missing : DiagnosticKind} (opening : String) (opened : Span)
    (hmissing : missing.severity = .Error) :
    Ensures before (close sign missing opening opened) fun _ rest =>
      ∃ token, token.kind = .Sign sign ∧ before (token :: rest) := by
  refine (Ensures.eat _).bind fun _ => .branch (.pure fun _ h => h) ?_
  exact Ensures.here.bind fun _ => (Ensures.report (beq_of_eq hmissing)).weaken (fun _ h => h)
    fun _ _ h => h.elim

theorem Ensures.expectSemicolon : Ensures before expectSemicolon fun _ rest =>
    ∃ token, token.kind = .Sign .Semicolon ∧ before (token :: rest) := by
  refine (Ensures.eat _).bind fun _ => .branch (.pure fun _ h => h) ?_
  exact Ensures.here.bind fun _ => (Ensures.complain rfl).bind fun _ =>
    stepwise_kept.recoverStatement.ensures fun _ => id

end Parse

namespace Grammar

open Parse

variable {tokens : List Token}

theorem standsFor_readBaseType : Ensures (· = tokens) readBaseType (StandsFor tokens) := by
  refine Ensures.here.bind fun span => Ensures.inspect.bind fun next => ?_
  split
  · exact Ensures.skipNext.bind fun _ => .pure fun _ ⟨_, hkind, htokens⟩ =>
      htokens ▸ .Basic span hkind
  · refine Ensures.expectName.bind fun found => ?_
    cases found with
    | none => exact .pure fun _ h => nomatch h.1
    | some name =>
        exact .pure fun _ ⟨_, _, hkind, htokens⟩ => htokens.1 ▸ .Named span name hkind
  · exact (Ensures.complain rfl).bind fun _ => .pure fun _ h => h.elim

section Types

variable {self : Reading} (hself : ∀ tokens, Ensures (· = tokens) (self .Type) (StandsFor tokens))
  (hcandid : Candid (self .Type))

include hself

theorem standsFor_readBracketSuffix (start : Nat) (element : TypeTree) :
    Ensures (fun rest => StandsFor tokens element rest ∧ nextKind rest = some (.Sign .BracketOpen))
      (readBracketSuffix self start element) (StandsFor tokens) := by
  refine Ensures.here.bind fun opened => Ensures.skipNext.bind fun _ => (Ensures.eat _).bind
    fun _ => .branch ?array ?map
  case array =>
    exact (Ensures.since start).bind fun span => .pure
      fun _ ⟨_, hclosing, _, hopening, helement⟩ => .Array span helement hopening hclosing
  case map =>
    exact (Ensures.along hself).bind fun key => (Ensures.close _ opened rfl).bind fun _ =>
      (Ensures.since start).bind fun span => .pure
      fun _ ⟨_, hclosing, _, ⟨⟨_, hopening, hvalue⟩, hinside⟩, hkey⟩ =>
        .AssocArray span hvalue hkey hopening hinside hclosing

omit hself in
include hcandid in
theorem standsFor_readCallableSuffix {keyword : Keyword} (start : Nat) (isDelegate : Bool)
    (result : TypeTree) (hkeyword : keyword = .Function ∨ keyword = .Delegate) :
    Ensures (fun rest => StandsFor tokens result rest ∧ nextKind rest = some (.Word keyword))
      (readCallableSuffix self start isDelegate result) (StandsFor tokens) := by
  have hparameters : Candid (readParameters self) :=
    @Nearsighted.readParameters _ stepwise_candid.toNearsighted self self hcandid
  -- what comes behind the word plays no part
  have hword : Ensures
      (fun rest => StandsFor tokens result rest ∧ nextKind rest = some (.Word keyword)) skip
      fun _ _ => ∃ word inside, StandsFor tokens result (word :: inside) ∧
        (word.kind = .Word .Function ∨ word.kind = .Word .Delegate) := by
    refine Ensures.skipNext.weaken (fun _ h => h) fun _ rest ⟨word, hkind, hresult⟩ =>
      ⟨word, rest, hresult, ?_⟩
    rw [hkind]
    exact hkeyword.imp (congrArg _) (congrArg _)
  exact hword.bind fun _ => (hparameters.keeps _).bind fun parameters =>
    (stepwise_candid.readPromises.keeps _).bind fun promises => (Ensures.since start).bind fun span =>
    .pure fun _ ⟨_, _, hresult, hword⟩ =>
      .Callable span isDelegate promises parameters hresult hword

include hcandid

theorem standsFor_readTypeSuffix (start : Nat) (type : TypeTree) :
    Ensures (StandsFor tokens type) (readTypeSuffix self start type)
      (Round.meets (StandsFor tokens) (StandsFor tokens)) := by
  refine Ensures.inspect.bind fun next => ?_
  split
  · exact Ensures.skipNext.bind fun _ => (Ensures.since start).bind fun span => .pure
      fun _ ⟨_, hkind, htarget⟩ => .Pointer span htarget hkind
  · exact (standsFor_readBracketSuffix hself start type).bind fun _ => .pure fun _ h => h
  · exact (standsFor_readCallableSuffix hcandid start false type (.inl rfl)).bind fun _ =>
      .pure fun _ h => h
  · exact (standsFor_readCallableSuffix hcandid start true type (.inr rfl)).bind fun _ =>
      .pure fun _ h => h
  · exact .pure fun _ h => h.1

theorem standsFor_readType : Ensures (· = tokens) (readType self) (StandsFor tokens) :=
  Ensures.here.bind fun _ => standsFor_readBaseType.bind fun _ => .either (.pure fun _ h => h)
    (.rounds (StandsFor tokens) fun type => standsFor_readTypeSuffix hself hcandid _ type)

end Types

theorem standsFor_readWithin (levels : Nat) (tokens : List Token) :
    Ensures (· = tokens) (readWithin levels .Type) (StandsFor tokens) := by
  induction levels generalizing tokens with
  | zero => exact fun _ _ _ _ hrun => nomatch hrun
  | succ levels ih => exact standsFor_readType ih (readWithin_candid levels .Type)

section Names

variable {type : TypeTree}

-- The tokens spell the type of something, and a name of it has just been taken.
def NamedBefore (tokens : List Token) (type : TypeTree) (rest : List Token) : Prop :=
  ∃ name, name.kind = .Identifier ∧ StandsFor tokens type (name :: rest)

-- Behind the name the look ahead comes to its end.
theorem NamedBefore.seen {sign : Token} {rest : List Token}
    (h : NamedBefore tokens type (sign :: rest))
    (hsign : sign.kind = .Sign .Equal ∨ sign.kind = .Sign .Semicolon) :
    declarationFrom tokens = type.foreseen true := by
  obtain ⟨⟨_, span, text⟩, hname, hstands⟩ := h
  obtain rfl : _ = TokenKind.Identifier := hname
  rw [hstands.foreseen]
  obtain ⟨kind, place, written⟩ := sign
  obtain rfl | rfl : kind = .Sign .Equal ∨ kind = .Sign .Semicolon := hsign
  · rfl
  · rfl

theorem foresees_readInitialValue (levels : Nat) :
    Ensures (NamedBefore tokens type) (readInitialValue (readWithin levels)) fun _ rest =>
      declarationFrom tokens = type.foreseen true ∨ NamedBefore tokens type rest := by
  refine (Ensures.eat _).bind fun _ => .branch ?_ (.pure fun _ h => .inr h.1)
  have hvalue : Candid (some <$> readWithin levels .Assignment) := by
    rw [map_eq_pure_bind]
    exact (readWithin_candid levels .Assignment).bind fun _ => .pure fun _ h => h
  exact (hvalue.keeps _).weaken (fun _ ⟨_, hsign, hnamed⟩ => hnamed.seen (.inl hsign))
    fun _ _ => .inl

-- Whether a declaration is seen from its start is decided by its type.
theorem foresees_readLocal (levels : Nat) (tokens : List Token) :
    Ensures (· = tokens) (readLocal (readWithin levels)) fun declared _ =>
      declarationFrom tokens = declared.type.foreseen true := by
  refine Ensures.here.bind fun start => (standsFor_readWithin levels tokens).bind fun type =>
    Ensures.expectName.bind fun found => ?_
  have hbehind : ∀ name : Name, Ensures (NamedBefore tokens type) (do
      let value ← readInitialValue (readWithin levels)
      expectSemicolon
      return (⟨← since start.start, type, name, value⟩ : VariableTree)) fun declared _ =>
        declarationFrom tokens = declared.type.foreseen true := fun name =>
    (foresees_readInitialValue levels).bind fun value => Ensures.expectSemicolon.bind fun _ =>
      (Ensures.since _).bind fun span => .pure fun _ ⟨_, hsign, hseen⟩ =>
      hseen.elim id fun hnamed => hnamed.seen (.inr hsign)
  cases found with
  | some name => exact (hbehind name).weaken (fun _ h => h.2) fun _ _ h => h
  | none =>
      refine (Ensures.here.bind fun span => hbehind ⟨"", span⟩).weaken (fun _ h => ?_)
        fun _ _ h => h
      cases h.1

end Names

end Grammar

end EffectLint
