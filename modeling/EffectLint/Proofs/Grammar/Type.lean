import EffectLint.Grammar.Production
import EffectLint.Proofs.Grammar.Listed

/-!
Reading a written type gives the type back.
-/

namespace EffectLint

open Parse

namespace Grammar

-- What can follow a type without being taken for a part of it.
def EndsType (after : List Token) : Prop :=
  nextKind after ≠ some (.Sign .Star) ∧ nextKind after ≠ some (.Sign .BracketOpen) ∧
    nextKind after ≠ some (.Word .Function) ∧ nextKind after ≠ some (.Word .Delegate) ∧
    nextKind after ≠ some (.Word .Pure) ∧ nextKind after ≠ some (.Word .Nothrow)

-- What can follow a function type, whose promises come last.
def EndsPromises (after : List Token) : Prop :=
  nextKind after ≠ some (.Word .Pure) ∧ nextKind after ≠ some (.Word .Nothrow)

-- A reading of the nonterminals that reads the type back where it is written out.
def ReadsTypeBy (self : Reading) (need : Nat) (type : TypeTree) : Prop :=
  ∀ tokens after, tokens.map Token.lexeme = type.lexemes → EndsType after →
    Reads need (self .Type) (tokens ++ after) after (·.bare = type.bare)

theorem ReadsTypeBy.mono {self : Reading} {type : TypeTree} {need need' : Nat}
    (h : ReadsTypeBy self need type) (hneed : need ≤ need') : ReadsTypeBy self need' type :=
  fun tokens after htokens hafter => (h tokens after htokens hafter).mono hneed

def ReadsType (type : TypeTree) : Prop :=
  ∃ need, ∀ levels, need ≤ levels → ReadsTypeBy (readWithin levels) need type

def promiseRound (promises : Promises) : Parse (Round Promises Promises) := do
  if ← eat (.Word .Pure) then
    return .Again { promises with isPure := true }
  else if ← eat (.Word .Nothrow) then
    return .Again { promises with isNothrow := true }
  else
    return .Done promises

theorem repeats_promises_end (found : Promises) {after : List Token} (hafter : EndsPromises after) :
    Repeats 2 promiseRound found after after (· = found) := by
  have hround : Reads 2 (promiseRound found) after after (· = .Done found) := by
    refine (reads_eat_other hafter.1).bind (by omega) fun pure hpure => ?_
    rw [if_neg (by simp [hpure])]
    refine (reads_eat_other hafter.2).bind (by omega) fun nothrow hnothrow => ?_
    rw [if_neg (by simp [hnothrow])]
    exact .pure rfl
  exact .done hround (by omega) fun result hresult => ⟨found, hresult, rfl⟩

theorem repeats_promises_nothrow (found : Promises) {token : Token} {after : List Token}
    (htoken : token.kind = .Word .Nothrow) (hafter : EndsPromises after) :
    Repeats 4 promiseRound found (token :: after) after
      (· = { found with isNothrow := true }) := by
  have hround : Reads 2 (promiseRound found) (token :: after) after
      (· = .Again { found with isNothrow := true }) := by
    refine (reads_eat_other (by simp [nextKind, htoken])).bind (by omega) fun pure hpure => ?_
    rw [if_neg (by simp [hpure])]
    refine (reads_eat htoken after).bind (by omega) fun nothrow hnothrow => ?_
    rw [if_pos hnothrow]
    exact .pure rfl
  exact .again hround (by omega) (by omega) fun result hresult =>
    ⟨_, hresult, repeats_promises_end _ hafter⟩

theorem repeats_promises_pure (found : Promises) {token : Token} {before after : List Token}
    {good : Promises → Prop} (htoken : token.kind = .Word .Pure)
    (hrest : Repeats 4 promiseRound { found with isPure := true } before after good) :
    Repeats 5 promiseRound found (token :: before) after good := by
  have hround : Reads 1 (promiseRound found) (token :: before) before
      (· = .Again { found with isPure := true }) := by
    refine (reads_eat htoken before).bind (by omega) fun pure hpure => ?_
    rw [if_pos hpure]
    exact .pure rfl
  exact .again hround (by omega) (by omega) fun result hresult => ⟨_, hresult, hrest⟩

theorem reads_promises {promises : Promises} {tokens after : List Token}
    (htokens : tokens.map Token.lexeme = promises.lexemes) (hafter : EndsPromises after) :
    Reads 5 readPromises (tokens ++ after) after (· = promises) := by
  refine @Repeats.rounds _ _ _ _ _ _ promiseRound _ ?_
  obtain ⟨isPure, isNothrow⟩ := promises
  cases isPure with
  | false =>
      cases isNothrow with
      | false =>
          obtain rfl := List.map_eq_nil_iff.mp htokens
          exact (repeats_promises_end _ hafter).mono (by omega)
      | true =>
          obtain ⟨token, tokens, rfl, htoken, _, hnil⟩ := map_lexeme_cons htokens
          obtain rfl := List.map_eq_nil_iff.mp hnil
          exact (repeats_promises_nothrow _ htoken hafter).mono (by omega)
  | true =>
      cases isNothrow with
      | false =>
          obtain ⟨token, tokens, rfl, htoken, _, hnil⟩ := map_lexeme_cons htokens
          obtain rfl := List.map_eq_nil_iff.mp hnil
          exact repeats_promises_pure _ htoken ((repeats_promises_end _ hafter).mono (by omega))
      | true =>
          obtain ⟨token, tokens, rfl, htoken, _, hmore⟩ := map_lexeme_cons htokens
          obtain ⟨second, tokens, rfl, hsecond, _, hnil⟩ := map_lexeme_cons hmore
          obtain rfl := List.map_eq_nil_iff.mp hnil
          exact repeats_promises_pure _ htoken (repeats_promises_nothrow _ hsecond hafter)

theorem isError_bare (type : TypeTree) : type.bare.isError = type.isError := by
  cases type <;> simp only [TypeTree.bare, TypeTree.isError]

theorem reads_base_Basic (type : BasicType) {token : Token} (after : List Token)
    (htoken : token.kind = .Basic type) :
    Reads 1 readBaseType (token :: after) after (·.bare = .Basic ⟨0, 0⟩ type) := by
  refine (reads_here _).bind (by omega) fun span _ => (reads_inspect _).bind (by omega)
    fun next hnext => ?_
  subst hnext
  simp only [nextKind, htoken]
  exact (reads_skip token after).bind (by omega) fun _ _ => .pure (by rw [TypeTree.bare])

theorem reads_base_Named {token : Token} (after : List Token) (htoken : token.kind = .Identifier) :
    Reads 2 readBaseType (token :: after) after (·.bare = .Named ⟨0, 0⟩ ⟨token.text, ⟨0, 0⟩⟩) := by
  refine (reads_here _).bind (by omega) fun span _ => (reads_inspect _).bind (by omega)
    fun next hnext => ?_
  subst hnext
  simp only [nextKind, htoken]
  refine (reads_expectName htoken after).bind (by omega) ?_
  rintro _ ⟨place, rfl⟩
  exact .pure (by rw [TypeTree.bare])

-- A base and the suffixes behind it, where the whole type starts at `start`.
def readSuffixed (self : Reading) (start : Nat) : Parse TypeTree := do
  let base ← readBaseType
  if base.isError then
    return base
  else
    rounds base (readTypeSuffix self start)

-- Reading comes to the loop over suffixes with the type as what is read so far.
def ReadsSuffixed (type : TypeTree) : Prop :=
  ∃ need, ∀ levels, need ≤ levels → ∀ start tokens after,
    tokens.map Token.lexeme = type.lexemes → EndsPromises after → ∀ need' last good,
    (∀ read, read.bare = type.bare →
      Repeats need' (readTypeSuffix (readWithin levels) start) read after last good) →
    Reads (need + need') (readSuffixed (readWithin levels) start) (tokens ++ after) last good

theorem readsSuffixed_of_base {type : TypeTree} {lexeme : Lexeme} {need : Nat}
    (hlexemes : type.lexemes = [lexeme]) (hright : type.isError = false)
    (hbase : ∀ token after, token.kind = lexeme.kind → token.text = lexeme.text →
      Reads need readBaseType (token :: after) after (·.bare = type.bare)) :
    ReadsSuffixed type := by
  refine ⟨need, fun levels _ start tokens after htokens _ need' last good hloop => ?_⟩
  obtain ⟨token, tokens, rfl, hkind, htext, hnil⟩ := map_lexeme_cons (htokens.trans hlexemes)
  obtain rfl := List.map_eq_nil_iff.mp hnil
  refine (hbase token after hkind htext).bind (by omega) fun read hread => ?_
  have hread' : read.isError = false := by
    rw [← isError_bare, hread, isError_bare, hright]
  rw [if_neg (by simp [hread'])]
  exact (hloop read hread).rounds.mono (by omega)

-- One round of the loop reads one more suffix.
theorem ReadsSuffixed.suffix {inner outer : TypeTree} {first : Lexeme} {rest : List Lexeme}
    (hinner : ReadsSuffixed inner) (hlexemes : outer.lexemes = inner.lexemes ++ first :: rest)
    (hfirst : first.kind ≠ .Word .Pure ∧ first.kind ≠ .Word .Nothrow)
    (hround : ∃ need, 0 < need ∧ ∀ levels, need ≤ levels → ∀ start tokens after,
      tokens.map Token.lexeme = first :: rest → EndsPromises after →
      ∀ read, read.bare = inner.bare →
        Reads need (readTypeSuffix (readWithin levels) start read) (tokens ++ after) after
          fun result => ∃ next, result = .Again next ∧ next.bare = outer.bare) :
    ReadsSuffixed outer := by
  obtain ⟨need, hinner⟩ := hinner
  obtain ⟨needRound, hpositive, hround⟩ := hround
  refine ⟨need + needRound,
    fun levels hlevels start tokens after htokens hafter need' last good hloop => ?_⟩
  obtain ⟨front, back, rfl, hfront, hback⟩ := map_lexeme_append (htokens.trans hlexemes)
  have hends : EndsPromises (back ++ after) := by
    obtain ⟨token, back, rfl, hkind, _⟩ := map_lexeme_cons hback
    constructor <;> simp [nextKind, hkind, hfirst]
  rw [List.append_assoc, Nat.add_assoc]
  refine hinner levels (by omega) start front (back ++ after) hfront hends _ last good ?_
  intro read hread
  refine .again (hround levels (by omega) start back after hback hafter read hread) (by omega)
    (by omega) ?_
  rintro _ ⟨next, rfl, hnext⟩
  exact ⟨next, rfl, (hloop next hnext).mono (by omega)⟩

theorem ReadsSuffixed.readsType {type : TypeTree} (h : ReadsSuffixed type) : ReadsType type := by
  obtain ⟨need, h⟩ := h
  refine ⟨need + 2, fun levels hlevels tokens after htokens hafter => ?_⟩
  obtain ⟨levels, rfl⟩ : ∃ fewer, levels = fewer + 1 := ⟨levels - 1, by omega⟩
  have hstop : ∀ start read, Reads 1 (readTypeSuffix (readWithin levels) start read) after after
      (· = .Done read) := by
    intro start read
    refine (reads_inspect after).bind (by omega) fun next hnext => ?_
    obtain ⟨hstar, hbracket, hfunction, hdelegate, _⟩ := hafter
    subst hnext
    split
    · next h => exact absurd h hstar
    · next h => exact absurd h hbracket
    · next h => exact absurd h hfunction
    · next h => exact absurd h hdelegate
    · exact .pure rfl
  have hread : Reads (need + 1) (readType (readWithin levels)) (tokens ++ after) after
      (·.bare = type.bare) := by
    refine (reads_here _).bind (by omega) fun span _ => ?_
    refine h levels (by omega) span.start tokens after htokens hafter.2.2.2.2 1 after _ ?_
    intro read hread
    exact .done (hstop span.start read) (by omega) fun result hresult => ⟨read, hresult, hread⟩
  exact hread.mono (by omega)

theorem readsSuffixed_Pointer {span : Span} {target : TypeTree} (h : ReadsSuffixed target) :
    ReadsSuffixed (.Pointer span target) := by
  refine h.suffix (by rw [TypeTree.lexemes]) (by decide) ⟨1, by omega, ?_⟩
  intro levels _ start tokens after htokens _ read hread
  obtain ⟨token, tokens, rfl, hkind, _, hnil⟩ := map_lexeme_cons htokens
  obtain rfl := List.map_eq_nil_iff.mp hnil
  refine (reads_inspect _).bind (by omega) fun next hnext => ?_
  subst hnext
  simp only [List.cons_append, List.nil_append, nextKind, hkind, Lexeme.sign]
  refine (reads_skip token after).bind (by omega) fun _ _ => (reads_since start _).bind (by omega)
    fun place _ => ?_
  exact .pure ⟨_, rfl, by rw [TypeTree.bare, TypeTree.bare, hread]⟩

theorem readsSuffixed_Array {span : Span} {element : TypeTree} (h : ReadsSuffixed element) :
    ReadsSuffixed (.Array span element) := by
  refine h.suffix (by rw [TypeTree.lexemes]) (by decide) ⟨2, by omega, ?_⟩
  intro levels _ start tokens after htokens _ read hread
  obtain ⟨token, tokens, rfl, hkind, _, hmore⟩ := map_lexeme_cons htokens
  obtain ⟨closing, tokens, rfl, hclosing, _, hnil⟩ := map_lexeme_cons hmore
  obtain rfl := List.map_eq_nil_iff.mp hnil
  refine (reads_inspect _).bind (by omega) fun next hnext => ?_
  subst hnext
  simp only [List.cons_append, List.nil_append, nextKind, hkind, Lexeme.sign]
  have hsuffix : Reads 1 (readBracketSuffix (readWithin levels) start read)
      (token :: closing :: after) after (·.bare = .Array ⟨0, 0⟩ read.bare) := by
    refine (reads_here _).bind (by omega) fun opened _ => (reads_skip token _).bind (by omega)
      fun _ _ => ?_
    refine (reads_eat hclosing after).bind (by omega) fun found hfound => ?_
    rw [if_pos hfound]
    exact (reads_since start _).bind (by omega) fun place _ => .pure (by rw [TypeTree.bare])
  refine hsuffix.bind (by omega) fun next hnext => .pure ⟨next, rfl, ?_⟩
  rw [hnext, hread, TypeTree.bare]

-- A type starts with its base, which no closing sign can be taken for.
theorem first_of_wellWritten {type : TypeTree} (h : type.WellWritten) :
    ∃ first rest, type.lexemes = first :: rest ∧
      (first.kind = .Identifier ∨ ∃ basic, first.kind = .Basic basic) := by
  induction h with
  | @Basic span type => exact ⟨_, [], by rw [TypeTree.lexemes], .inr ⟨type, rfl⟩⟩
  | Named _ => exact ⟨_, [], by rw [TypeTree.lexemes], .inl rfl⟩
  | Pointer _ ih | Array _ ih | AssocArray _ _ ih | Callable _ _ _ ih =>
      obtain ⟨first, rest, hlexemes, hfirst⟩ := ih
      exact ⟨first, _, by rw [TypeTree.lexemes, hlexemes, List.cons_append], hfirst⟩

theorem readsSuffixed_AssocArray {span : Span} {value key : TypeTree} (hvalue : ReadsSuffixed value)
    (hkey : ReadsType key) (hwritten : key.WellWritten) :
    ReadsSuffixed (.AssocArray span value key) := by
  obtain ⟨need, hkey⟩ := hkey
  obtain ⟨first, rest, hfirst, hkind⟩ := first_of_wellWritten hwritten
  refine hvalue.suffix (by rw [TypeTree.lexemes]) (by decide) ⟨need + 3, by omega, ?_⟩
  intro levels hlevels start tokens after htokens _ read hread
  obtain ⟨token, tokens, rfl, htoken, _, hmore⟩ := map_lexeme_cons htokens
  obtain ⟨keyTokens, back, rfl, hkeyTokens, hback⟩ := map_lexeme_append hmore
  obtain ⟨closing, back, rfl, hclosing, _, hnil⟩ := map_lexeme_cons hback
  obtain rfl := List.map_eq_nil_iff.mp hnil
  have hopen : nextKind (keyTokens ++ closing :: after) ≠ some (.Sign .BracketClose) := by
    obtain ⟨token, keyTokens, rfl, htoken, _⟩ := map_lexeme_cons (hkeyTokens.trans hfirst)
    rcases hkind with hkind | ⟨basic, hkind⟩ <;> simp [nextKind, htoken, hkind]
  have hends : EndsType (closing :: after) := by
    simp [EndsType, nextKind, hclosing, Lexeme.sign]
  have hsuffix : Reads (need + 2) (readBracketSuffix (readWithin levels) start read)
      (token :: (keyTokens ++ closing :: after)) after
      (·.bare = .AssocArray ⟨0, 0⟩ read.bare key.bare) := by
    refine (reads_here _).bind (by omega) fun opened _ => (reads_skip token _).bind (by omega)
      fun _ _ => ?_
    refine (reads_eat_other hopen).bind (by omega) fun found hfound => ?_
    rw [if_neg (by simp [hfound])]
    refine (hkey levels (by omega) keyTokens _ hkeyTokens hends).bind (by omega) fun key' hkey' => ?_
    refine (reads_close _ _ opened hclosing after).bind (by omega) fun _ _ => ?_
    exact (reads_since start _).bind (by omega) fun place _ => .pure (by rw [TypeTree.bare, hkey'])
  rw [List.cons_append, List.append_assoc, List.singleton_append, TypeTree.bare]
  refine (reads_inspect _).bind (by omega) fun next hnext => ?_
  subst hnext
  simp only [nextKind, htoken, Lexeme.sign]
  exact hsuffix.bind (by omega) fun next hnext => .pure ⟨next, rfl, by rw [hnext, hread]⟩

theorem EndsItem.endsType {after : List Token} (h : EndsItem after) : EndsType after := by
  rcases h with h | h <;> simp [EndsType, h]

def bareParameter (parameter : Parameter TypeTree) : Parameter TypeTree :=
  ⟨parameter.isRef, parameter.type.bare, parameter.name.map fun name => ⟨name.text, ⟨0, 0⟩⟩⟩

def parameterLexemes (parameter : Parameter TypeTree) : List Lexeme :=
  (if parameter.isRef then [Lexeme.word .Ref] else []) ++
    (parameter.type.lexemes ++ parameter.name.toList.map (Lexeme.name ·.text))

theorem parameterLexemes_eq (parameters : List (Parameter TypeTree)) :
    TypeTree.parameterLexemes parameters = listed parameterLexemes parameters := by
  induction parameters with
  | nil => rw [TypeTree.parameterLexemes, listed]
  | cons first rest ih =>
      rw [TypeTree.parameterLexemes, listed, ih, parameterLexemes]
      simp only [List.append_assoc]

theorem first_of_parameter {parameter : Parameter TypeTree}
    (h : parameter.type.WellWritten) :
    ∃ first rest, parameterLexemes parameter = first :: rest ∧ first.kind ≠ .Sign .ParenClose := by
  obtain ⟨first, rest, hfirst, hkind⟩ := first_of_wellWritten h
  unfold parameterLexemes
  cases parameter.isRef with
  | true => exact ⟨Lexeme.word .Ref, _, rfl, by simp [Lexeme.word]⟩
  | false =>
      refine ⟨first, rest ++ _, by simp only [hfirst]; rfl, ?_⟩
      rcases hkind with hkind | ⟨basic, hkind⟩ <;> simp [hkind]

theorem reads_parameter {self : Reading} {need : Nat} {parameter : Parameter TypeTree}
    (htype : ReadsTypeBy self need parameter.type) (hwritten : parameter.type.WellWritten) :
    ReadsItem (readParameter self) parameterLexemes bareParameter bareParameter (need + 4)
      parameter := by
  refine ⟨first_of_parameter hwritten, ?_⟩
  obtain ⟨isRef, type, name⟩ := parameter
  obtain ⟨first, rest, hfirst, hkind⟩ := first_of_wellWritten hwritten
  intro tokens after htokens hafter
  obtain ⟨refTokens, back, rfl, hrefTokens, hback⟩ := map_lexeme_append htokens
  obtain ⟨typeTokens, nameTokens, rfl, htypeTokens, hnameTokens⟩ := map_lexeme_append hback
  have hends : EndsType (nameTokens ++ after) := by
    cases name with
    | none =>
        obtain rfl := List.map_eq_nil_iff.mp hnameTokens
        exact hafter.endsType
    | some name =>
        obtain ⟨token, nameTokens, rfl, htoken, _⟩ := map_lexeme_cons hnameTokens
        simp [EndsType, nextKind, htoken, Lexeme.name]
  have htyped : Reads (need + 3) (do
      let type ← self .Type
      let name ← if ← isAt .Identifier then expectName else Pure.pure none
      return (⟨isRef, type, name⟩ : Parameter TypeTree))
      (typeTokens ++ nameTokens ++ after) after
      (bareParameter · = bareParameter ⟨isRef, type, name⟩) := by
    rw [List.append_assoc]
    refine (htype typeTokens _ htypeTokens hends).bind (by omega) fun type' htype' => ?_
    refine (reads_isAt _ _).bind (by omega) fun found hfound => ?_
    cases name with
    | none =>
        obtain rfl := List.map_eq_nil_iff.mp hnameTokens
        have hother : ¬found = true := by
          rcases hafter with hafter | hafter <;> simp [hfound, hafter]
        simp only [if_neg hother, pure_bind]
        exact .pure (by simp only [bareParameter, htype'])
    | some name =>
        obtain ⟨token, nameTokens, rfl, htoken, htext, hnil⟩ := map_lexeme_cons hnameTokens
        obtain rfl := List.map_eq_nil_iff.mp hnil
        rw [if_pos (by simp [hfound, nextKind, htoken, Lexeme.name])]
        refine (reads_expectName htoken after).bind (by omega) ?_
        rintro _ ⟨span, rfl⟩
        refine .pure ?_
        simp [bareParameter, htype', htext, Lexeme.name]
  unfold readParameter
  cases isRef with
  | true =>
      obtain ⟨token, refTokens, rfl, htoken, _, hnil⟩ := map_lexeme_cons hrefTokens
      obtain rfl := List.map_eq_nil_iff.mp hnil
      refine (reads_eat htoken _).bind (by omega) fun found hfound => ?_
      subst hfound
      exact htyped.mono (by omega)
  | false =>
      obtain rfl := List.map_eq_nil_iff.mp hrefTokens
      have hother : nextKind (typeTokens ++ nameTokens ++ after) ≠ some (.Word .Ref) := by
        obtain ⟨token, typeTokens, rfl, htoken, _⟩ := map_lexeme_cons (htypeTokens.trans hfirst)
        rcases hkind with hkind | ⟨basic, hkind⟩ <;> simp [nextKind, htoken, hkind]
      refine (reads_eat_other hother).bind (by omega) fun found hfound => ?_
      subst hfound
      exact htyped.mono (by omega)

theorem reads_parameters {self : Reading} {need : Nat} {parameters : List (Parameter TypeTree)}
    (hread : ∀ parameter ∈ parameters, ReadsTypeBy self need parameter.type)
    (hwritten : ∀ parameter ∈ parameters, parameter.type.WellWritten)
    {opening closing : Token} {tokens : List Token} (after : List Token)
    (hopening : opening.kind = .Sign .ParenOpen) (hclosing : closing.kind = .Sign .ParenClose)
    (htokens : tokens.map Token.lexeme = TypeTree.parameterLexemes parameters) :
    Reads (parameters.length * (need + 6) + 3) (readParameters self)
      (opening :: (tokens ++ closing :: after)) after
      (TypeTree.bareParameters · = TypeTree.bareParameters parameters) := by
  have hends : nextKind (closing :: after) = some (.Sign .ParenClose) := congrArg some hclosing
  have hitems := fun parameter hmem => reads_parameter (hread parameter hmem) (hwritten parameter hmem)
  have hlist := (repeats_list hitems #[] (htokens.trans (parameterLexemes_eq parameters)) hends).mono
    (Nat.le_refl (parameters.length * (need + 6) + 1))
  refine (reads_here _).bind (by omega) fun opened _ => (reads_expect _ hopening _).bind (by omega)
    fun found hfound => ?_
  rw [if_pos hfound]
  refine hlist.rounds.bind (by omega) fun found hfound => ?_
  refine (reads_close _ _ opened hclosing after).bind (by omega) fun _ _ => .pure ?_
  rw [TypeTree.bareParameters_eq, TypeTree.bareParameters_eq]
  exact hfound

-- One bound is enough for the types of all parameters.
theorem exists_readsTypeBy {parameters : List (Parameter TypeTree)}
    (hread : ∀ parameter ∈ parameters, ReadsType parameter.type) :
    ∃ need, ∀ parameter ∈ parameters, ∀ levels, need ≤ levels →
      ReadsTypeBy (readWithin levels) need parameter.type :=
  @exists_common _ (fun need (parameter : Parameter TypeTree) => ∀ levels, need ≤ levels →
    ReadsTypeBy (readWithin levels) need parameter.type)
    (fun hle h levels hlevels => (h levels (by omega)).mono hle) parameters hread

theorem readsSuffixed_Callable {span : Span} {isDelegate : Bool} {promises : Promises}
    {result : TypeTree} {parameters : List (Parameter TypeTree)} (hresult : ReadsSuffixed result)
    (hread : ∀ parameter ∈ parameters, ReadsType parameter.type)
    (hwritten : ∀ parameter ∈ parameters, parameter.type.WellWritten) :
    ReadsSuffixed (.Callable span isDelegate promises result parameters) := by
  obtain ⟨need, hparameters⟩ := exists_readsTypeBy hread
  refine hresult.suffix (by rw [TypeTree.lexemes]) (by cases isDelegate <;> decide)
    ⟨need + parameters.length * (need + 6) + 9, by omega, ?_⟩
  intro levels hlevels start tokens after htokens hafter read hbare
  obtain ⟨token, tokens, rfl, htoken, _, hmore⟩ := map_lexeme_cons htokens
  obtain ⟨opening, tokens, rfl, hopening, _, hmore⟩ := map_lexeme_cons hmore
  obtain ⟨inside, back, rfl, hinside, hback⟩ := map_lexeme_append hmore
  obtain ⟨closing, promised, rfl, hclosing, _, hpromised⟩ := map_lexeme_cons hback
  have hsuffix : Reads (need + parameters.length * (need + 6) + 8)
      (readCallableSuffix (readWithin levels) start isDelegate read)
      (token :: opening :: (inside ++ closing :: (promised ++ after))) after
      (·.bare = .Callable ⟨0, 0⟩ isDelegate promises read.bare
        (TypeTree.bareParameters parameters)) := by
    refine (reads_skip token _).bind (by omega) fun _ _ => ?_
    refine (reads_parameters (fun parameter hmem => hparameters parameter hmem levels (by omega))
      hwritten _ hopening hclosing hinside).bind (by omega) fun read hread => ?_
    refine (reads_promises hpromised hafter).bind (by omega) fun found hfound => ?_
    exact (reads_since start _).bind (by omega)
      fun place _ => .pure (by rw [TypeTree.bare, hread, hfound])
  simp only [List.cons_append, List.append_assoc]
  rw [TypeTree.bare, ← hbare]
  refine (reads_inspect _).bind (by omega) fun next hnext => ?_
  subst hnext
  cases isDelegate with
  | true =>
      simp only [nextKind, htoken, Lexeme.word]
      exact hsuffix.bind (by omega) fun next hnext => .pure ⟨next, rfl, hnext⟩
  | false =>
      simp only [nextKind, htoken, Lexeme.word]
      exact hsuffix.bind (by omega) fun next hnext => .pure ⟨next, rfl, hnext⟩

theorem readsSuffixed_of_wellWritten {type : TypeTree} (h : type.WellWritten) :
    ReadsSuffixed type := by
  induction h with
  | @Basic span type =>
      exact readsSuffixed_of_base (by rw [TypeTree.lexemes]) rfl fun token after hkind _ =>
        (reads_base_Basic type after hkind).imp fun read hread => by rw [hread, TypeTree.bare]
  | @Named span name _ =>
      refine readsSuffixed_of_base (by rw [TypeTree.lexemes]) rfl fun token after hkind htext =>
        (reads_base_Named after hkind).imp fun read hread => ?_
      rw [hread, htext, TypeTree.bare, Lexeme.name]
  | Pointer _ ih => exact readsSuffixed_Pointer ih
  | Array _ ih => exact readsSuffixed_Array ih
  | AssocArray _ hkey ihvalue ihkey => exact readsSuffixed_AssocArray ihvalue ihkey.readsType hkey
  | Callable _ hwritten _ ihresult ihparameters =>
      exact readsSuffixed_Callable ihresult
        (fun parameter hmem => (ihparameters parameter hmem).readsType) hwritten

theorem readsType_of_wellWritten {type : TypeTree} (h : type.WellWritten) : ReadsType type :=
  (readsSuffixed_of_wellWritten h).readsType

end Grammar

end EffectLint
