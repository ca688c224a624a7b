import EffectLint.Proofs.Grammar.Levels

/-!
The expressions that hold together by themselves, and declarations, which start like them but
reach as far as an assignment does.
-/

namespace EffectLint

open Parse

namespace Grammar

variable {span : Span}

theorem integerValue_toString (value : Nat) : integerValue (toString value) = value := by
  have hdigits : (toString value).toList = Nat.toDigits 10 value := by
    rw [Nat.toString_eq_ofList_toDigits, String.toList_ofList]
  have hfilter : (Nat.toDigits 10 value).filter (· != '_') = Nat.toDigits 10 value := by
    refine List.filter_eq_self.mpr fun digit hdigit => ?_
    simp only [bne_iff_ne, ne_eq]
    rintro rfl
    exact Nat.underscore_not_in_toDigits hdigit
  rw [integerValue, hdigits, hfilter]
  calc
    _ = Nat.ofDigitChars 10 (Nat.toDigits 10 value) 0 := Nat.ofDigitChars_eq_foldl.symm
    _ = value := Nat.ofDigitChars_ten_toDigits

theorem quotedText_quoted (text : String) : quotedText (Lexeme.quoted text).text = text := by
  have hlist : (Lexeme.quoted text).text.toList = '"' :: (text.toList ++ ['"']) := by
    simp [Lexeme.quoted, String.toList_append]
  rw [quotedText, hlist, List.tail_cons, List.dropLast_concat, String.ofList_toList]

-- A primary expression that is a single token.
theorem readsAs_of_token {whole : Expr} {lexeme : Lexeme} (need : Nat)
    (hlexemes : whole.lexemes = [lexeme])
    (hread : ∀ self token after, token.kind = lexeme.kind → token.text = lexeme.text →
      Reads need (readPrimary self) (token :: after) after (·.bare = whole.bare)) :
    ReadsAs readPrimary Level.primary whole := by
  refine ⟨need, fun levels _ tokens after htokens _ => ?_⟩
  obtain ⟨token, tokens, rfl, hkind, htext, hnil⟩ := map_lexeme_cons (htokens.trans hlexemes)
  obtain rfl := List.map_eq_nil_iff.mp hnil
  exact hread _ token after hkind htext

theorem readsAs_Identifier {text : String} :
    ReadsAs readPrimary Level.primary (.Identifier span text) := by
  refine readsAs_of_token 1 (by rw [Expr.lexemes]) fun self token after hkind htext => ?_
  refine (reads_here _).bind (by omega) fun place _ => (reads_inspect _).bind (by omega)
    fun next hnext => ?_
  subst hnext
  simp only [nextKind, hkind, Lexeme.name]
  refine (reads_take token after).bind (by omega) fun found hfound => ?_
  refine (reads_since _ after).bind (by omega) fun place _ => .pure ?_
  rw [Expr.bare, Expr.bare, hfound, htext, Lexeme.name]

theorem readsAs_Integer {value : Nat} (h : value < integerBound) :
    ReadsAs readPrimary Level.primary (.Integer span value) := by
  refine readsAs_of_token 1 (by rw [Expr.lexemes]) fun self token after hkind htext => ?_
  refine (reads_here _).bind (by omega) fun place _ => (reads_inspect _).bind (by omega)
    fun next hnext => ?_
  subst hnext
  simp only [nextKind, hkind, Lexeme.integer]
  refine (reads_take token after).bind (by omega) fun found hfound => ?_
  have hvalue : integerValue found = value := by
    rw [hfound, htext, Lexeme.integer, integerValue_toString]
  rw [if_pos (by rwa [hvalue])]
  exact (reads_since _ after).bind (by omega)
    fun place _ => .pure (by rw [Expr.bare, Expr.bare, hvalue])

theorem readsAs_Text {text : String} : ReadsAs readPrimary Level.primary (.Text span text) := by
  refine readsAs_of_token 1 (by rw [Expr.lexemes]) fun self token after hkind htext => ?_
  refine (reads_here _).bind (by omega) fun place _ => (reads_inspect _).bind (by omega)
    fun next hnext => ?_
  subst hnext
  simp only [nextKind, hkind, Lexeme.quoted]
  refine (reads_take token after).bind (by omega) fun found hfound => ?_
  refine (reads_since _ after).bind (by omega) fun place _ => .pure ?_
  rw [Expr.bare, Expr.bare, hfound, htext, quotedText_quoted]

theorem readsAs_Boolean {value : Bool} :
    ReadsAs readPrimary Level.primary (.Boolean span value) := by
  refine readsAs_of_token 1 (by rw [Expr.lexemes]) fun self token after hkind _ => ?_
  refine (reads_here _).bind (by omega) fun place _ => (reads_inspect _).bind (by omega)
    fun next hnext => ?_
  subst hnext
  cases value with
  | true =>
      simp only [nextKind, hkind, Lexeme.word]
      refine (reads_skip token after).bind (by omega) fun _ _ => ?_
      exact (reads_since _ after).bind (by omega) fun place _ => .pure (by rw [Expr.bare, Expr.bare])
  | false =>
      simp only [nextKind, hkind, Lexeme.word]
      refine (reads_skip token after).bind (by omega) fun _ _ => ?_
      exact (reads_since _ after).bind (by omega) fun place _ => .pure (by rw [Expr.bare, Expr.bare])

theorem readsAs_Null : ReadsAs readPrimary Level.primary (.Null span) := by
  refine readsAs_of_token 1 (by rw [Expr.lexemes]) fun self token after hkind _ => ?_
  refine (reads_here _).bind (by omega) fun place _ => (reads_inspect _).bind (by omega)
    fun next hnext => ?_
  subst hnext
  simp only [nextKind, hkind, Lexeme.word]
  refine (reads_skip token after).bind (by omega) fun _ _ => ?_
  exact (reads_since _ after).bind (by omega) fun place _ => .pure (by rw [Expr.bare, Expr.bare])

-- What a closing sign stands behind ends there.
theorem continuation_of_closing {closing : Token} {sign : Sign} (hkind : closing.kind = .Sign sign)
    (hsign : sign = .ParenClose ∨ sign = .BracketClose ∨ sign = .Semicolon) (after : List Token) :
    continuation (closing :: after) = 0 := by
  rcases hsign with rfl | rfl | rfl <;>
    simp [continuation, connective?, connectiveOf, nextKind, hkind]

theorem readsAs_Paren {inner : Expr} (h : ReadsAs (· .Expression) Level.comma inner) :
    ReadsAs readPrimary Level.primary (.Paren span inner) := by
  obtain ⟨need, h⟩ := h
  refine ⟨need + 2, fun levels hlevels tokens after htokens _ => ?_⟩
  rw [Expr.lexemes] at htokens
  obtain ⟨opening, back, rfl, hopening, _, hmore⟩ := map_lexeme_cons htokens
  obtain ⟨inside, back, rfl, hinside, hback⟩ := map_lexeme_append hmore
  obtain ⟨closing, back, rfl, hclosing, _, hnil⟩ := map_lexeme_cons hback
  obtain rfl := List.map_eq_nil_iff.mp hnil
  have hends := continuation_of_closing hclosing (.inl rfl) after
  rw [List.cons_append, List.append_assoc, List.singleton_append, Expr.bare]
  refine (reads_here _).bind (by omega) fun place _ => (reads_inspect _).bind (by omega)
    fun next hnext => ?_
  subst hnext
  simp only [nextKind, hopening, Lexeme.sign]
  refine (reads_skip opening _).bind (by omega) fun _ _ => ?_
  refine (h levels (by omega) inside _ hinside (by rw [hends]; decide)).bind (by omega)
    fun read hread => ?_
  refine (reads_close _ _ place hclosing after).bind (by omega) fun _ _ => ?_
  exact (reads_since _ after).bind (by omega) fun place _ => .pure (by rw [Expr.bare, hread])

-- Arguments are written out with something in front that ends no list.
def OpensItem (whole : Expr) : Prop :=
  ∃ first rest, whole.lexemes = first :: rest ∧ first.kind ≠ .Sign .ParenClose

theorem listLexemes_eq (exprs : List Expr) : Expr.listLexemes exprs = listed Expr.lexemes exprs := by
  induction exprs with
  | nil => rw [Expr.listLexemes, listed]
  | cons first rest ih => rw [Expr.listLexemes, listed, ih]

theorem EndsItem.continuation_lt {after : List Token} (h : EndsItem after) :
    continuation after < Level.assign := by
  rcases h with h | h <;> simp [continuation, connective?, connectiveOf, h]

theorem reads_arguments {arguments : List Expr}
    (h : ∀ argument ∈ arguments, ReadsAs (· .Assignment) Level.assign argument)
    (hopens : ∀ argument ∈ arguments, OpensItem argument) :
    ∃ need, ∀ levels, need ≤ levels → ∀ opening tokens closing after,
      closing.kind = .Sign .ParenClose → tokens.map Token.lexeme = Expr.listLexemes arguments →
      Reads need (readArguments (readWithin levels)) (opening :: (tokens ++ closing :: after)) after
        (Expr.bareList · = Expr.bareList arguments) := by
  have hitem : ∀ argument ∈ arguments, ∃ need, ∀ levels, need ≤ levels →
      ReadsItem (readWithin levels .Assignment) Expr.lexemes Expr.bare Expr.bare need argument := by
    intro argument hmem
    obtain ⟨need, h⟩ := h argument hmem
    exact ⟨need, fun levels hlevels => ⟨hopens argument hmem, fun tokens after htokens hafter =>
      h levels hlevels tokens after htokens hafter.continuation_lt⟩⟩
  obtain ⟨need, hitems⟩ := @exists_common _ (fun need argument => ∀ levels, need ≤ levels →
    ReadsItem (readWithin levels .Assignment) Expr.lexemes Expr.bare Expr.bare need argument)
    (fun hle h levels hlevels => (h levels (by omega)).mono hle) arguments hitem
  refine ⟨need + arguments.length * (need + 2) + 2,
    fun levels hlevels opening tokens closing after hclosing htokens => ?_⟩
  have hends : nextKind (closing :: after) = some (.Sign .ParenClose) := congrArg some hclosing
  have hlist := repeats_list (fun argument hmem => hitems argument hmem levels (by omega)) #[]
    (htokens.trans (listLexemes_eq arguments)) hends
  refine (reads_here _).bind (by omega) fun opened _ => (reads_skip opening _).bind (by omega)
    fun _ _ => ?_
  refine hlist.rounds.bind (by omega) fun found hfound => ?_
  refine (reads_close _ _ opened hclosing after).bind (by omega) fun _ _ => .pure ?_
  rw [Expr.bareList_eq, Expr.bareList_eq]
  exact hfound

theorem readsAs_Tuple {elements : List Expr}
    (h : ∀ element ∈ elements, ReadsAs (· .Assignment) Level.assign element)
    (hopens : ∀ element ∈ elements, OpensItem element) :
    ReadsAs readPrimary Level.primary (.Tuple span elements) := by
  obtain ⟨need, h⟩ := reads_arguments h hopens
  refine ⟨need + 1, fun levels hlevels tokens after htokens _ => ?_⟩
  rw [Expr.lexemes] at htokens
  obtain ⟨word, back, rfl, hword, _, hmore⟩ := map_lexeme_cons htokens
  obtain ⟨opening, back, rfl, _, _, hmore⟩ := map_lexeme_cons hmore
  obtain ⟨inside, back, rfl, hinside, hback⟩ := map_lexeme_append hmore
  obtain ⟨closing, back, rfl, hclosing, _, hnil⟩ := map_lexeme_cons hback
  obtain rfl := List.map_eq_nil_iff.mp hnil
  simp only [List.cons_append, List.append_assoc, List.nil_append]
  rw [Expr.bare]
  refine (reads_here _).bind (by omega) fun place _ => (reads_inspect _).bind (by omega)
    fun next hnext => ?_
  subst hnext
  simp only [nextKind, hword, Lexeme.word]
  refine (reads_skip word _).bind (by omega) fun _ _ => ?_
  refine (h levels (by omega) opening inside closing after hclosing hinside).bind (by omega)
    fun read hread => ?_
  exact (reads_since _ after).bind (by omega) fun place _ => .pure (by rw [Expr.bare, hread])

theorem readsAs_Assert {condition : Expr} {message : Option Expr}
    (hcondition : ReadsAs (· .Assignment) Level.assign condition)
    (hmessage : ∀ text ∈ message, ReadsAs (· .Assignment) Level.assign text) :
    ReadsAs readPrimary Level.primary (.Assert span condition message) := by
  obtain ⟨need, hcondition⟩ := hcondition
  cases message with
  | none =>
      refine ⟨need + 4, fun levels hlevels tokens after htokens _ => ?_⟩
      rw [Expr.lexemes] at htokens
      obtain ⟨word, back, rfl, hword, _, hmore⟩ := map_lexeme_cons htokens
      obtain ⟨opening, back, rfl, hopening, _, hmore⟩ := map_lexeme_cons hmore
      obtain ⟨inside, back, rfl, hinside, hback⟩ := map_lexeme_append hmore
      obtain ⟨closing, back, rfl, hclosing, _, hnil⟩ := map_lexeme_cons hback
      obtain rfl := List.map_eq_nil_iff.mp hnil
      have hends := continuation_of_closing hclosing (.inl rfl) after
      have hcomma : nextKind (closing :: after) ≠ some (.Sign .Comma) := by
        simp [nextKind, hclosing, Lexeme.sign]
      simp only [List.cons_append, List.append_assoc, List.nil_append]
      rw [Expr.bare]
      refine (reads_here _).bind (by omega) fun place _ => (reads_inspect _).bind (by omega)
        fun next hnext => ?_
      subst hnext
      simp only [nextKind, hword, Lexeme.word]
      refine (reads_skip word _).bind (by omega) fun _ _ => (reads_here _).bind (by omega)
        fun opened _ => ?_
      refine (reads_expect _ hopening _).bind (by omega) fun _ _ => ?_
      refine (hcondition levels (by omega) inside _ hinside (by rw [hends]; decide)).bind (by omega)
        fun read hread => ?_
      refine (reads_eat_other hcomma).bind (by omega) fun found hfound => ?_
      rw [if_neg (by simp [hfound]), pure_bind]
      refine (reads_close _ _ opened hclosing after).bind (by omega) fun _ _ => ?_
      exact (reads_since _ after).bind (by omega) fun place _ => .pure (by rw [Expr.bare, hread])
  | some message =>
      obtain ⟨needMessage, hmessage⟩ := hmessage message rfl
      refine ⟨need + needMessage + 4, fun levels hlevels tokens after htokens _ => ?_⟩
      rw [Expr.lexemes] at htokens
      obtain ⟨word, back, rfl, hword, _, hmore⟩ := map_lexeme_cons htokens
      obtain ⟨opening, back, rfl, hopening, _, hmore⟩ := map_lexeme_cons hmore
      obtain ⟨inside, back, rfl, hinside, hback⟩ := map_lexeme_append hmore
      obtain ⟨comma, back, rfl, hcomma, _, hmore⟩ := map_lexeme_cons hback
      obtain ⟨text, back, rfl, htext, hback⟩ := map_lexeme_append hmore
      obtain ⟨closing, back, rfl, hclosing, _, hnil⟩ := map_lexeme_cons hback
      obtain rfl := List.map_eq_nil_iff.mp hnil
      have hends := continuation_of_closing hclosing (.inl rfl) after
      have hends' : continuation (comma :: (text ++ closing :: after)) = Level.comma := by
        simp [continuation, nextKind, hcomma, Lexeme.sign]
      simp only [List.cons_append, List.append_assoc, List.nil_append]
      rw [Expr.bare]
      refine (reads_here _).bind (by omega) fun place _ => (reads_inspect _).bind (by omega)
        fun next hnext => ?_
      subst hnext
      simp only [nextKind, hword, Lexeme.word]
      refine (reads_skip word _).bind (by omega) fun _ _ => (reads_here _).bind (by omega)
        fun opened _ => ?_
      refine (reads_expect _ hopening _).bind (by omega) fun _ _ => ?_
      refine (hcondition levels (by omega) inside _ hinside (by rw [hends']; decide)).bind (by omega)
        fun read hread => ?_
      refine (reads_eat hcomma _).bind (by omega) fun found hfound => ?_
      rw [if_pos hfound, map_eq_pure_bind, bind_assoc]
      refine (hmessage levels (by omega) text _ htext (by rw [hends]; decide)).bind (by omega)
        fun read' hread' => ?_
      rw [pure_bind]
      refine (reads_close _ _ opened hclosing after).bind (by omega) fun _ _ => ?_
      exact (reads_since _ after).bind (by omega)
        fun place _ => .pure (by rw [Expr.bare, hread, hread'])

theorem readsAs_Declare {declared : Name} {value : Expr}
    (h : ReadsAs (· .Assignment) Level.assign value) :
    ReadsAs readPrimary Level.assign (.Declare span declared value) := by
  obtain ⟨need, h⟩ := h
  refine ⟨need + 3, fun levels hlevels tokens after htokens hafter => ?_⟩
  rw [Expr.lexemes] at htokens
  obtain ⟨word, back, rfl, hword, _, hmore⟩ := map_lexeme_cons htokens
  obtain ⟨name, back, rfl, hname, htext, hmore⟩ := map_lexeme_cons hmore
  obtain ⟨equal, back, rfl, hequal, _, hback⟩ := map_lexeme_cons hmore
  simp only [List.cons_append]
  rw [Expr.bare]
  refine (reads_here _).bind (by omega) fun place _ => (reads_inspect _).bind (by omega)
    fun next hnext => ?_
  subst hnext
  simp only [nextKind, hword, Lexeme.word]
  refine (reads_skip word _).bind (by omega) fun _ _ => (reads_expectName hname _).bind (by omega) ?_
  rintro _ ⟨place, rfl⟩
  refine (reads_expect _ hequal _).bind (by omega) fun _ _ => ?_
  refine (h levels (by omega) back after hback hafter).bind (by omega) fun read hread => ?_
  refine (reads_since _ after).bind (by omega) fun place _ => .pure ?_
  rw [Expr.bare, hread, htext, Lexeme.name]

theorem readsAs_Compiles {operand : Expr} (h : ReadsAs (· .Assignment) Level.assign operand) :
    ReadsAs readPrimary Level.primary (.Compiles span operand) := by
  obtain ⟨need, h⟩ := h
  refine ⟨need + 5, fun levels hlevels tokens after htokens _ => ?_⟩
  rw [Expr.lexemes] at htokens
  obtain ⟨word, back, rfl, hword, _, hmore⟩ := map_lexeme_cons htokens
  obtain ⟨opening, back, rfl, hopening, _, hmore⟩ := map_lexeme_cons hmore
  obtain ⟨name, back, rfl, hname, htext, hmore⟩ := map_lexeme_cons hmore
  obtain ⟨comma, back, rfl, hcomma, _, hmore⟩ := map_lexeme_cons hmore
  obtain ⟨inside, back, rfl, hinside, hback⟩ := map_lexeme_append hmore
  obtain ⟨closing, back, rfl, hclosing, _, hnil⟩ := map_lexeme_cons hback
  obtain rfl := List.map_eq_nil_iff.mp hnil
  have hends := continuation_of_closing hclosing (.inl rfl) after
  simp only [List.cons_append, List.append_assoc, List.nil_append]
  rw [Expr.bare]
  refine (reads_here _).bind (by omega) fun place _ => (reads_inspect _).bind (by omega)
    fun next hnext => ?_
  subst hnext
  simp only [nextKind, hword, Lexeme.word]
  refine (reads_skip word _).bind (by omega) fun _ _ => (reads_here _).bind (by omega)
    fun opened _ => ?_
  refine (reads_expect _ hopening _).bind (by omega)
    fun _ _ => (reads_expectName hname _).bind (by omega) ?_
  rintro _ ⟨place', rfl⟩
  simp only [if_pos (show name.text = "compiles" from htext), pure_bind]
  refine (reads_expect _ hcomma _).bind (by omega) fun _ _ => ?_
  refine (h levels (by omega) inside _ hinside (by rw [hends]; decide)).bind (by omega)
    fun read hread => ?_
  refine (reads_close _ _ opened hclosing after).bind (by omega) fun _ _ => ?_
  refine (reads_since _ after).bind (by omega) fun place _ => .pure ?_
  rw [if_pos trivial, Expr.bare, hread]

end Grammar

end EffectLint
