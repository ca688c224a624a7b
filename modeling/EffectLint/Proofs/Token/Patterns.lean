import EffectLint.Proofs.Token.Munch

/-!
The texts that each rule matches.
-/

namespace EffectLint

namespace Pattern

theorem matches_one {accepts : Char → Bool} {text : List Char} :
    Matches (.One accepts) text ↔ ∃ char, text = [char] ∧ accepts char = true := by
  constructor
  · intro h
    cases h with
    | One haccepts => exact ⟨_, rfl, haccepts⟩
  · rintro ⟨char, rfl, haccepts⟩
    exact .One haccepts

theorem matches_Next {first second : Pattern} {text : List Char} :
    Matches (.Next first second) text ↔
      ∃ front back, text = front ++ back ∧ Matches first front ∧ Matches second back := by
  constructor
  · intro h
    cases h with
    | Next hfirst hsecond => exact ⟨_, _, rfl, hfirst, hsecond⟩
  · rintro ⟨front, back, rfl, hfirst, hsecond⟩
    exact .Next hfirst hsecond

-- A pattern that starts with a single character.
theorem matches_one_next {accepts : Char → Bool} {second : Pattern} {text : List Char} :
    Matches (.Next (.One accepts) second) text ↔
      ∃ char rest, text = char :: rest ∧ accepts char = true ∧ Matches second rest := by
  rw [matches_Next]
  constructor
  · rintro ⟨front, back, rfl, hfront, hback⟩
    obtain ⟨char, rfl, haccepts⟩ := matches_one.mp hfront
    exact ⟨char, back, rfl, haccepts, hback⟩
  · rintro ⟨char, rest, rfl, haccepts, hrest⟩
    exact ⟨[char], rest, rfl, .One haccepts, hrest⟩

theorem matches_literal {expected text : List Char} :
    Matches (literal expected) text ↔ text = expected := by
  induction expected generalizing text with
  | nil =>
      constructor
      · intro h
        cases h
        rfl
      · rintro rfl
        exact .Blank
  | cons first rest ih =>
      rw [literal, char, matches_one_next]
      constructor
      · rintro ⟨head, tail, rfl, hhead, htail⟩
        rw [eq_of_beq hhead, ih.mp htail]
      · rintro rfl
        exact ⟨first, rest, rfl, beq_self_eq_true first, ih.mpr rfl⟩

theorem matches_many_one {accepts : Char → Bool} {text : List Char} :
    Matches (.Many (.One accepts)) text ↔ ∀ char ∈ text, accepts char = true := by
  induction text with
  | nil =>
      constructor
      · intro _ char hchar
        cases hchar
      · intro _
        exact .Done
  | cons char rest ih =>
      constructor
      · intro h
        obtain ⟨front, back, rfl, hfront, hback⟩ := h.many_cons
        obtain ⟨only, hone, haccepts⟩ := matches_one.mp hfront
        obtain ⟨rfl, rfl⟩ := List.cons.inj hone
        intro other hother
        rcases List.mem_cons.mp hother with rfl | hother
        · exact haccepts
        · exact ih.mp hback other hother
      · intro h
        exact .More (.One (h char List.mem_cons_self))
          (ih.mpr fun other hother => h other (List.mem_cons_of_mem _ hother))

def startsName (char : Char) : Bool :=
  char.isAlpha || char == '_'

def continuesName (char : Char) : Bool :=
  char.isAlpha || char.isDigit || char == '_'

def continuesInteger (char : Char) : Bool :=
  char.isDigit || char == '_'

def isBlank (char : Char) : Bool :=
  char == ' ' || char == '\t' || char == '\r' || char == '\n' || char == '\x0c'

theorem matches_identifier {text : List Char} :
    Matches identifier text ↔
      ∃ char rest, text = char :: rest ∧ startsName char = true ∧
        ∀ other ∈ rest, continuesName other = true := by
  simp only [identifier, matches_one_next, matches_many_one]
  rfl

theorem matches_integer {text : List Char} :
    Matches integer text ↔
      ∃ char rest, text = char :: rest ∧ char.isDigit = true ∧
        ∀ other ∈ rest, continuesInteger other = true := by
  simp only [integer, matches_one_next, matches_many_one]
  rfl

theorem matches_whitespace {text : List Char} :
    Matches whitespace text ↔
      ∃ char rest, text = char :: rest ∧ isBlank char = true ∧
        ∀ other ∈ rest, isBlank other = true := by
  simp only [whitespace, atLeastOnce, matches_one_next, matches_many_one]
  rfl

-- Both kinds of comment start with a slash and a second sign.
theorem starts_of_comment {text : List Char}
    (h : Matches lineComment text ∨ Matches blockComment text) :
    ∃ rest, text = '/' :: '/' :: rest ∨ text = '/' :: '*' :: rest := by
  rcases h with h | h
  · obtain ⟨front, back, rfl, hfront, _⟩ := matches_Next.mp h
    rw [matches_literal.mp hfront]
    exact ⟨back, .inl rfl⟩
  · obtain ⟨front, back, rfl, hfront, _⟩ := matches_Next.mp h
    rw [matches_literal.mp hfront]
    exact ⟨back, .inr rfl⟩

-- Whether a text ends with the first quote in it that no backslash takes with it.
def endsQuoted : List Char → Bool
  | [] => false
  | char :: rest =>
      if char = '"' then rest.isEmpty
      else if char = '\\' then
        match rest with
        | [] => false
        | escaped :: rest => escaped != '\n' && endsQuoted rest
      else endsQuoted rest

theorem endsQuoted_quote (rest : List Char) : endsQuoted ('"' :: rest) = rest.isEmpty := by
  rw [endsQuoted.eq_def]
  simp

theorem endsQuoted_plain {char : Char} (hquote : char ≠ '"') (hslash : char ≠ '\\')
    (rest : List Char) : endsQuoted (char :: rest) = endsQuoted rest := by
  rw [endsQuoted.eq_def]
  simp only [hquote, hslash, if_false]

theorem endsQuoted_escaped (escaped : Char) (rest : List Char) :
    endsQuoted ('\\' :: escaped :: rest) = (escaped != '\n' && endsQuoted rest) := by
  rw [endsQuoted.eq_def]
  simp

-- Nothing follows the closing quote.
theorem not_endsQuoted_append {text extra : List Char} (htext : endsQuoted text = true)
    (hextra : extra ≠ []) : endsQuoted (text ++ extra) = false := by
  induction text using endsQuoted.induct with
  | case1 => cases htext
  | case2 rest =>
      rw [endsQuoted_quote, List.isEmpty_iff] at htext
      subst htext
      rw [List.cons_append, endsQuoted_quote, List.nil_append]
      simpa using hextra
  | case3 => simp [endsQuoted] at htext
  | case4 escaped rest _ ih =>
      rw [endsQuoted_escaped, Bool.and_eq_true] at htext
      rw [List.cons_append, List.cons_append, endsQuoted_escaped, ih htext.2, Bool.and_false]
  | case5 char rest hquote hslash ih =>
      rw [endsQuoted_plain hquote hslash] at htext
      rw [List.cons_append, endsQuoted_plain hquote hslash, ih htext]

-- What may stand between two quotes.
def quotedPart : Pattern :=
  .Either (.One fun char => char != '"' && char != '\\') (.Next (char '\\') (.One (· != '\n')))

theorem endsQuoted_of_many {front : List Char} (h : Matches (.Many quotedPart) front) :
    endsQuoted (front ++ ['"']) = true := by
  generalize hpattern : Pattern.Many quotedPart = pattern at h
  induction h with
  | Blank | One | Left | Right | Next => cases hpattern
  | Done => rfl
  | More hfront _ _ ih =>
      cases hpattern
      rw [List.append_assoc]
      cases hfront with
      | Left h =>
          obtain ⟨char, rfl, hchar⟩ := matches_one.mp h
          simp only [Bool.and_eq_true, bne_iff_ne] at hchar
          rw [List.singleton_append, endsQuoted_plain hchar.1 hchar.2, ih rfl]
      | Right h =>
          obtain ⟨slash, rest, rfl, hslash, hrest⟩ := matches_one_next.mp h
          obtain ⟨escaped, rfl, hescaped⟩ := matches_one.mp hrest
          rw [eq_of_beq hslash, List.cons_append, List.singleton_append, endsQuoted_escaped,
            ih rfl, hescaped]
          rfl

theorem many_of_endsQuoted {text : List Char} (h : endsQuoted text = true) :
    ∃ front, text = front ++ ['"'] ∧ Matches (.Many quotedPart) front := by
  induction text using endsQuoted.induct with
  | case1 => cases h
  | case2 rest =>
      rw [endsQuoted_quote, List.isEmpty_iff] at h
      exact ⟨[], by rw [h]; rfl, .Done⟩
  | case3 => simp [endsQuoted] at h
  | case4 escaped rest _ ih =>
      rw [endsQuoted_escaped, Bool.and_eq_true] at h
      obtain ⟨front, rfl, hfront⟩ := ih h.2
      have hpart : Matches quotedPart ['\\', escaped] :=
        .Right (matches_one_next.mpr ⟨_, _, rfl, rfl, .One h.1⟩)
      exact ⟨['\\', escaped] ++ front, rfl, .More hpart hfront⟩
  | case5 char rest hquote hslash ih =>
      rw [endsQuoted_plain hquote hslash] at h
      obtain ⟨front, rfl, hfront⟩ := ih h
      have hpart : Matches quotedPart [char] := .Left (.One (by simp [hquote, hslash]))
      exact ⟨[char] ++ front, rfl, .More hpart hfront⟩

theorem matches_text {text : List Char} :
    Matches Pattern.text text ↔ ∃ rest, text = '"' :: rest ∧ endsQuoted rest = true := by
  have hshape : Pattern.text = .Next (.One (· == '"')) (.Next (.Many quotedPart) (char '"')) := rfl
  rw [hshape, matches_one_next]
  constructor
  · rintro ⟨opening, rest, rfl, hopening, hrest⟩
    obtain ⟨front, back, rfl, hfront, hback⟩ := matches_Next.mp hrest
    obtain ⟨closing, rfl, hclosing⟩ := matches_one.mp hback
    obtain rfl := eq_of_beq hopening
    obtain rfl := eq_of_beq hclosing
    exact ⟨_, rfl, endsQuoted_of_many hfront⟩
  · rintro ⟨rest, rfl, hrest⟩
    obtain ⟨front, rfl, hfront⟩ := many_of_endsQuoted hrest
    exact ⟨'"', _, rfl, rfl, .Next hfront (.One rfl)⟩

end Pattern

end EffectLint
