/-!
Regular patterns over characters, read one character at a time: the derivative of a pattern by
a character matches what is left of a text once that character is taken off its front.
-/

namespace EffectLint

inductive Pattern where
  | Never
  | Blank
  | One (accepts : Char → Bool)
  | Either (left right : Pattern)
  | Next (first second : Pattern)
  | Many (body : Pattern)

namespace Pattern

inductive Matches : Pattern → List Char → Prop where
  | Blank : Matches .Blank []
  | One {accepts char} : accepts char = true → Matches (.One accepts) [char]
  | Left {left right text} : Matches left text → Matches (.Either left right) text
  | Right {left right text} : Matches right text → Matches (.Either left right) text
  | Next {first second front back} :
      Matches first front → Matches second back → Matches (.Next first second) (front ++ back)
  | Done {body} : Matches (.Many body) []
  | More {body front back} :
      Matches body front → Matches (.Many body) back → Matches (.Many body) (front ++ back)

def isNever : Pattern → Bool
  | .Never => true
  | _ => false

-- Whether the empty text matches.
def acceptsBlank : Pattern → Bool
  | .Never => false
  | .Blank => true
  | .One _ => false
  | .Either left right => left.acceptsBlank || right.acceptsBlank
  | .Next first second => first.acceptsBlank && second.acceptsBlank
  | .Many _ => true

-- The next three build a pattern that is `Never` as soon as one part makes it so. A pattern
-- built from them that no text can match any more is recognised by its shape.
def either : Pattern → Pattern → Pattern
  | .Never, right => right
  | left, .Never => left
  | left, right => .Either left right

def next : Pattern → Pattern → Pattern
  | .Never, _ => .Never
  | .Blank, second => second
  | _, .Never => .Never
  | first, second => .Next first second

def derivative (char : Char) : Pattern → Pattern
  | .Never => .Never
  | .Blank => .Never
  | .One accepts => if accepts char then .Blank else .Never
  | .Either left right => either (left.derivative char) (right.derivative char)
  | .Next first second =>
      if first.acceptsBlank then
        either (next (first.derivative char) second) (second.derivative char)
      else next (first.derivative char) second
  | .Many body => next (body.derivative char) (.Many body)

-- Building blocks for rules.
def char (expected : Char) : Pattern :=
  .One (· == expected)

def literal : List Char → Pattern
  | [] => .Blank
  | first :: rest => .Next (char first) (literal rest)

def atLeastOnce (body : Pattern) : Pattern :=
  .Next body (.Many body)

theorem matches_either {left right : Pattern} {text : List Char} :
    Matches (either left right) text ↔ Matches left text ∨ Matches right text := by
  have hnever : ¬ Matches .Never text := by
    intro h
    cases h
  unfold either
  split
  · simp [hnever]
  · simp [hnever]
  · constructor
    · intro h
      cases h with
      | Left h => exact .inl h
      | Right h => exact .inr h
    · rintro (h | h)
      · exact .Left h
      · exact .Right h

theorem matches_next {first second : Pattern} {text : List Char} :
    Matches (next first second) text ↔
      ∃ front back, text = front ++ back ∧ Matches first front ∧ Matches second back := by
  unfold next
  split
  · constructor
    · intro h
      cases h
    · rintro ⟨_, _, _, h, _⟩
      cases h
  · constructor
    · intro h
      exact ⟨[], text, rfl, .Blank, h⟩
    · rintro ⟨front, back, rfl, hfirst, hsecond⟩
      cases hfirst
      exact hsecond
  · constructor
    · intro h
      cases h
    · rintro ⟨_, _, _, _, h⟩
      cases h
  · constructor
    · intro h
      cases h with
      | Next hfirst hsecond => exact ⟨_, _, rfl, hfirst, hsecond⟩
    · rintro ⟨front, back, rfl, hfirst, hsecond⟩
      exact .Next hfirst hsecond

theorem acceptsBlank_iff (pattern : Pattern) :
    pattern.acceptsBlank = true ↔ Matches pattern [] := by
  induction pattern with
  | Never => exact ⟨by simp [acceptsBlank], fun h => by cases h⟩
  | Blank => exact ⟨fun _ => .Blank, fun _ => rfl⟩
  | One accepts => exact ⟨by simp [acceptsBlank], fun h => by cases h⟩
  | Either left right ihl ihr =>
      simp only [acceptsBlank, Bool.or_eq_true, ihl, ihr]
      constructor
      · rintro (h | h)
        · exact .Left h
        · exact .Right h
      · intro h
        cases h with
        | Left h => exact .inl h
        | Right h => exact .inr h
  | Next first second ihf ihs =>
      simp only [acceptsBlank, Bool.and_eq_true, ihf, ihs]
      constructor
      · rintro ⟨hf, hs⟩
        exact .Next hf hs
      · generalize htext : ([] : List Char) = text
        intro h
        cases h with
        | Next hf hs =>
            obtain ⟨rfl, rfl⟩ := List.append_eq_nil_iff.mp htext.symm
            exact ⟨hf, hs⟩
  | Many body => exact ⟨fun _ => .Done, fun _ => rfl⟩

-- A repetition that matches a text starting with `char` matches some first round that takes it.
theorem Matches.many_cons {body : Pattern} {char : Char} {rest : List Char}
    (h : Matches (.Many body) (char :: rest)) :
    ∃ front back, rest = front ++ back ∧ Matches body (char :: front) ∧
      Matches (.Many body) back := by
  generalize hpattern : Pattern.Many body = pattern at h
  generalize htext : char :: rest = text at h
  induction h with
  | Blank | One | Left | Right | Next => cases hpattern
  | Done => cases htext
  | @More other front back hbody hmany _ ih =>
      cases hpattern
      cases front with
      | nil => exact ih rfl htext
      | cons first front =>
          simp only [List.cons_append, List.cons.injEq] at htext
          obtain ⟨rfl, rfl⟩ := htext
          exact ⟨front, back, rfl, hbody, hmany⟩

theorem matches_derivative (char : Char) (pattern : Pattern) (rest : List Char) :
    Matches (pattern.derivative char) rest ↔ Matches pattern (char :: rest) := by
  induction pattern generalizing rest with
  | Never => exact ⟨fun h => (by cases h), fun h => (by cases h)⟩
  | Blank => exact ⟨fun h => (by cases h), fun h => (by cases h)⟩
  | One accepts =>
      unfold derivative
      split
      · next haccepts =>
        constructor
        · intro h
          cases h
          exact .One haccepts
        · intro h
          cases h
          exact .Blank
      · next hrejects =>
        constructor
        · intro h
          cases h
        · intro h
          cases h
          contradiction
  | Either left right ihl ihr =>
      simp only [derivative, matches_either, ihl, ihr]
      constructor
      · rintro (h | h)
        · exact .Left h
        · exact .Right h
      · intro h
        cases h with
        | Left h => exact .inl h
        | Right h => exact .inr h
  | Next first second ihf ihs =>
      have hnext : Matches (.Next first second) (char :: rest) ↔
          (∃ front back, rest = front ++ back ∧ Matches first (char :: front) ∧
            Matches second back) ∨ (Matches first [] ∧ Matches second (char :: rest)) := by
        constructor
        · generalize htext : char :: rest = text
          intro h
          cases h with
          | @Next _ _ front back hf hs =>
              cases front with
              | nil => exact .inr ⟨hf, hs⟩
              | cons head front =>
                  simp only [List.cons_append, List.cons.injEq] at htext
                  obtain ⟨rfl, rfl⟩ := htext
                  exact .inl ⟨front, back, rfl, hf, hs⟩
        · rintro (⟨front, back, rfl, hf, hs⟩ | ⟨hf, hs⟩)
          · exact .Next hf hs
          · exact .Next hf hs
      rw [hnext]
      unfold derivative
      split
      · next hblank =>
        simp only [matches_either, matches_next, ihf, ihs]
        have := (acceptsBlank_iff first).mp hblank
        simp [this]
      · next hblank =>
        simp only [matches_next, ihf]
        have : ¬ Matches first [] := fun h => hblank ((acceptsBlank_iff first).mpr h)
        simp [this]
  | Many body ih =>
      simp only [derivative, matches_next, ih]
      constructor
      · rintro ⟨front, back, rfl, hf, hs⟩
        exact .More hf hs
      · intro h
        exact h.many_cons

end Pattern

end EffectLint
