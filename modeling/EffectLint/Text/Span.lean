/-!
Positions in source text. A text is a list of characters, and a position is the number of
bytes that the characters before it take in UTF-8.
-/

namespace EffectLint

-- A half-open range of byte offsets.
structure Span where
  start : Nat
  stop : Nat
  deriving DecidableEq, Inhabited

namespace Span

def emptyAt (offset : Nat) : Span :=
  ⟨offset, offset⟩

-- The smallest range that holds both.
def cover (left right : Span) : Span :=
  ⟨min left.start right.start, max left.stop right.stop⟩

def isEmpty (span : Span) : Bool :=
  span.start == span.stop

end Span

namespace Text

def width : List Char → Nat
  | [] => 0
  | char :: rest => char.utf8Size + width rest

-- Skip the characters that start before the offset `bytes`.
def dropBytes : Nat → List Char → List Char
  | _, [] => []
  | 0, text => text
  | bytes + 1, char :: rest => dropBytes (bytes + 1 - char.utf8Size) rest

-- Keep the characters that start before the offset `bytes`.
def takeBytes : Nat → List Char → List Char
  | _, [] => []
  | 0, _ => []
  | bytes + 1, char :: rest => char :: takeBytes (bytes + 1 - char.utf8Size) rest

def slice (text : List Char) (span : Span) : List Char :=
  takeBytes (span.stop - span.start) (dropBytes span.start text)

-- An offset lies on a character boundary when some number of whole characters ends there.
def Boundary (text : List Char) (offset : Nat) : Prop :=
  ∃ before after, text = before ++ after ∧ width before = offset

@[simp]
theorem width_nil : width [] = 0 := rfl

@[simp]
theorem width_cons (char : Char) (rest : List Char) :
    width (char :: rest) = char.utf8Size + width rest := rfl

theorem width_append (left right : List Char) :
    width (left ++ right) = width left + width right := by
  induction left with
  | nil => simp
  | cons char rest ih => simp [ih, Nat.add_assoc]

theorem width_reverse (text : List Char) : width text.reverse = width text := by
  induction text with
  | nil => rfl
  | cons char rest ih =>
      rw [List.reverse_cons, width_append, ih]
      simp [Nat.add_comm]

theorem dropBytes_append (before after : List Char) :
    dropBytes (width before) (before ++ after) = after := by
  induction before with
  | nil => cases after <;> rfl
  | cons char rest ih =>
      have hpos := char.utf8Size_pos
      obtain ⟨size, hsize⟩ : ∃ size, char.utf8Size + width rest = size + 1 :=
        ⟨char.utf8Size + width rest - 1, by omega⟩
      have hrest : size + 1 - char.utf8Size = width rest := by omega
      simp only [width_cons, List.cons_append, hsize, dropBytes, hrest, ih]

theorem takeBytes_append (before after : List Char) :
    takeBytes (width before) (before ++ after) = before := by
  induction before with
  | nil => cases after <;> rfl
  | cons char rest ih =>
      have hpos := char.utf8Size_pos
      obtain ⟨size, hsize⟩ : ∃ size, char.utf8Size + width rest = size + 1 :=
        ⟨char.utf8Size + width rest - 1, by omega⟩
      have hrest : size + 1 - char.utf8Size = width rest := by omega
      simp only [width_cons, List.cons_append, hsize, takeBytes, hrest, ih]

-- Slicing between two character boundaries gives exactly the characters between them.
theorem slice_between (before middle after : List Char) :
    slice (before ++ middle ++ after) ⟨width before, width (before ++ middle)⟩ = middle := by
  have hwidth : width (before ++ middle) - width before = width middle := by
    rw [width_append]
    omega
  simp only [slice, List.append_assoc, dropBytes_append, hwidth, takeBytes_append]

end Text

end EffectLint
