import EffectLint.Lowering.Node
import EffectLint.Proofs.Type.Growth

/-!
What a value of a type can be used for: it is called, indexed or followed, or looked up in by a key.
What the table finds for such a use is what the type resolves to, and it stays the same while the
table grows. Where the error type does not stand in a type, it does not stand in what is found.
-/

namespace EffectLint

namespace TypeTable

-- A value of the type can be called, and this is what the call takes and gives.
inductive Calls (table : TypeTable) (type : TypeId) (signature : Signature) : Prop where
  | Function : table.resolvedShape type = .Function signature → Calls table type signature
  | Delegate {function} : table.resolvedShape type = .Delegate function →
      table.resolvedShape function = .Function signature → Calls table type signature
  | Pointer {function} : table.resolvedShape type = .Pointer function →
      table.resolvedShape function = .Function signature → Calls table type signature

-- A value of the type can be indexed, and this is the type of what is found.
inductive Holds (table : TypeTable) (type : TypeId) : TypeId → Prop where
  | Array {element} : table.resolvedShape type = .Array element → Holds table type element
  | Pointer {target} : table.resolvedShape type = .Pointer target → Holds table type target
  | AssocArray {key value} : table.resolvedShape type = .AssocArray key value →
      Holds table type value
  | Text : table.resolvedShape type = .Basic .Text → Holds table type .char

variable {table : TypeTable} {type : TypeId}

theorem function?_signature {function : FunctionType} (h : table.function? type = some function) :
    table.resolvedShape type = .Function function.signature := by
  unfold function? at h
  split at h
  · next signature hshape =>
      cases h
      exact hshape
  · cases h

theorem calls_of_called? {function : FunctionType} (h : table.called? type = some function) :
    table.Calls type function.signature := by
  have hcallee : ∀ {found}, table.calleeFunction? type = some found →
      table.Calls type found.signature := by
    intro found hfound
    unfold calleeFunction? at hfound
    split at hfound
    · next inner hshape => exact .Delegate hshape (function?_signature hfound)
    · exact .Function (function?_signature hfound)
  unfold called? at h
  split at h
  · next found hfound =>
      cases h
      exact hcallee hfound
  · split at h
    · next target hshape => exact .Pointer hshape (function?_signature h)
    · cases h

theorem holds_of_element? {element : TypeId} (h : Lower.element? table type = some element) :
    table.Holds type element := by
  unfold Lower.element? at h
  split at h
  · next found hshape =>
      cases h
      exact .Array hshape
  · next found hshape =>
      cases h
      exact .Pointer hshape
  · next key found hshape =>
      cases h
      exact .AssocArray hshape
  · next hshape =>
      cases h
      exact .Text hshape
  · cases h

theorem pointer_of_pointerTarget? {target : TypeId}
    (h : Lower.pointerTarget? table type = some target) :
    table.resolvedShape type = .Pointer target := by
  unfold Lower.pointerTarget? at h
  split at h
  · next found hshape =>
      cases h
      exact hshape
  · cases h

theorem assocArray_of_mapValue? {value : TypeId} (h : Lower.mapValue? table type = some value) :
    ∃ key, table.resolvedShape type = .AssocArray key value := by
  unfold Lower.mapValue? at h
  split at h
  · next key found hshape =>
      cases h
      exact ⟨key, hshape⟩
  · cases h

section Growth

variable {small large : TypeTable} (hclosed : small.Closed)
  (hgrows : small.shapes.Keeps large.shapes) (hknown : small.Known type)

include hclosed hgrows hknown

-- What a known type resolves to is known as well, with all its parts.
theorem resolvedShape_keeps {shape : Shape} (h : small.resolvedShape type = shape) :
    large.resolvedShape type = shape ∧ ∀ part ∈ shape.parts, small.Known part := by
  refine ⟨(hclosed.resolvedShape_eq hgrows hknown).trans h, fun part hpart => ?_⟩
  exact hclosed.resolved_part hknown (h ▸ hpart)

theorem Calls.keeps {signature : Signature} (h : small.Calls type signature) :
    large.Calls type signature := by
  cases h with
  | Function hshape => exact .Function (resolvedShape_keeps hclosed hgrows hknown hshape).1
  | Delegate hshape hfunction =>
      obtain ⟨hshape, hparts⟩ := resolvedShape_keeps hclosed hgrows hknown hshape
      have hinner := hparts _ List.mem_cons_self
      exact .Delegate hshape (resolvedShape_keeps hclosed hgrows hinner hfunction).1
  | Pointer hshape hfunction =>
      obtain ⟨hshape, hparts⟩ := resolvedShape_keeps hclosed hgrows hknown hshape
      have hinner := hparts _ List.mem_cons_self
      exact .Pointer hshape (resolvedShape_keeps hclosed hgrows hinner hfunction).1

theorem Holds.keeps {element : TypeId} (h : small.Holds type element) :
    large.Holds type element := by
  cases h with
  | Array hshape => exact .Array (resolvedShape_keeps hclosed hgrows hknown hshape).1
  | Pointer hshape => exact .Pointer (resolvedShape_keeps hclosed hgrows hknown hshape).1
  | AssocArray hshape => exact .AssocArray (resolvedShape_keeps hclosed hgrows hknown hshape).1
  | Text hshape => exact .Text (resolvedShape_keeps hclosed hgrows hknown hshape).1

end Growth

end TypeTable

-- The types of what is come to from a value: nothing is taken out of a tuple, and keys and arguments
-- only go in.
def Shape.seen : Shape → List TypeId
  | .Basic _ | .Null | .Error | .Class _ | .Tuple _ => []
  | .Alias _ target | .Pointer target => [target]
  | .Array element => [element]
  | .AssocArray _ value => [value]
  | .Function signature => [signature.result]
  | .Delegate function => [function]

namespace TypeTable

inductive Whole (table : TypeTable) : TypeId → Prop where
  | intro {type shape} : table.shape? type = some shape → shape ≠ .Error →
      (∀ part ∈ shape.seen, Whole table part) → Whole table type

namespace Whole

variable {table : TypeTable} {type : TypeId}

theorem builtin (hclosed : table.Closed) {shape : Shape} (hshape : start.shape? type = some shape)
    (herror : shape ≠ .Error) (hseen : shape.seen = []) : table.Whole type := by
  refine .intro (hclosed.builtin hshape) herror fun part hpart => ?_
  rw [hseen] at hpart
  cases hpart

theorem ofBasic (hclosed : table.Closed) (basic : BasicType) : table.Whole (.ofBasic basic) :=
  builtin hclosed (shape?_ofBasic basic) (by simp) rfl

theorem null (hclosed : table.Closed) : table.Whole .null :=
  builtin hclosed shape?_null (by simp) rfl

theorem ne_error (hclosed : table.Closed) (h : table.Whole type) : type ≠ .error := by
  rintro rfl
  cases h with
  | intro hshape herror =>
      rw [hclosed.builtin shape?_error] at hshape
      exact herror (Option.some.inj hshape).symm

theorem resolveWithin (h : table.Whole type) (steps : Nat) :
    table.Whole (table.resolveWithin steps type) := by
  induction steps generalizing type with
  | zero => exact h
  | succ steps ih =>
      rw [TypeTable.resolveWithin]
      split
      · next name target hshape =>
          cases h with
          | @intro _ shape hknown _ hseen =>
              obtain rfl := (shape_eq hknown).symm.trans hshape
              exact ih (hseen target List.mem_cons_self)
      · exact h

theorem resolve (h : table.Whole type) : table.Whole (table.resolve type) :=
  h.resolveWithin _

theorem isError (hclosed : table.Closed) (h : table.Whole type) : table.isError type = false :=
  beq_eq_false_iff_ne.mpr (h.resolve.ne_error hclosed)

theorem resolved_seen (h : table.Whole type) {part : TypeId}
    (hpart : part ∈ (table.resolvedShape type).seen) : table.Whole part := by
  have hresolved := h.resolve
  cases hresolved with
  | intro hshape _ hseen =>
      rw [resolvedShape, shape_eq hshape] at hpart
      exact hseen part hpart

theorem calls (h : table.Whole type) {signature : Signature}
    (hcalls : table.Calls type signature) : table.Whole signature.result := by
  cases hcalls with
  | Function hshape => exact h.resolved_seen (by simp [hshape, Shape.seen])
  | @Delegate function hshape hfunction =>
      have hinner : table.Whole function := h.resolved_seen (by simp [hshape, Shape.seen])
      exact hinner.resolved_seen (by simp [hfunction, Shape.seen])
  | @Pointer function hshape hfunction =>
      have hinner : table.Whole function := h.resolved_seen (by simp [hshape, Shape.seen])
      exact hinner.resolved_seen (by simp [hfunction, Shape.seen])

theorem holds (hclosed : table.Closed) (h : table.Whole type) {element : TypeId}
    (hholds : table.Holds type element) : table.Whole element := by
  cases hholds with
  | Array hshape => exact h.resolved_seen (by simp [hshape, Shape.seen])
  | Pointer hshape => exact h.resolved_seen (by simp [hshape, Shape.seen])
  | AssocArray hshape => exact h.resolved_seen (by simp [hshape, Shape.seen])
  | Text => exact .ofBasic hclosed .Character

theorem called (h : table.Whole type) {found : FunctionType}
    (hfound : table.called? type = some found) : table.Whole found.signature.result :=
  h.calls (calls_of_called? hfound)

theorem mapValue (h : table.Whole type) {value : TypeId}
    (hvalue : Lower.mapValue? table type = some value) : table.Whole value := by
  obtain ⟨key, hshape⟩ := assocArray_of_mapValue? hvalue
  exact h.resolved_seen (by simp [hshape, Shape.seen])

theorem pointerTarget (h : table.Whole type) {target : TypeId}
    (htarget : Lower.pointerTarget? table type = some target) : table.Whole target :=
  h.resolved_seen (by simp [pointer_of_pointerTarget? htarget, Shape.seen])

theorem element (hclosed : table.Closed) (h : table.Whole type) {element : TypeId}
    (helement : Lower.element? table type = some element) : table.Whole element :=
  h.holds hclosed (holds_of_element? helement)

theorem of_resolveWithin (hclosed : table.Closed) (hknown : table.Known type) (steps : Nat)
    (h : table.Whole (table.resolveWithin steps type)) : table.Whole type := by
  induction steps generalizing type with
  | zero => exact h
  | succ steps ih =>
      obtain ⟨shape, hshape⟩ := hknown
      rw [TypeTable.resolveWithin, shape_eq hshape] at h
      cases shape with
      | Alias name target =>
          have htarget := ih (hclosed.part_known hshape List.mem_cons_self) h
          exact .intro hshape (by simp) (by simpa [Shape.seen] using htarget)
      | _ => exact h

theorem of_isClass (hclosed : table.Closed) (hknown : table.Known type)
    (hclass : table.isClass type = true) : table.Whole type := by
  obtain ⟨shape, hshape⟩ := hclosed.resolve_known hknown
  rw [isClass, resolvedShape, shape_eq hshape] at hclass
  cases shape with
  | Class name =>
      exact .of_resolveWithin hclosed hknown _ (.intro hshape (by simp) (by simp [Shape.seen]))
  | _ => cases hclass

-- Arithmetic has the type of its left operand at worst, so only that one has to have a type.
theorem binaryType (hclosed : table.Closed) (h : table.Whole type) (op : BinaryOp)
    (right : Option TypeId) : table.Whole (Lower.binaryType table op (some type) right) := by
  simp only [Lower.binaryType, Option.getD_some]
  split
  · exact ofBasic hclosed .Boolean
  · split
    · exact h
    · split
      · split
        · exact ofBasic hclosed _
        · exact h
      · exact h

end Whole

end TypeTable

end EffectLint
