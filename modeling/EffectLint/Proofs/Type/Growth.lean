import EffectLint.Type.Text

/-!
Tables only grow: what a number stands for it stands for in every later table. A type is built
from older ones, so whatever follows a type down to its parts comes to the same in a later table.
-/

namespace EffectLint

namespace Numbering

variable {α : Type}

-- What a number stands for it stands for in the larger numbering too.
def Keeps (small large : Numbering α) : Prop :=
  ∀ number value, small.get? number = some value → large.get? number = some value

theorem Keeps.refl (numbering : Numbering α) : numbering.Keeps numbering :=
  fun _ _ h => h

theorem Keeps.trans {first second third : Numbering α} (h : first.Keeps second)
    (h' : second.Keeps third) : first.Keeps third :=
  fun number value hvalue => h' number value (h number value hvalue)

variable [DecidableEq α] {numbering : Numbering α} {value : α} {number : Nat}

theorem insert_of_get? (h : numbering.get? number = some value) :
    numbering.insert value = (number, numbering) := by
  have hfind := find?_of_get? h
  unfold insert
  split
  · next other hother =>
      rw [hfind] at hother
      rw [Option.some.inj hother]
  · next hnone =>
      rw [hfind] at hnone
      cases hnone

-- A value that is new gets the next free number, and all others keep theirs.
theorem insert_of_new (h : numbering.find? value = none) :
    (numbering.insert value).1 = numbering.size ∧
      (numbering.insert value).2.values = numbering.values.push value := by
  unfold insert
  split
  · next other hother =>
      rw [h] at hother
      cases hother
  · exact ⟨rfl, rfl⟩

theorem toList_insert (numbering : Numbering α) (value : α) :
    (numbering.insert value).2.values.toList =
      numbering.values.toList ++ if value ∈ numbering.values.toList then [] else [value] := by
  cases hfind : numbering.find? value with
  | some number =>
      have hget := get?_of_find? hfind
      have hmem : value ∈ numbering.values.toList :=
        Array.mem_def.mp (Array.mem_iff_getElem?.mpr ⟨number, hget⟩)
      rw [insert_of_get? hget, if_pos hmem, List.append_nil]
  | none =>
      have hmem : value ∉ numbering.values.toList :=
        fun hmem => find?_eq_none_iff.mp hfind (Array.mem_def.mpr hmem)
      rw [(insert_of_new hfind).2, if_neg hmem, Array.toList_push]

theorem get?_insert : (numbering.insert value).2.get? (numbering.insert value).1 = some value := by
  cases hfind : numbering.find? value with
  | some number =>
      have hget := get?_of_find? hfind
      rw [insert_of_get? hget]
      exact hget
  | none =>
      obtain ⟨hnumber, hvalues⟩ := insert_of_new hfind
      rw [get?, hvalues, hnumber, size, Array.getElem?_push_size]

theorem keeps_insert : numbering.Keeps (numbering.insert value).2 := by
  intro number old hold
  cases hfind : numbering.find? value with
  | some known =>
      rw [insert_of_get? (get?_of_find? hfind)]
      exact hold
  | none =>
      have hlt : number < numbering.values.size := (Array.getElem?_eq_some_iff.mp hold).1
      rw [get?, (insert_of_new hfind).2, Array.getElem?_push_lt hlt, ← Array.getElem?_eq_getElem hlt]
      exact hold

-- A number of the larger table is one of the smaller, or it is the new one.
theorem get?_of_insert {other : α} (h : (numbering.insert value).2.get? number = some other) :
    numbering.get? number = some other ∨ number = numbering.size ∧ other = value := by
  cases hfind : numbering.find? value with
  | some known =>
      rw [insert_of_get? (get?_of_find? hfind)] at h
      exact .inl h
  | none =>
      rw [get?, (insert_of_new hfind).2, Array.getElem?_push] at h
      split at h
      · next hsize => exact .inr ⟨hsize, (Option.some.inj h).symm⟩
      · exact .inl h

end Numbering

namespace NameTable

variable {names : NameTable} {name : String} {symbol : Symbol}

theorem find?_of_get? (h : names.get? symbol = some name) : names.find? name = some symbol := by
  rw [find?, Numbering.find?_of_get? h]
  rfl

theorem get?_of_find? (h : names.find? name = some symbol) : names.get? symbol = some name := by
  obtain ⟨number, hnumber, rfl⟩ := Option.map_eq_some_iff.mp h
  exact Numbering.get?_of_find? hnumber

theorem insert_of_get? (h : names.get? symbol = some name) : names.insert name = (symbol, names) := by
  rw [insert, Numbering.insert_of_get? h]

theorem eq_of_get? {other : Symbol} (h : names.get? symbol = some name)
    (hother : names.get? other = some name) : symbol = other :=
  Option.some.inj ((find?_of_get? h).symm.trans (find?_of_get? hother))

end NameTable

namespace TypeTable

variable {small large table : TypeTable} {type : TypeId} {shape : Shape}

def Known (table : TypeTable) (type : TypeId) : Prop :=
  ∃ shape, table.shape? type = some shape

theorem known_iff : table.Known type ↔ type.index < table.size := by
  constructor
  · rintro ⟨shape, hshape⟩
    exact (Array.getElem?_eq_some_iff.mp hshape).1
  · intro hlt
    exact ⟨_, Array.getElem?_eq_getElem hlt⟩

-- Every type is built from older ones, and the types that are known from the start are there.
structure Closed (table : TypeTable) : Prop where
  older : ∀ type shape, table.shape? type = some shape → ∀ part ∈ shape.parts,
    part.index < type.index
  builtins : start.shapes.Keeps table.shapes

theorem shape_eq (h : table.shape? type = some shape) : table.shape type = shape := by
  rw [TypeTable.shape, h, Option.getD_some]

theorem Known.keeps (hgrows : small.shapes.Keeps large.shapes) (h : small.Known type) :
    large.Known type :=
  h.imp fun shape hshape => hgrows _ shape hshape

theorem Known.shape_eq (hgrows : small.shapes.Keeps large.shapes) (h : small.Known type) :
    large.shape type = small.shape type := by
  obtain ⟨shape, hshape⟩ := h
  rw [TypeTable.shape_eq hshape, TypeTable.shape_eq (hgrows _ shape hshape)]

theorem Closed.part_known (hclosed : table.Closed) (h : table.shape? type = some shape)
    {part : TypeId} (hpart : part ∈ shape.parts) : table.Known part := by
  have hlt : type.index < table.size := known_iff.mp ⟨shape, h⟩
  exact known_iff.mpr (Nat.lt_trans (hclosed.older type shape h part hpart) hlt)

theorem Closed.builtin (hclosed : table.Closed) (h : start.shape? type = some shape) :
    table.shape? type = some shape :=
  hclosed.builtins _ shape h

theorem shape?_error : start.shape? .error = some .Error := by
  decide +kernel

theorem shape?_ofBasic (basic : BasicType) : start.shape? (.ofBasic basic) = some (.Basic basic) := by
  cases basic <;> decide +kernel

theorem Closed.known_error (hclosed : table.Closed) : table.Known .error :=
  ⟨_, hclosed.builtin shape?_error⟩

theorem shape?_null : start.shape? .null = some .Null := by
  decide +kernel

theorem Closed.known_null (hclosed : table.Closed) : table.Known .null :=
  ⟨_, hclosed.builtin shape?_null⟩

theorem Closed.known_ofBasic (hclosed : table.Closed) (basic : BasicType) :
    table.Known (.ofBasic basic) :=
  ⟨_, hclosed.builtin (shape?_ofBasic basic)⟩

theorem closed_start : start.Closed where
  older := by
    have hall : ∀ index < 10, ∀ shape ∈ start.shape? ⟨index⟩, shape.parts = [] := by
      decide +kernel
    intro type shape hshape part hpart
    have hlt : type.index < 10 := known_iff.mp ⟨shape, hshape⟩
    rw [hall type.index hlt shape hshape] at hpart
    cases hpart
  builtins := .refl _

theorem Closed.insert (hclosed : table.Closed) (hparts : ∀ part ∈ shape.parts, table.Known part) :
    (table.insert shape).2.Closed where
  older := by
    intro type other hother part hpart
    rcases Numbering.get?_of_insert hother with hold | ⟨hnew, rfl⟩
    · exact hclosed.older type other hold part hpart
    · rw [hnew]
      exact known_iff.mp (hparts part hpart)
  builtins := hclosed.builtins.trans Numbering.keeps_insert

theorem keeps_insert : table.shapes.Keeps (table.insert shape).2.shapes :=
  Numbering.keeps_insert

theorem shape?_insert : (table.insert shape).2.shape? (table.insert shape).1 = some shape :=
  Numbering.get?_insert

theorem insert_of_shape? (h : table.shape? type = some shape) :
    table.insert shape = (type, table) := by
  rw [TypeTable.insert, Numbering.insert_of_get? h]

theorem eq_of_shape? {other : TypeId} (h : table.shape? type = some shape)
    (hother : table.shape? other = some shape) : type = other :=
  congrArg Prod.fst ((insert_of_shape? h).symm.trans (insert_of_shape? hother))

-- Following aliases never leaves the table, and an older table suffices for it.
theorem Closed.resolveWithin (hclosed : small.Closed) (hgrows : small.shapes.Keeps large.shapes)
    (steps : Nat) {type : TypeId} (h : small.Known type) :
    small.Known (small.resolveWithin steps type) ∧
      large.resolveWithin steps type = small.resolveWithin steps type := by
  induction steps generalizing type with
  | zero => exact ⟨h, rfl⟩
  | succ steps ih =>
      simp only [TypeTable.resolveWithin]
      rw [h.shape_eq hgrows]
      obtain ⟨shape, hshape⟩ := h
      rw [TypeTable.shape_eq hshape]
      cases shape with
      | Alias name target =>
          exact ih (hclosed.part_known hshape List.mem_cons_self)
      | _ => exact ⟨⟨_, hshape⟩, rfl⟩

theorem Closed.resolve_known (hclosed : table.Closed) (h : table.Known type) :
    table.Known (table.resolve type) :=
  (hclosed.resolveWithin (.refl _) _ h).1

theorem Closed.resolve_eq (hclosed : small.Closed) (hgrows : small.shapes.Keeps large.shapes)
    (h : small.Known type) : large.resolve type = small.resolve type :=
  (hclosed.resolveWithin hgrows _ h).2

theorem Closed.resolvedShape_eq (hclosed : small.Closed)
    (hgrows : small.shapes.Keeps large.shapes) (h : small.Known type) :
    large.resolvedShape type = small.resolvedShape type := by
  rw [resolvedShape, hclosed.resolve_eq hgrows h, (hclosed.resolve_known h).shape_eq hgrows]
  rfl

theorem Closed.resolved_part (hclosed : table.Closed) (h : table.Known type) {part : TypeId}
    (hpart : part ∈ (table.resolvedShape type).parts) : table.Known part := by
  obtain ⟨shape, hshape⟩ := hclosed.resolve_known h
  rw [resolvedShape, TypeTable.shape_eq hshape] at hpart
  exact hclosed.part_known hshape hpart

theorem Closed.isClass_eq (hclosed : small.Closed) (hgrows : small.shapes.Keeps large.shapes)
    (h : small.Known type) : large.isClass type = small.isClass type := by
  rw [isClass, isClass, hclosed.resolvedShape_eq hgrows h]

theorem Closed.function?_eq (hclosed : small.Closed) (hgrows : small.shapes.Keeps large.shapes)
    (h : small.Known type) : large.function? type = small.function? type := by
  rw [function?, function?, hclosed.resolvedShape_eq hgrows h, hclosed.resolve_eq hgrows h]

theorem Closed.calleeFunction?_eq (hclosed : small.Closed)
    (hgrows : small.shapes.Keeps large.shapes) (h : small.Known type) :
    large.calleeFunction? type = small.calleeFunction? type := by
  rw [calleeFunction?, calleeFunction?, hclosed.resolvedShape_eq hgrows h]
  cases hshape : small.resolvedShape type with
  | Delegate function =>
      have hpart : function ∈ (small.resolvedShape type).parts := by
        rw [hshape]
        exact List.mem_cons_self
      exact hclosed.function?_eq hgrows (hclosed.resolved_part h hpart)
  | _ => exact hclosed.function?_eq hgrows h

theorem Closed.called?_eq (hclosed : small.Closed) (hgrows : small.shapes.Keeps large.shapes)
    (h : small.Known type) : large.called? type = small.called? type := by
  rw [called?, called?, hclosed.calleeFunction?_eq hgrows h, hclosed.resolvedShape_eq hgrows h]
  cases small.calleeFunction? type with
  | some function => rfl
  | none =>
      cases hshape : small.resolvedShape type with
      | Pointer target =>
          have hpart : target ∈ (small.resolvedShape type).parts := by
            rw [hshape]
            exact List.mem_cons_self
          exact hclosed.function?_eq hgrows (hclosed.resolved_part h hpart)
      | _ => rfl

end TypeTable

end EffectLint
