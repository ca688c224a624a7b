/-!
Values numbered by first insertion. A value that is inserted again keeps its number, so no two
numbers stand for the same value.
-/

namespace EffectLint

structure Numbering (α : Type) where
  values : Array α
  distinct : values.toList.Nodup

namespace Numbering

variable {α : Type}

def empty : Numbering α :=
  ⟨#[], List.nodup_nil⟩

def size (numbering : Numbering α) : Nat :=
  numbering.values.size

def get? (numbering : Numbering α) (number : Nat) : Option α :=
  numbering.values[number]?

variable [DecidableEq α]

-- The number below `bound` that stands for a value, searched from the newest to the oldest.
def findBelow (values : Array α) (value : α) : Nat → Option Nat
  | 0 => none
  | bound + 1 => if values[bound]? = some value then some bound else findBelow values value bound

def find? (numbering : Numbering α) (value : α) : Option Nat :=
  findBelow numbering.values value numbering.size

theorem findBelow_eq_none_iff {values : Array α} {value : α} {bound : Nat} :
    findBelow values value bound = none ↔ ∀ number < bound, values[number]? ≠ some value := by
  induction bound with
  | zero => simp [findBelow]
  | succ bound ih =>
      unfold findBelow
      by_cases hfound : values[bound]? = some value
      · simp only [hfound, if_true, reduceCtorEq, false_iff]
        intro h
        exact h bound (by omega) hfound
      · rw [if_neg hfound, ih]
        constructor
        · intro h number hlt
          by_cases heq : number = bound
          · exact heq ▸ hfound
          · exact h number (by omega)
        · intro h number hlt
          exact h number (by omega)

theorem get?_of_findBelow {values : Array α} {value : α} {bound number : Nat}
    (h : findBelow values value bound = some number) : values[number]? = some value := by
  induction bound with
  | zero => simp [findBelow] at h
  | succ bound ih =>
      unfold findBelow at h
      split at h
      · next hfound =>
        cases h
        exact hfound
      · exact ih h

theorem find?_eq_none_iff {numbering : Numbering α} {value : α} :
    numbering.find? value = none ↔ value ∉ numbering.values := by
  rw [find?, findBelow_eq_none_iff, Array.mem_iff_getElem?]
  constructor
  · rintro h ⟨number, hnumber⟩
    have hlt : number < numbering.size := (Array.getElem?_eq_some_iff.mp hnumber).1
    exact h number hlt hnumber
  · intro h number _ hnumber
    exact h ⟨number, hnumber⟩

omit [DecidableEq α] in
theorem nodup_push {values : Array α} {value : α} (hdistinct : values.toList.Nodup)
    (hfresh : value ∉ values) : (values.push value).toList.Nodup := by
  rw [Array.toList_push, List.nodup_append]
  refine ⟨hdistinct, List.nodup_cons.mpr ⟨List.not_mem_nil, List.nodup_nil⟩, ?_⟩
  intro old hold new hnew heq
  rw [List.mem_singleton] at hnew
  exact hfresh (Array.mem_def.mpr (hnew ▸ heq ▸ hold))

-- The number of a value, which is the next free one if the value is new.
def insert (numbering : Numbering α) (value : α) : Nat × Numbering α :=
  match h : numbering.find? value with
  | some number => (number, numbering)
  | none =>
      (numbering.size,
        ⟨numbering.values.push value,
          nodup_push numbering.distinct (find?_eq_none_iff.mp h)⟩)

theorem get?_of_find? {numbering : Numbering α} {value : α} {number : Nat}
    (h : numbering.find? value = some number) : numbering.get? number = some value :=
  get?_of_findBelow h

theorem find?_of_get? {numbering : Numbering α} {value : α} {number : Nat}
    (h : numbering.get? number = some value) : numbering.find? value = some number := by
  cases hfind : numbering.find? value with
  | none =>
      exact absurd (Array.mem_iff_getElem?.mpr ⟨number, h⟩) (find?_eq_none_iff.mp hfind)
  | some other =>
      have hother := get?_of_find? hfind
      obtain ⟨hlt, hvalue⟩ := Array.getElem?_eq_some_iff.mp h
      obtain ⟨holt, hovalue⟩ := Array.getElem?_eq_some_iff.mp hother
      have hne := List.pairwise_iff_getElem.mp numbering.distinct
      simp only [Array.length_toList, Array.getElem_toList] at hne
      rcases Nat.lt_trichotomy other number with hlt' | rfl | hlt'
      · exact absurd (hovalue.trans hvalue.symm) (hne other number holt hlt hlt')
      · rfl
      · exact absurd (hvalue.trans hovalue.symm) (hne number other hlt holt hlt')

end Numbering

end EffectLint
