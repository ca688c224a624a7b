import EffectLint.Proofs.Lowering.Steps
import Mathlib.Data.List.Nodup

/-!
The stack of scopes while expressions and statements are lowered. Every scope that is opened is
closed again, so only the innermost scope changes, and it only gains names that it did not have.
-/

namespace EffectLint

namespace Scopes

-- All open scopes, innermost first.
def stack (scopes : Scopes) : List Scope :=
  scopes.inner ++ [scopes.module]

-- The scopes under the innermost one.
def below (scopes : Scopes) : List Scope :=
  scopes.stack.tail

theorem stack_eq (scopes : Scopes) : scopes.stack = scopes.innermost :: scopes.below := by
  obtain ⟨inner, module⟩ := scopes
  cases inner <;> rfl

theorem depth_eq (scopes : Scopes) : scopes.depth = scopes.below.length + 1 := by
  rw [below, List.length_tail, stack, List.length_append, List.length_singleton, depth]
  omega

theorem eq_of_stack {first second : Scopes} (h : first.stack = second.stack) : first = second := by
  obtain ⟨inner, module⟩ := first
  obtain ⟨inner', module'⟩ := second
  obtain ⟨rfl, hmodule⟩ := List.append_inj' (show inner ++ [module] = inner' ++ [module'] from h) rfl
  cases hmodule
  rfl

theorem stack_define (scopes : Scopes) (name : Symbol) (binding : Binding) :
    (scopes.define name binding).stack = ((name, binding) :: scopes.innermost) :: scopes.below := by
  obtain ⟨inner, module⟩ := scopes
  cases inner <;> rfl

theorem below_define (scopes : Scopes) (name : Symbol) (binding : Binding) :
    (scopes.define name binding).below = scopes.below := by
  rw [below, stack_define, List.tail_cons]

-- The first scope that knows a name decides.
theorem lookup_eq (scopes : Scopes) (name : Symbol) :
    scopes.lookup name = scopes.stack.findSome? (·.lookup name) := by
  rw [stack, List.findSome?_append, lookup, List.findSome?_singleton]

-- The scope that was opened last is closed.
theorem pop_eq_of_below {later earlier : Scopes} (h : later.below = earlier.stack) :
    later.pop = earlier := by
  obtain ⟨inner, module⟩ := later
  cases inner with
  | nil =>
      rw [stack_eq] at h
      cases h
  | cons scope outer => exact eq_of_stack h

-- What becomes of the scopes when names are only added: nothing changes but the innermost scope,
-- and the names added there are new to it.
structure AddsTo (later earlier : Scopes) : Prop where
  depth : later.depth = earlier.depth
  below : later.below = earlier.below
  innermost : ∃ added : Scope, later.innermost = added ++ earlier.innermost ∧
    (∀ entry ∈ added, earlier.here? entry.1 = none) ∧ (added.map Prod.fst).Nodup

namespace AddsTo

theorem refl (scopes : Scopes) : scopes.AddsTo scopes :=
  ⟨rfl, rfl, [], rfl, fun _ hmem => (List.not_mem_nil hmem).elim, List.nodup_nil⟩

theorem of_eq {later earlier : Scopes} (h : later = earlier) : later.AddsTo earlier :=
  h ▸ refl later

theorem trans {first second third : Scopes} (h : second.AddsTo first) (h' : third.AddsTo second) :
    third.AddsTo first := by
  obtain ⟨added, hadded, hnew, hdistinct⟩ := h.innermost
  obtain ⟨more, hmore, hnew', hdistinct'⟩ := h'.innermost
  -- what is added last is new to all that stands in the scope by then
  have hboth : ∀ entry ∈ more, added.lookup entry.1 = none ∧ first.here? entry.1 = none := by
    intro entry hmem
    have hnone := hnew' entry hmem
    rw [here?, hadded, List.lookup_append, Option.or_eq_none_iff] at hnone
    exact hnone
  refine ⟨h'.depth.trans h.depth, h'.below.trans h.below, more ++ added, ?_, ?_, ?_⟩
  · rw [hmore, hadded, List.append_assoc]
  · intro entry hmem
    rcases List.mem_append.mp hmem with hmem | hmem
    · exact (hboth entry hmem).2
    · exact hnew entry hmem
  · rw [List.map_append]
    refine hdistinct'.append hdistinct fun name hname hname' => ?_
    obtain ⟨entry, hmem, rfl⟩ := List.mem_map.mp hname
    obtain ⟨other, hother, heq⟩ := List.mem_map.mp hname'
    have hknown := List.lookup_eq_none_iff.mp (hboth entry hmem).1 other hother
    simp [heq] at hknown

theorem define {scopes : Scopes} {name : Symbol} (binding : Binding)
    (hnew : scopes.isDefinedHere name = false) : (scopes.define name binding).AddsTo scopes := by
  have hstack : (scopes.define name binding).innermost :: (scopes.define name binding).below =
      ((name, binding) :: scopes.innermost) :: scopes.below := by
    rw [← stack_eq, stack_define]
  obtain ⟨hinnermost, hbelow⟩ := List.cons.inj hstack
  refine ⟨by rw [depth_eq, depth_eq, hbelow], hbelow, [(name, binding)], hinnermost, ?_, ?_⟩
  · intro entry hmem
    obtain rfl := List.mem_singleton.mp hmem
    exact Option.isNone_iff_eq_none.mp (Option.isSome_eq_false_iff.mp hnew)
  · exact List.nodup_singleton name

-- A scope that was opened and only added to is closed again.
theorem pop_eq {later earlier : Scopes} (h : later.AddsTo earlier.push) : later.pop = earlier :=
  pop_eq_of_below h.below

end AddsTo

end Scopes

namespace Lower

-- A computation behind which names are known that were not, and nothing else has changed.
def AddsNames {α : Type} (body : Lower α) : Prop :=
  ∀ state, (body state).2.scopes.AddsTo state.scopes

namespace AddsNames

variable {α β : Type}

theorem of_eq {body : Lower α} (h : ∀ state, (body state).2.scopes = state.scopes) :
    AddsNames body :=
  fun state => .of_eq (h state)

theorem bind {first : Lower α} {next : α → Lower β} (hfirst : AddsNames first)
    (hnext : ∀ answer, AddsNames (next answer)) : AddsNames (first >>= next) :=
  fun state => (hfirst state).trans (hnext _ _)

theorem define (name : Name) (binding : Binding) : AddsNames (define name binding) := by
  intro state
  rw [define_apply]
  split
  · exact .refl _
  · next hnew => exact .define binding (Bool.eq_false_iff.mpr hnew)

theorem declareVariable (name : Name) (type : TypeId) (isGlobal : Bool) :
    AddsNames (declareVariable name type isGlobal) :=
  fun _ => define name _ _

theorem inScope {body : Lower α} (hbody : AddsNames body) (state : LoweringState) :
    (inScope body state).2.scopes = state.scopes :=
  (hbody (pushScope state).2).pop_eq

theorem accepts {body : Lower NodeId} (hbody : AddsNames body) (state : LoweringState) :
    (accepts body state).2.scopes = state.scopes :=
  hbody.inScope (startGag state).2

end AddsNames

theorem stepwise_addsNames : Stepwise (fun {_} body => AddsNames body) where
  pure _ := .of_eq fun _ => rfl
  bind := .bind
  read _ := .of_eq fun _ => rfl
  lookup _ := .of_eq fun _ => rfl
  report _ _ := .of_eq fun _ => rfl
  inScope hbody := .of_eq hbody.inScope
  symbol _ := .of_eq fun _ => rfl
  internType _ := .of_eq fun _ => rfl
  addNode _ := .of_eq fun _ => rfl
  addVariable _ := .of_eq fun _ => rfl
  define := .define

end Lower

end EffectLint
