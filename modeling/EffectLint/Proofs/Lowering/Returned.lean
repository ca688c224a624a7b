import EffectLint.Module
import EffectLint.Proofs.Lowering.Module

/-!
What is returned at the end of a module. Where its last function only returns a value, the point at
which the value is lowered can be computed.
-/

namespace EffectLint

open Lower

-- A function that only returns a value.
structure Returned where
  declared : FunctionTree
  inside : Span
  value : Expr

namespace Returned

def statement (returned : Returned) : Statement :=
  .Return returned.inside (some returned.value)

def last? (items : List Item) : Option Returned :=
  match items.getLast? with
  | some (.Function declared) =>
      match declared.body with
      | some ⟨_, [.Return inside (some value)]⟩ => some ⟨declared, inside, value⟩
      | _ => none
  | _ => none

theorem exists_of_last? {items : List Item} {returned : Returned} (h : last? items = some returned) :
    (∃ span, returned.declared.body = some ⟨span, [returned.statement]⟩) ∧
      items = items.dropLast ++ [.Function returned.declared] := by
  unfold last? at h
  split at h
  · next other hlast =>
      split at h
      · next hbody =>
          cases h
          exact ⟨⟨_, hbody⟩, (List.dropLast_append_getLast? _ hlast).symm⟩
      · cases h
  · cases h

-- What is read without a complaint, if its last function only returns a value.
def read (text : List Char) (fuel depth : Nat) : Option (List Item × Returned) :=
  match parse text fuel depth with
  | .ok parsed =>
      if parsed.diagnostics = #[] then (last? parsed.items).map (parsed.items, ·) else none
  | .error _ => none

theorem parse_of_read {text : List Char} {fuel depth : Nat} {found : List Item × Returned}
    (h : read text fuel depth = some found) :
    parse text fuel depth = .ok ⟨found.1, #[]⟩ ∧ last? found.1 = some found.2 := by
  unfold read at h
  split at h
  · next parsed hparse =>
      split at h
      · next hclean =>
          obtain ⟨returned, hreturned, rfl⟩ := Option.map_eq_some_iff.mp h
          rw [hparse, ← hclean]
          exact ⟨rfl, hreturned⟩
      · cases h
  · cases h

-- Where the value is lowered: behind all other functions, when the parameters of its own are entered.
def point (source : List Char) (items : List Item) (reporter : Reporter) (returned : Returned) :
    LoweringState :=
  (entering source items (outside source items (.start reporter)).1.dropLast returned.declared
    (.start reporter)).2

theorem functionsAndGlobals_last (source : List Char) (front : List Item) (declared : FunctionTree)
    (state : LoweringState) : ∃ before function,
      (functionsAndGlobals source (front ++ [.Function declared]) state).1 =
        before ++ [(function, declared)] := by
  induction front generalizing state with
  | nil => exact ⟨[], _, rfl⟩
  | cons first rest ih =>
      obtain ⟨before, function, h⟩ := ih (functionOrGlobal source first state).2
      refine ⟨(functionOrGlobal source first state).1 ++ before, function, ?_⟩
      rw [List.cons_append, functionsAndGlobals, bind_apply, bind_apply, pure_apply, h,
        List.append_assoc]

theorem lowersAt {source : List Char} {items : List Item} {returned : Returned}
    (h : last? items = some returned) (reporter : Reporter) :
    LowersAt source items reporter returned.value (returned.point source items reporter) := by
  obtain ⟨⟨span, hbody⟩, hitems⟩ := exists_of_last? h
  have hlast : ∃ before function, (outside source items (.start reporter)).1 =
      before ++ [(function, returned.declared)] := by
    rw [hitems]
    exact functionsAndGlobals_last source items.dropLast returned.declared _
  obtain ⟨before, function, hlast⟩ := hlast
  have hdrop : (outside source items (.start reporter)).1.dropLast = before := by
    rw [hlast, List.dropLast_concat]
  rw [point, hdrop]
  exact ⟨before, function, returned.declared, [], _, hlast, hbody, .Return .Here⟩

end Returned

-- What is returned by the only body of a program, where it does nothing else.
def Program.returned? (program : Program) : Option NodeId :=
  match program.bodies.toList with
  | [⟨_, some [.Return (some id)]⟩] => some id
  | _ => none

theorem Program.reaches_of_returned? {program : Program} {id : NodeId}
    (h : program.returned? = some id) : program.Reaches id := by
  unfold returned? at h
  split at h
  · next function other hbodies =>
      obtain rfl := Option.some.inj h
      have hmem : (⟨function, some [.Return (some other)]⟩ : FunctionBody) ∈ program.bodies := by
        rw [← Array.mem_toList_iff, hbodies]
        exact List.mem_singleton_self _
      exact ⟨_, hmem, _, rfl, _, List.mem_singleton_self _, _, .Return, .refl⟩
  · cases h

namespace Returned

-- What is read and lowered in silence, if a value returned by its last function is all of it.
def lowered (source : List Char) (fuel depth : Nat) (mode : WarningMode) :
    Option (List Item × Returned) :=
  (read source fuel depth).filter fun found =>
    let after := lower source found.1 (.start mode #[])
    after.reporter.diagnostics = #[] ∧ after.program.returned? =
      some (expr source found.2.value (found.2.point source found.1 (.start mode #[]))).1

theorem lower_of_lowered {source : List Char} {fuel depth : Nat} {mode : WarningMode}
    {items : List Item} {returned : Returned}
    (h : lowered source fuel depth mode = some (items, returned)) :
    parse source fuel depth = .ok ⟨items, #[]⟩ ∧
      (lower source items (.start mode #[])).reporter.diagnostics = #[] ∧
      LowersAt source items (.start mode #[]) returned.value
        (returned.point source items (.start mode #[])) ∧
      (lower source items (.start mode #[])).program.Reaches
        (expr source returned.value (returned.point source items (.start mode #[]))).1 := by
  obtain ⟨hread, hholds⟩ := Option.filter_eq_some_iff.mp h
  obtain ⟨hparse, hlast⟩ := parse_of_read hread
  obtain ⟨hsilent, hreturned⟩ := of_decide_eq_true hholds
  exact ⟨hparse, hsilent, lowersAt hlast _, Program.reaches_of_returned? hreturned⟩

end Returned

end EffectLint
