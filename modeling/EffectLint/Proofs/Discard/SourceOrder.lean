import EffectLint.Module
import EffectLint.Proofs.Discard.Points
import EffectLint.Proofs.Grammar.CleanItem
import EffectLint.Proofs.Grammar.PlacedItem

/-!
The values that a function throws away against its text. They are listed in the order in which the
statements that throw them away are written, apart from the step of a loop, which is written before
the body and listed behind it. So the list is in source order exactly where no loop with a step
throws something away in its body.
-/

namespace EffectLint

-- What is thrown away is the node that was made of it on the way to the program.
def Thrown.Gives (source : List Char) (program : Program) (thrown : Thrown) (discard : Discard) : Prop :=
  ∃ state, program.Extends (thrown.lowered source state).2.program ∧
    discard = ⟨(thrown.lowered source state).1, thrown.site⟩

namespace Statement

mutual

-- Where a loop has a step, the step is all that a round of it throws away.
def StepsAlone : Statement → Prop
  | .Evaluate _ | .Local _ | .Return _ _ | .Empty _ => True
  | .If _ yes no =>
      yes.StepsAlone ∧
        match no with
        | some no => no.StepsAlone
        | none => True
  | .While _ body => body.StepsAlone
  | .For first _ step body =>
      (match first with
        | some first => first.StepsAlone
        | none => True) ∧ body.StepsAlone ∧ (step.isSome = true → body.thrown = [])
  | .Block _ statements => StepsAloneAll statements

def StepsAloneAll : List Statement → Prop
  | [] => True
  | first :: rest => first.StepsAlone ∧ StepsAloneAll rest

end

end Statement

def FunctionTree.StepsAlone (declared : FunctionTree) : Prop :=
  Statement.StepsAloneAll (declared.body.toList.flatMap Block.statements)

-- Offsets between two others that ascend exactly if something holds.
structure Ordered (low high : Nat) (offsets : List Nat) (alone : Prop) : Prop where
  le : low ≤ high
  bounded : ∀ offset ∈ offsets, low ≤ offset ∧ offset < high
  sorted : offsets.Pairwise (· < ·) ↔ alone

namespace Ordered

variable {low middle middle' high : Nat} {front back : List Nat} {alone alone' : Prop}

theorem nil (h : low ≤ high) : Ordered low high [] True :=
  ⟨h, nofun, iff_of_true .nil trivial⟩

theorem one {offset : Nat} (hlow : low ≤ offset) (hhigh : offset < high) :
    Ordered low high [offset] True :=
  ⟨by omega, by simpa using ⟨hlow, hhigh⟩, iff_of_true (List.pairwise_singleton _ _) trivial⟩

theorem mono {low' high' : Nat} (h : Ordered low high front alone) (hlow : low' ≤ low)
    (hhigh : high ≤ high') : Ordered low' high' front alone where
  le := by
    have := h.le
    omega
  bounded offset hmem := by
    have := h.bounded offset hmem
    omega
  sorted := h.sorted

theorem append (hfront : Ordered low middle front alone) (hmiddle : middle ≤ middle')
    (hback : Ordered middle' high back alone') : Ordered low high (front ++ back) (alone ∧ alone') where
  le := by
    have := hfront.le
    have := hback.le
    omega
  bounded offset hmem := by
    have hle := hfront.le
    have hle' := hback.le
    rcases List.mem_append.mp hmem with hmem | hmem
    · have := hfront.bounded offset hmem
      omega
    · have := hback.bounded offset hmem
      omega
  sorted := by
    rw [List.pairwise_append, hfront.sorted, hback.sorted, and_congr_right_iff]
    refine fun _ => and_iff_left fun one hone other hother => ?_
    have := (hfront.bounded one hone).2
    have := (hback.bounded other hother).1
    omega

-- What stands in front of others and is listed behind them is in order only if there are no others.
theorem behind {offset : Nat} (hlow : low ≤ offset) (hoffset : offset < middle)
    (hback : Ordered middle high back alone) :
    Ordered low high (back ++ [offset]) (alone ∧ back = []) where
  le := by
    have := hback.le
    omega
  bounded other hmem := by
    have hle := hback.le
    rcases List.mem_append.mp hmem with hmem | hmem
    · have := hback.bounded other hmem
      omega
    · obtain rfl := List.mem_singleton.mp hmem
      omega
  sorted := by
    rw [List.pairwise_append, hback.sorted, and_congr_right_iff]
    refine fun _ => ⟨fun ⟨_, hless⟩ => ?_, ?_⟩
    · refine List.eq_nil_iff_forall_not_mem.mpr fun other hmem => ?_
      have := hless other hmem offset List.mem_cons_self
      have := (hback.bounded other hmem).1
      omega
    · rintro rfl
      exact ⟨List.pairwise_singleton _ _, nofun⟩

end Ordered

namespace Statement

theorem ordered_all {written : List Statement} {low high : Nat}
    (hwritten : ∀ one ∈ written, one.AllWritten)
    (hordered : ∀ one ∈ written, one.AllWritten → ∀ low high, one.Laid low high →
      Ordered low high (one.thrown.map Thrown.start) one.StepsAlone)
    (h : InOrder Laid written low high) :
    Ordered low high ((thrownAll written).map Thrown.start) (StepsAloneAll written) := by
  induction h with
  | nil hle => exact .nil hle
  | cons hlow hstart hfirst _ ih =>
      obtain ⟨hone, hrest⟩ := List.forall_mem_cons.mp hwritten
      obtain ⟨hone', hrest'⟩ := List.forall_mem_cons.mp hordered
      rw [thrownAll, List.map_append]
      exact ((hone' hone _ _ hfirst).append (Nat.le_refl _) (ih hrest hrest')).mono hlow (Nat.le_refl _)

theorem stepsAlone_If (condition : Expr) (yes : Statement) (no : Option Statement) :
    StepsAlone (.If condition yes no) ↔ StepsAloneAll (yes :: no.toList) := by
  cases no <;> simp [StepsAlone, StepsAloneAll]

theorem stepsAlone_For (first : Option Statement) (condition step : Option Expr) (body : Statement) :
    StepsAlone (.For first condition step body) ↔
      StepsAloneAll first.toList ∧ body.StepsAlone ∧ (step.isSome = true → body.thrown = []) := by
  cases first <;> simp [StepsAlone, StepsAloneAll]

theorem ordered_For {first : Option Statement} {condition step : Option Expr} {body : Statement}
    {low high : Nat} (hwritten : (Statement.For first condition step body).AllWritten)
    (h : (Statement.For first condition step body).Laid low high)
    (hfirst : ∀ one ∈ first, one.AllWritten → ∀ low high, one.Laid low high →
      Ordered low high (one.thrown.map Thrown.start) one.StepsAlone)
    (hbody : body.AllWritten → ∀ low high, body.Laid low high →
      Ordered low high (body.thrown.map Thrown.start) body.StepsAlone) :
    Ordered low high ((thrown (.For first condition step body)).map Thrown.start)
      (StepsAlone (.For first condition step body)) := by
  cases hwritten with
  | For hfirstWritten _ hstepWritten hbodyWritten =>
  cases h with
  | For hfirstLaid hconditionLaid hstepLaid hbodyLaid =>
  rename_i begun asked stepped
  have hheader := ordered_all (fun one hmem => hfirstWritten one (Option.mem_toList.mp hmem))
    (fun one hmem => hfirst one (Option.mem_toList.mp hmem)) hfirstLaid
  obtain ⟨low', high', hlow, -, hhigh, hlaid⟩ := hbodyLaid.of_mem List.mem_cons_self
  have hround := (hbody hbodyWritten _ _ hlaid).mono hlow hhigh
  have hasked := hconditionLaid.le
  have hstepped := hstepLaid.le
  rw [thrown_For, stepsAlone_For, List.map_append]
  refine hheader.append hasked ?_
  cases step with
  | none => simpa using hround.mono hstepped (Nat.le_refl _)
  | some step =>
      obtain ⟨place, after, hplace, -, hafter, hstep⟩ := hstepLaid.of_mem List.mem_cons_self
      have hstart := hstep.start (Expr.AllWritten.not_error (hstepWritten step rfl))
      have hlast := hround.behind (show asked ≤ step.span.start by omega)
        (show step.span.start < stepped by omega)
      simpa [Thrown.start] using hlast

theorem ordered (written : Statement) (hwritten : written.AllWritten) (low high : Nat)
    (h : written.Laid low high) :
    Ordered low high (written.thrown.map Thrown.start) written.StepsAlone := by
  induction written generalizing low high with
  | Evaluate value =>
      cases hwritten with
      | Evaluate hvalue =>
      cases h with
      | Evaluate hlaid =>
      obtain ⟨hlow, hhigh⟩ := hlaid.start (Expr.AllWritten.not_error hvalue)
      exact .one hlow hhigh
  | Local declared =>
      cases h with
      | Local hlaid =>
      obtain ⟨_, _, hat⟩ := hlaid
      exact .one hat.start hat.starts
  | Return span value => exact .nil h.le
  | If condition yes no ihyes ihno =>
      cases hwritten with
      | If _ hyes hno =>
      cases h with
      | If hcondition hrest =>
      rw [thrown_If, stepsAlone_If]
      refine (ordered_all ?_ ?_ hrest).mono hcondition.le (Nat.le_refl _)
      · exact List.forall_mem_cons.mpr ⟨hyes, fun one hmem => hno one (Option.mem_toList.mp hmem)⟩
      · exact List.forall_mem_cons.mpr ⟨ihyes, fun one hmem => ihno one (Option.mem_toList.mp hmem)⟩
  | While condition body ih =>
      cases hwritten with
      | While _ hbody =>
      cases h with
      | While hcondition hrest =>
      obtain ⟨low', high', hlow, -, hhigh, hlaid⟩ := hrest.of_mem List.mem_cons_self
      exact (ih hbody _ _ hlaid).mono (Nat.le_trans hcondition.le hlow) hhigh
  | For first condition step body ihfirst ihbody => exact ordered_For hwritten h ihfirst ihbody
  | Block span written ih =>
      cases hwritten with
      | Block hwritten =>
      cases h with
      | Block hlaid => exact ordered_all hwritten ih hlaid
  | Empty span => exact .nil h.le

end Statement

variable {source : List Char} {later : Program}

-- What the body of a function throws away, where it is lowered.
def Lower.FunctionThrows (source : List Char) (later : Program) (declared : FunctionTree)
    (body : FunctionBody) : Prop :=
  List.Forall₂ (Thrown.Gives source later) declared.thrown body.discards

open Lower

theorem Point.gives {points : List Point} (h : ∀ point ∈ points, later.Extends (point.behind source)) :
    List.Forall₂ (Thrown.Gives source later) (points.filterMap (·.standing.thrown?))
      (points.filterMap (Point.discard? source)) := by
  induction points with
  | nil => exact .nil
  | cons first rest ih =>
      obtain ⟨hfirst, hrest⟩ := List.forall_mem_cons.mp h
      obtain ⟨standing, state⟩ := first
      cases standing with
      | Kept value => exact ih hrest
      | Thrown thrown => exact .cons ⟨state, hfirst, rfl⟩ (ih hrest)

theorem FunctionTree.thrown_eq (declared : FunctionTree) :
    declared.standing.filterMap Standing.thrown? = declared.thrown :=
  Statement.thrownAll_eq fun one _ => one.thrown_eq

theorem Lower.BodyTallied.throws {entry : FunctionTree × LoweringState} {body : FunctionBody}
    (h : BodyTallied source later entry body) : FunctionThrows source later entry.1 body := by
  have hgives := Point.gives h.reached
  rw [← h.discards_eq] at hgives
  rw [FunctionThrows, ← FunctionTree.thrown_eq, ← FunctionTree.standing_eq source entry.1 entry.2,
    List.filterMap_map]
  exact hgives

theorem FunctionTree.ordered {declared : FunctionTree} (hwritten : declared.AllWritten) {low high : Nat}
    (hlaid : declared.Laid low high) :
    (declared.thrown.map Thrown.start).Pairwise (· < ·) ↔ declared.StepsAlone := by
  obtain ⟨typeEnd, nameEnd, listEnd, hat⟩ := hlaid
  rw [FunctionTree.thrown, FunctionTree.StepsAlone]
  cases hbody : declared.body with
  | none => exact iff_of_true .nil trivial
  | some block =>
      have hordered := Statement.ordered_all (hwritten.2.2.2.2 block hbody)
        (fun one _ => one.ordered) (hat.body block hbody)
      simpa using hordered.sorted

-- The values that a function throws away are those that its statements throw away, one by one.
theorem lower_throws (source : List Char) (items : List Item) (reporter : Reporter) :
    List.Forall₂ (FunctionThrows source (lower source items reporter).program)
      (items.filterMap Item.function?) (lower source items reporter).program.bodies.toList := by
  rw [← lowerEntries_functions source items reporter, List.forall₂_map_left_iff]
  exact (lower_tallied source items reporter).imp fun _ _ => BodyTallied.throws

-- In the order in which they are listed, what throws the values of a function away starts further and
-- further behind in the source exactly where no loop with a step throws something away in its body.
theorem discards_in_source_order {source : List Char} {settings : Settings} {parsed : ParsedModule}
    (hread : ParsedModule.read source settings = .ok parsed) (hclean : parsed.diagnostics = #[]) :
    List.Forall₂ (fun declared body =>
        List.Forall₂ (Thrown.Gives source parsed.analyze.program) declared.thrown body.discards ∧
          ((declared.thrown.map Thrown.start).Pairwise (· < ·) ↔ declared.StepsAlone))
      (parsed.items.filterMap Item.function?) parsed.analyze.program.bodies.toList := by
  obtain ⟨hparse, rfl, -⟩ := ParsedModule.parse_of_read hread
  have hwritten := (clean_parse hparse (by rw [hclean]; rfl)).2.2
  have hlaid := parse_laid hparse
  have hthrows := lower_throws parsed.source parsed.items
    (.start parsed.settings.warnings parsed.diagnostics)
  have hordered : ∀ declared ∈ parsed.items.filterMap Item.function?,
      (declared.thrown.map Thrown.start).Pairwise (· < ·) ↔ declared.StepsAlone := by
    intro declared hmem
    obtain ⟨item, hitem, hfunction⟩ := List.mem_filterMap.mp hmem
    obtain ⟨low, high, -, -, -, hplace⟩ := hlaid.of_mem hitem
    cases item with
    | Function other =>
        obtain rfl := Option.some.inj hfunction
        exact FunctionTree.ordered (hwritten _ hitem) hplace
    | _ => cases hfunction
  exact ((List.forall₂_and_left _ _).mpr ⟨hordered, hthrows⟩).imp fun _ _ => And.symm

theorem discards_in_source_order_of_empty_round : ∃ parsed,
    ParsedModule.read "void f(int i) { for (;; i++) { } i; }".toList ⟨100, 10, .Off⟩ = .ok parsed ∧
      parsed.diagnostics = #[] ∧
      List.Forall₂ (fun declared body =>
          List.Forall₂ (Thrown.Gives "void f(int i) { for (;; i++) { } i; }".toList
              parsed.analyze.program) declared.thrown body.discards ∧
            ((declared.thrown.map Thrown.start).Pairwise (· < ·) ↔ declared.StepsAlone))
        (parsed.items.filterMap Item.function?) parsed.analyze.program.bodies.toList := by
  obtain ⟨parsed, hread, hclean⟩ := ParsedModule.exists_read (show (ParsedModule.read
    "void f(int i) { for (;; i++) { } i; }".toList ⟨100, 10, .Off⟩).toOption.map
      ParsedModule.diagnostics = some #[] by decide +kernel)
  exact ⟨parsed, hread, hclean, discards_in_source_order hread hclean⟩

-- The step stands at 24 and the body at 29, and the body is listed first.
theorem discards_not_in_source_order : ∃ parsed declared body,
    ParsedModule.read "void f(int i) { for (;; i++) i++; }".toList ⟨100, 10, .Off⟩ = .ok parsed ∧
      parsed.diagnostics = #[] ∧ parsed.items.filterMap Item.function? = [declared] ∧
      parsed.analyze.program.bodies.toList = [body] ∧
      List.Forall₂ (Thrown.Gives "void f(int i) { for (;; i++) i++; }".toList parsed.analyze.program)
        declared.thrown body.discards ∧
      ¬ (declared.thrown.map Thrown.start).Pairwise (· < ·) := by
  have hrun : (ParsedModule.read "void f(int i) { for (;; i++) i++; }".toList
      ⟨100, 10, .Off⟩).toOption.map (fun parsed => (parsed.diagnostics,
        (parsed.items.filterMap Item.function?).map (·.thrown.map Thrown.start))) =
        some (#[], [[29, 24]]) := by
    decide +kernel
  obtain ⟨parsed, hread, hseen⟩ := ParsedModule.exists_read hrun
  obtain ⟨hclean, hstarts⟩ := Prod.mk.inj hseen
  obtain ⟨declared, hfunctions, hdeclared⟩ := List.map_eq_singleton_iff.mp hstarts
  obtain ⟨-, hsource, -⟩ := ParsedModule.parse_of_read hread
  have hthrows : List.Forall₂ (FunctionThrows parsed.source parsed.analyze.program)
      (parsed.items.filterMap Item.function?) parsed.analyze.program.bodies.toList :=
    lower_throws parsed.source parsed.items _
  rw [hfunctions, hsource] at hthrows
  obtain ⟨body, rest, hthrown, hrest, hbodies⟩ := List.forall₂_cons_left_iff.mp hthrows
  obtain rfl := List.forall₂_nil_left_iff.mp hrest
  refine ⟨parsed, declared, body, hread, hclean, hfunctions, hbodies, hthrown, ?_⟩
  rw [hdeclared]
  decide

end EffectLint
