import EffectLint.Proofs.Lowering.Points

/-!
Where nothing is said, nothing is wrong: a well-written expression that is lowered in silence
does not end in a wrong expression.
-/

namespace EffectLint

namespace Lower

variable {source : List Char} {state : LoweringState}

theorem StaysAt.right_of_silent {α : Type} {fine : Prop} {body : Lower α}
    {good right : Program → α → Prop}
    (h : StaysAt fine body good right state.program state.scopes) (hfine : fine)
    (hsilent : (body state).2.Silent) : right (body state).2.program (body state).1 := by
  obtain ⟨made, answer, told, _, _, _, hright, hrun⟩ := h
  have hstate : body state = (answer, ⟨made, state.scopes, state.reporter.after told 0⟩) :=
    hrun state.reporter
  rw [hstate] at hsilent ⊢
  exact hright (LoweringState.told_eq_nil_of_silent hsilent) hfine

theorem unlessError_fine {span : Span} {operands : List NodeId} {build : Lower NodeId}
    (hoperands : Right state.program operands) :
    unlessError span operands build state = build state := by
  have hany : operands.any (state.program.arena.kind · == .Error) = false :=
    List.any_eq_false.mpr fun id hmem => by simpa using hoperands id hmem
  rw [unlessError_apply, hany]
  rfl

-- A name in the type of a cast may stand for something else behind its operand, so all that is
-- asked of the type is not to be wrong.
theorem make_fine (hsound : state.Sound) {whole : Expr}
    (hwhole : (∀ span inner, whole ≠ .Paren span inner) ∧
      (∀ span name value, whole ≠ .Declare span name value) ∧ whole.isQuestion = false)
    (hwritten : whole.WellWritten) {target : TypeId} (htarget : state.program.types.Known target)
    (hcast : ∀ span written operand, whole = .Cast span written operand → target ≠ .error)
    {ids : List NodeId} (hids : HasNodes whole.parts state.program ids)
    (hparts : Right state.program ids)
    (hsilent : (make source whole target ids state).2.Silent) :
    (make source whole target ids state).2.program.arena.kind (make source whole target ids state).1 ≠
      .Error := by
  by_cases hassert : ∃ span condition message, whole = .Assert span condition message
  · obtain ⟨span, condition, message, rfl⟩ := hassert
    obtain ⟨lowered, rest, rfl⟩ := List.exists_cons_of_length_eq_add_one hids.1
    have hfine : Right state.program (lowered :: rest.head?.toList) := by
      intro id hmem
      apply hparts
      rcases List.mem_cons.mp hmem with rfl | hmem
      · exact List.mem_cons_self
      · exact List.mem_cons_of_mem _ (List.mem_of_mem_head? (Option.mem_toList.mp hmem))
    rw [make, assertNode, unlessError_fine hfine]
    cases condition.isFalseLiteral with
    | true => exact (kind_leaf (.refl _)).trans_ne (by simp)
    | false => exact (kind_leaf (.refl _)).trans_ne (by simp)
  · by_cases hwhole' : ∃ span written operand, whole = .Cast span written operand
    · obtain ⟨span, written, operand, rfl⟩ := hwhole'
      obtain ⟨id, rfl⟩ := List.length_eq_one_iff.mp hids.1
      rw [make, castNode, if_neg (hcast span written operand rfl), unlessError_fine hparts]
      exact (kind_leaf (.refl _)).trans_ne (by simp)
    have hcondition : RightCondition whole state.program ids := by
      cases whole with
      | Assert span condition message => exact absurd ⟨span, condition, message, rfl⟩ hassert
      | _ => exact trivial
    have hright : RightTarget state.scopes whole state.program target := by
      cases whole with
      | Cast span written operand => exact absurd ⟨span, written, operand, rfl⟩ hwhole'
      | _ => exact trivial
    obtain ⟨made, node, told, hone, hrun⟩ := make_makes hsound source hwhole htarget hids.1
    have hstate : make source whole target ids state =
        (⟨state.program.arena.size⟩, ⟨made.addNode node, state.scopes, state.reporter.after told 0⟩) :=
      hrun state.reporter
    rw [hstate] at hsilent ⊢
    obtain ⟨hmakes, _⟩ := hone.right (LoweringState.told_eq_nil_of_silent hsilent)
      ⟨hwritten, hright, hparts, hcondition⟩
    rw [Arena.kind_of_node? hone.node?]
    intro herror
    rw [herror] at hmakes
    exact hmakes

theorem expr_fine {whole : Expr} (hwritten : whole.AllWritten) (hsound : state.Sound)
    (hsilent : (expr source whole state).2.Silent) :
    (expr source whole state).2.program.arena.kind (expr source whole state).1 ≠ .Error := by
  induction whole using Expr.induction generalizing state with
  | step whole ih =>
      cases hquestion : whole.isQuestion with
      | true =>
          cases whole with
          | Compiles span operand =>
              have hexpr := expr_eq source (.Compiles span operand)
              dsimp only at hexpr
              rw [hexpr, bind_apply, kind_leaf (.refl _)]
              simp
          | _ => cases hquestion
      | false =>
          by_cases hplain : (∀ span inner, whole ≠ .Paren span inner) ∧
              ∀ span name value, whole ≠ .Declare span name value
          · obtain ⟨hafter, hparts, htarget, hids⟩ := @upTo_runs source state whole whole.parts hsound
            have hmake := @make_runs source state hsound whole hquestion
            rw [expr_apply hquestion] at hsilent ⊢
            have hquiet := hmake.after.silent hsilent
            refine make_fine hparts ⟨hplain.1, hplain.2, hquestion⟩ hwritten.here htarget ?_ hids ?_
              hsilent
            · rintro span written operand rfl
              have htype := @type_enters _ _ written _ (fun h : written.WellWritten => h) hsound
              have hbehind := @upTo_from source state (.Cast span written operand) [operand] hsound
              exact (htype.right_of_silent hwritten.here (hbehind.silent hquiet)).2
            · intro id hmem
              obtain ⟨front, part, back, hsplit, rfl⟩ := mem_mapM hmem
              have hmem : part ∈ whole.parts := by simp [hsplit]
              have hfront := (@upTo_runs source state whole front hsound).sound
              have hpart := expr_runs source part hfront
              have hbehind := @upTo_from_part source state _ _ _ _ hsound hsplit
              have hkind := ih part hmem (hwritten.part hmem) hfront (hbehind.silent hquiet)
              exact (hpart.answer.kind_eq hbehind.grows).trans_ne hkind
          · cases whole with
            | Paren span inner =>
                have hexpr := expr_eq source (.Paren span inner)
                dsimp only at hexpr
                rw [hexpr] at hsilent ⊢
                exact ih inner (by simp [Expr.parts]) (hwritten.part (by simp [Expr.parts])) hsound
                  hsilent
            | Declare span name value =>
                have hquiet := declared_silent hsound hsilent
                have hbehind := (@declared_runs source state hsound name value).2
                have hvalue := ih value (List.mem_singleton_self value)
                  (hwritten.part (List.mem_singleton_self value)) hsound (hbehind.silent hquiet)
                rw [expr_Declare_apply span hsound hvalue (binding?_of_declareVariable hquiet),
                  bind_apply]
                obtain ⟨construct, hroot, _⟩ := constructNode_shape (.refl _)
                rw [hroot]
                simp
            | _ => exact absurd ⟨by simp, by simp⟩ hplain

end Lower

end EffectLint
