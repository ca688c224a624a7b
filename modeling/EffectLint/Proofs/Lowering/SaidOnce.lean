import EffectLint.Proofs.Lowering.Stages
import EffectLint.Proofs.Lowering.Verdict

/-!
What is said of expressions and statements. One mistake is reported once: of a wrong operand nothing
is said that was not said when the operand was made, and operands stand apart from each other.
-/

namespace EffectLint

namespace Lower

-- The node that is made of what stands between two offsets, and what is said meanwhile. A node that
-- is right starts there as well, and then no mistake in an expression has been reported.
structure Spoken (again : List Span) (low high : Nat) (made : Program) (id : NodeId)
    (told : List Diagnostic) : Prop where
  stands : Told again low high told
  node : ∃ node, made.arena.node? id = some node ∧ (node.kind ≠ .Error →
    (low ≤ node.span.start ∧ node.span.start < high) ∧ ∀ diagnostic ∈ told, diagnostic.Mild)

-- The same for the parts of an expression.
structure SpokenParts (again : List Span) (parts : List Expr) (low high : Nat) (made : Program)
    (ids : List NodeId) (told : List Diagnostic) : Prop where
  length : ids.length = parts.length
  stands : Told again low high told
  nodes : ∀ id ∈ ids, ∃ node, made.arena.node? id = some node ∧
    (node.kind ≠ .Error → low ≤ node.span.start ∧ node.span.start < high)
  mild : Right made ids → ∀ diagnostic ∈ told, diagnostic.Mild

section

variable {again : List Span} {program made : Program} {scopes : Scopes} {low middle high : Nat}
  {parts : List Expr} {ids : List NodeId} {told : List Diagnostic}

-- Nodes that were right before more was made are right behind it, and the other way round.
theorem SpokenParts.right_iff {large : Program} (h : SpokenParts again parts low high made ids told)
    (hgrows : large.Extends made) : Right large ids ↔ Right made ids := by
  have hkind : ∀ id ∈ ids, large.arena.kind id = made.arena.kind id := by
    intro id hmem
    obtain ⟨node, hnode, -⟩ := h.nodes id hmem
    obtain ⟨hlarge, hsmall⟩ := hgrows.node_eq hnode
    rw [Arena.kind, Arena.kind, hlarge, hsmall]
  exact forall₂_congr fun id hmem => by rw [hkind id hmem]

theorem SpokenParts.spans (h : SpokenParts again parts low high made ids told) (hright : Right made ids) :
    ∀ id ∈ ids, low ≤ (made.arena.node id).span.start ∧ (made.arena.node id).span.start < high := by
  intro id hmem
  obtain ⟨node, hnode, hspan⟩ := h.nodes id hmem
  rw [Arena.node_of_node? hnode]
  refine hspan fun herror => hright id hmem ?_
  rw [Arena.kind_of_node? hnode, herror]

theorem parts_tell (source : List Char) (hlaid : InOrder Expr.Laid parts low high)
    (hparts : ∀ part ∈ parts, ∀ low high, part.Laid low high →
      Says (expr source part) (Spoken again low high)) :
    Says (parts.mapM (expr source)) (SpokenParts again parts low high) := by
  induction hlaid with
  | nil hle =>
      rw [List.mapM_nil]
      exact fun _ _ => .pure ⟨rfl, .nil hle, nofun, fun _ => nofun⟩
  | @cons first rest low start stop high hlow hstart hfirst hrest ih =>
      intro program scopes
      rw [List.mapM_cons]
      refine (hparts first List.mem_cons_self start stop hfirst program scopes).bind
        fun id made around told _ hid => ?_
      refine (ih (fun part hmem => hparts part (List.mem_cons_of_mem _ hmem)) made around).bind
        fun ids made' around told' hgrows hids => .pure ?_
      obtain ⟨node, hnode, hright⟩ := hid.node
      have hnode' := hgrows.nodes _ _ hnode
      have hstop := hrest.le
      rw [List.append_nil]
      refine ⟨by simp [hids.length],
        (hid.stands.append (Nat.le_refl _) hids.stands).mono hlow (Nat.le_refl _), ?_, ?_⟩
      · refine List.forall_mem_cons.mpr ⟨⟨node, hnode', fun hfine => ?_⟩, fun one hmem => ?_⟩
        · have := (hright hfine).1
          omega
        · obtain ⟨other, hother, hspan⟩ := hids.nodes one hmem
          exact ⟨other, hother, fun hfine => ⟨by have := hspan hfine; omega, (hspan hfine).2⟩⟩
      · intro hall
        have hfine : node.kind ≠ .Error := by
          have hkind := hall id List.mem_cons_self
          rwa [Arena.kind_of_node? hnode'] at hkind
        refine List.forall_mem_append.mpr ⟨(hright hfine).2, hids.mild fun one hmem => ?_⟩
        exact hall one (List.mem_cons_of_mem _ hmem)

-- What the maker of a node says comes on top of what was said of its operands, and is no repetition.
theorem Judged.spoken {fine : Prop} {span : Span} {places : List Span} {id : NodeId}
    {front back : List Diagnostic} (h : Judged fine span places made id back)
    (hfront : Told again low high front) (hmild : fine → ∀ diagnostic ∈ front, diagnostic.Mild)
    (hspan : low ≤ span.start ∧ span.start < high)
    (hplaces : fine → ∀ place ∈ places, low ≤ place.start ∧ place.start < high) :
    Spoken again low high made id (front ++ back) := by
  obtain ⟨node, hnode, hverdict⟩ := h
  cases hverdict with
  | Wrong herror =>
      rw [List.append_nil]
      exact ⟨hfront, node, hnode, fun hright => absurd herror hright⟩
  | Whole hfine hwhole =>
      rw [List.append_nil]
      exact ⟨hfront, node, hnode, fun _ => ⟨by rwa [hwhole], hmild hfine⟩⟩
  | @Rejected diagnostic hfine herror hloud hplace =>
      have hstands : diagnostic.Stands low high := by
        rw [Diagnostic.Stands, if_neg fun hkind => hloud (.inl hkind)]
        exact hplaces hfine _ hplace
      refine ⟨hfront.append_apart (.one hfront.le hstands) fun one hone other hother => ?_,
        node, hnode, fun hright => absurd herror hright⟩
      obtain rfl := List.mem_singleton.mp hother
      intro hkind
      have hmild := hmild hfine one hone
      rw [Diagnostic.Mild, hkind] at hmild
      exact absurd hmild hloud

variable (again) in
theorem prepare_tells {whole : Expr} (howns : whole.Owns low high) :
    Says (prepare whole) fun _ _ told =>
      Told again low high told ∧ ∀ diagnostic ∈ told, diagnostic.kind = .UnknownType := by
  have hnone : Told again low high [] ∧
      ∀ diagnostic ∈ ([] : List Diagnostic), diagnostic.kind = .UnknownType :=
    ⟨.nil howns.le, List.forall_mem_nil _⟩
  cases whole with
  | Cast span written operand =>
      exact (type_tells written).imp fun _ _ _ hunknown => ⟨hunknown.told howns, hunknown.kind⟩
  | _ => exact fun _ _ => .pure hnone

theorem question_tells (source : List Char) {whole : Expr} (hquestion : whole.isQuestion = true)
    (hspan : low ≤ whole.span.start ∧ whole.span.start < high)
    (hlaid : InOrder Expr.Laid whole.parts middle high)
    (hparts : ∀ part ∈ whole.parts, ∀ low high, part.Laid low high →
      Says (expr source part) (Spoken again low high)) :
    Says (expr source whole) (Spoken again low high) := by
  intro program scopes
  cases whole with
  | Compiles span operand =>
      rw [expr_eq]
      obtain ⟨start, stop, -, -, -, hoperand⟩ := hlaid.of_mem (List.mem_singleton_self operand)
      have haccepts : Mute (accepts (expr source operand)) :=
        (hparts operand (List.mem_singleton_self operand) start stop hoperand).accepts
      refine haccepts.bind fun compiles made around _ => ?_
      have hleaf : JudgesAt True span [] (leaf (.Boolean compiles) .bool span) made around :=
        .leaf trivial
      refine SaysAt.imp hleaf fun made id told hjudged => ?_
      exact hjudged.spoken (.nil (by omega)) (fun _ => nofun) hspan fun _ => nofun
  | _ => cases hquestion

-- The operands have been made, and `front` and `back` have been said before.
theorem make_tells (source : List Char) {whole : Expr}
    (hspan : low ≤ whole.span.start ∧ whole.span.start < high) (howns : whole.Owns low middle)
    (target : TypeId) {front back : List Diagnostic}
    (hfront : Told again low middle front ∧ ∀ diagnostic ∈ front, diagnostic.kind = .UnknownType)
    (hids : SpokenParts again whole.parts middle high program ids back) :
    SaysAt (make source whole target ids)
      (fun made id told => Spoken again low high made id (front ++ back ++ told)) program scopes := by
  have hboth : Told again low high (front ++ back) :=
    hfront.1.append (Nat.le_refl _) hids.stands
  have hmild : Right program ids → ∀ diagnostic ∈ front ++ back, diagnostic.Mild :=
    fun hright => List.forall_mem_append.mpr
      ⟨fun diagnostic hmem => .inr (hfront.2 diagnostic hmem), hids.mild hright⟩
  have hle := howns.le
  have hlength := hids.length
  cases whole with
  | Paren span inner =>
      obtain ⟨id, rfl⟩ := List.length_eq_one_iff.mp hlength
      obtain ⟨node, hnode, hright⟩ := hids.nodes id (List.mem_singleton_self id)
      refine .pure ?_
      rw [List.append_nil]
      refine ⟨hboth, node, hnode, fun hfine => ⟨by have := hright hfine; omega, hmild ?_⟩⟩
      refine List.forall_mem_singleton.mpr ?_
      rwa [Arena.kind_of_node? hnode]
  | New span name =>
      obtain rfl := List.eq_nil_of_length_eq_zero hlength
      have hhigh := hids.stands.le
      refine SaysAt.imp (newNode_judges span name) fun made id told hjudged => ?_
      refine hjudged.spoken hboth hmild hspan fun _ => List.forall_mem_singleton.mpr ?_
      exact ⟨howns.1, Nat.lt_of_lt_of_le howns.2 hhigh⟩
  | Declare span name value =>
      obtain ⟨value, rfl⟩ := List.length_eq_one_iff.mp hlength
      let type := (program.arena.type? value).getD .error
      have hdeclare : SaysAt (do
          let id ← declareVariable name type false
          declareNode id name span (some value))
          (fun made id told => Spoken again low high made id (front ++ back ++ told)) program
          scopes := by
        refine (declareVariable_tells name type false program scopes).bind
          fun id made around defined hgrows hdefined => ?_
        refine SaysAt.imp (declareNode_judges span id name (some value)) fun made' node told hjudged => ?_
        rw [← List.append_assoc]
        have hright : Right made [value] → Right program [value] := (hids.right_iff hgrows).mp
        refine hjudged.spoken ?_ (fun hfine => List.forall_mem_append.mpr
          ⟨hmild (hright hfine), hdefined.mild⟩) hspan fun _ => nofun
        -- the name stands before the value, which is known first
        have hnamed : Told again low middle (front ++ defined) :=
          hdefined.behind hfront.1 hfront.2 howns.1 (Nat.le_refl _) howns.2
        refine (hnamed.append (Nat.le_refl _) hids.stands).perm ?_
        rw [List.append_assoc, List.append_assoc]
        exact List.perm_append_comm.append_left front
      exact hdeclare
  | _ =>
      refine SaysAt.imp (make_judges source rfl target hlength) ?_
      intro made id told hjudged
      refine hjudged.spoken hboth hmild hspan fun hright => List.forall_mem_cons.mpr ⟨hspan, ?_⟩
      intro place hplace
      obtain ⟨id, hmem, rfl⟩ := List.mem_map.mp hplace
      have := hids.spans hright id hmem
      omega

-- What is said of an expression is said between the offsets where it stands.
theorem expr_tells (source : List Char) {whole : Expr} (hlaid : whole.Laid low high) :
    Says (expr source whole) (Spoken again low high) := by
  induction whole using Expr.induction generalizing low high with
  | step whole ih =>
      intro program scopes
      cases hlaid with
      | @Error span _ _ hle =>
          rw [expr_eq]
          have herror : JudgesAt False span [] (errorNode span) program scopes := .adds (.Wrong rfl)
          refine SaysAt.imp herror ?_
          rintro made id told ⟨node, hnode, hverdict⟩
          cases hverdict with
          | Wrong hkind => exact ⟨.nil hle, node, hnode, fun hright => absurd hkind hright⟩
          | Whole hfine | Rejected hfine => exact hfine.elim
      | @Whole _ _ middle _ hstart hstarts howns hparts =>
          have hparts' : ∀ part ∈ whole.parts, ∀ low high, part.Laid low high →
              Says (expr source part) (Spoken again low high) :=
            fun part hmem low high hpart => ih part hmem hpart
          by_cases hquestion : whole.isQuestion = true
          · exact question_tells source hquestion ⟨hstart, hstarts⟩ hparts hparts' program scopes
          · rw [expr_eq_parts source (Bool.eq_false_iff.mpr hquestion)]
            refine (prepare_tells again howns program scopes).bind
              fun target made around front _ hfront => ?_
            refine (parts_tell source hparts hparts' made around).bind
              fun ids made around back _ hids => ?_
            refine (make_tells source ⟨hstart, hstarts⟩ howns target hfront hids).imp ?_
            intro _ _ told hspoken
            rwa [← List.append_assoc]

end

-- Between two offsets, whatever is answered.
abbrev SaysWithin (again : List Span) (low high : Nat) {α : Type} (body : Lower α) : Prop :=
  Says body fun _ _ told => Told again low high told

section

variable {again : List Span} {low middle high : Nat} {α β : Type}

theorem SaysWithin.pure (hle : low ≤ high) (answer : α) :
    SaysWithin again low high (Pure.pure answer : Lower α) :=
  fun _ _ => .pure (.nil hle)

theorem SaysWithin.bind {first : Lower α} {next : α → Lower β}
    (hfirst : SaysWithin again low middle first)
    (hnext : ∀ answer, SaysWithin again middle high (next answer)) :
    SaysWithin again low high (first >>= next) := by
  intro program scopes
  refine (hfirst program scopes).bind fun answer made around told _ htold => ?_
  exact (hnext answer made around).imp fun _ _ _ htold' => htold.append (Nat.le_refl _) htold'

theorem SaysWithin.mono {low' high' : Nat} {body : Lower α} (h : SaysWithin again low high body)
    (hlow : low' ≤ low) (hhigh : high ≤ high') : SaysWithin again low' high' body :=
  h.imp fun _ _ _ htold => htold.mono hlow hhigh

theorem SaysWithin.inScope {body : Lower α} (h : SaysWithin again low high body) :
    SaysWithin again low high (inScope body) :=
  Says.inScope h

variable (source : List Char)

theorem expr_within {written : Expr} (hlaid : written.Laid low high) :
    SaysWithin again low high (expr source written) :=
  (expr_tells source hlaid).imp fun _ _ _ hspoken => hspoken.stands

theorem expr?_within {written : Option Expr} (hlaid : InOrder Expr.Laid written.toList low high) :
    SaysWithin again low high (expr? source written) := by
  cases written with
  | none => exact .pure hlaid.le none
  | some written =>
      obtain ⟨start, stop, hstart, -, hstop, hwritten⟩ := hlaid.of_mem (List.mem_singleton_self _)
      rw [expr?, map_eq_pure_bind]
      exact ((expr_within source hwritten).mono hstart hstop).bind fun id =>
        .pure (Nat.le_refl _) (some id)

theorem declareNode_mute (id : VariableId) (name : Name) (span : Span) (value : Option NodeId) :
    Mute (declareNode id name span value) := by
  intro program scopes
  refine SaysAt.imp (declareNode_judges span id name value) ?_
  rintro made id told ⟨node, hnode, hverdict⟩
  cases hverdict with
  | Wrong | Whole => rfl
  | Rejected _ _ _ hplace => cases hplace

-- The name is defined last, though it stands before the value.
theorem localVariable_within {declared : VariableTree} (hlaid : declared.Laid low high) :
    SaysWithin again low high (localVariable source declared) := by
  obtain ⟨typeEnd, nameEnd, hat⟩ := hlaid
  intro program scopes
  refine (type_tells declared.type program scopes).bind fun type made around front _ hfront => ?_
  have hvalue : SaysWithin again nameEnd high (expr? source declared.value) :=
    expr?_within source hat.value
  refine (hvalue made around).bind fun value made around back _ hback => ?_
  refine (declareVariable_tells declared.name type false made around).bind
    fun id made around defined _ hdefined => ?_
  refine (declareNode_mute id declared.name declared.span value made around).imp fun _ _ told hnone => ?_
  rw [hnone, List.append_nil]
  have hnamed : Told again low nameEnd (front ++ defined) :=
    hdefined.behind (hfront.told hat.type) hfront.kind hat.name (Nat.le_trans hat.typed hat.named)
      hat.named
  refine (hnamed.append (Nat.le_refl _) hback).perm ?_
  rw [List.append_assoc]
  exact List.perm_append_comm.append_left front

theorem statements_within {written : List Statement} (hlaid : InOrder Statement.Laid written low high)
    (hwritten : ∀ one ∈ written, ∀ low high, one.Laid low high →
      SaysWithin again low high (statement source one)) :
    SaysWithin again low high (statements source written) := by
  induction hlaid with
  | nil hle =>
      rw [statements]
      exact .pure hle []
  | @cons first rest low start stop high hlow hstart hfirst hrest ih =>
      rw [statements]
      have hone := hwritten first List.mem_cons_self start stop hfirst
      refine (hone.mono hlow (Nat.le_refl _)).bind fun one => ?_
      refine (ih fun other hmem => hwritten other (List.mem_cons_of_mem _ hmem)).bind fun all => ?_
      exact .pure (Nat.le_refl _) _

theorem branch_within {written : Statement} (hlaid : InOrder Statement.Laid [written] low high)
    (hwritten : ∀ low high, written.Laid low high → SaysWithin again low high (statement source written)) :
    SaysWithin again low high (inScope (statement source written)) := by
  obtain ⟨start, stop, hstart, -, hstop, hone⟩ := hlaid.of_mem (List.mem_singleton_self written)
  exact (hwritten start stop hone).inScope.mono hstart hstop

theorem first?_within {first : Option Statement}
    (hlaid : InOrder Statement.Laid first.toList low high)
    (hfirst : ∀ one ∈ first, ∀ low high, one.Laid low high →
      SaysWithin again low high (statement source one)) :
    SaysWithin again low high (first? source first) := by
  cases first with
  | none => exact .pure hlaid.le none
  | some one =>
      obtain ⟨start, stop, hstart, -, hstop, hone⟩ := hlaid.of_mem (List.mem_singleton_self one)
      exact (hfirst one rfl start stop hone).mono hstart hstop

-- Statements are lowered in source order.
theorem statement_within {written : Statement} (hlaid : written.Laid low high) :
    SaysWithin again low high (statement source written) := by
  induction written generalizing low high with
  | Evaluate value =>
      cases hlaid with
      | Evaluate hvalue =>
          rw [statement]
          exact (expr_within source hvalue).bind fun _ => .pure (Nat.le_refl _) _
  | Local declared =>
      cases hlaid with
      | Local hdeclared =>
          rw [statement]
          exact (localVariable_within source hdeclared).bind fun _ => .pure (Nat.le_refl _) _
  | Return span value =>
      cases hlaid with
      | Return hvalue =>
          rw [statement]
          exact (expr?_within source hvalue).bind fun _ => .pure (Nat.le_refl _) _
  | If condition yes no ihyes ihno =>
      cases hlaid with
      | If hcondition hrest =>
          rw [statement]
          refine (expr_within source hcondition).bind fun _ => ?_
          cases hrest with
          | cons hlow hstart hyes hno =>
              refine ((ihyes hyes).inScope.mono hlow (Nat.le_refl _)).bind fun _ => ?_
              cases no with
              | none => exact (SaysWithin.pure hno.le none).bind fun _ => .pure (Nat.le_refl _) _
              | some other =>
                  have hother := branch_within source hno fun low high hlaid => ihno other rfl hlaid
                  exact hother.bind fun _ => .pure (Nat.le_refl _) _
  | While condition body ih =>
      cases hlaid with
      | While hcondition hbody =>
          rw [statement]
          refine (expr_within source hcondition).bind fun _ => ?_
          exact (branch_within source hbody fun low high => ih).bind fun _ => .pure (Nat.le_refl _) _
  | For first condition step body ihfirst ihbody =>
      cases hlaid with
      | For hfirst hcondition hstep hbody =>
          rw [statement_For_eq]
          refine SaysWithin.inScope ?_
          refine (first?_within source hfirst fun one hmem low high => ihfirst one hmem).bind fun _ => ?_
          refine (expr?_within source hcondition).bind fun _ => ?_
          refine (expr?_within source hstep).bind fun _ => ?_
          exact (branch_within source hbody fun low high => ihbody).bind fun _ =>
            .pure (Nat.le_refl _) _
  | Block span written ih =>
      cases hlaid with
      | Block hwritten =>
          rw [statement]
          have hall : SaysWithin again low high (statements source written) :=
            statements_within source hwritten fun one hmem low high hone => ih one hmem hone
          exact hall.inScope.bind fun _ => .pure (Nat.le_refl _) _
  | Empty span =>
      cases hlaid with
      | Empty hle =>
          rw [statement]
          exact .pure hle none

end

end Lower

end EffectLint
