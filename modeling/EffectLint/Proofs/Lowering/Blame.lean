import EffectLint.Proofs.Analysis.NoError
import EffectLint.Proofs.Lowering.RegularModule
import EffectLint.Proofs.Lowering.Roots
import EffectLint.Proofs.Type.Uses

/-!
Complaints about an operand, and the error type. An expression is an error where its operand is one,
but a name can have the error type and be none, and then it is complained of again. The error type
only comes in through names, casts and arithmetic on what has no type.
-/

namespace EffectLint

namespace Program

-- A node that the error type comes in with: a name or a cast that stands for it, or arithmetic whose
-- left operand has no type.
def BringsError (program : Program) (node : Node) : Prop :=
  match node.kind with
  | .Variable _ | .Function _ | .Declare _ _ | .Cast _ _ =>
      ∃ type ∈ node.type, ¬program.types.Whole type
  | .Binary op left _ => op.isComparison = false ∧ program.arena.type? left = none
  | _ => False

-- The operand that the type of a node is made of, where there is one. Arguments and indices, and what
-- is stored somewhere, have nothing to do with it.
def deciding? (program : Program) : NodeKind → Option NodeId
  | .Assign _ operand _ | .Step _ _ operand | .In _ operand | .Call operand _ _ | .Comma _ operand
  | .Deref operand | .AddressOf operand | .Index operand _ => some operand
  | .Unary op operand => if op = .Not then none else some operand
  | .Binary op left _ => if op.isComparison then none else some left
  | .Conditional _ yes no =>
      if program.arena.type? yes = some .null ∨ program.arena.type? yes = none then some no
      else some yes
  | _ => none

-- Down from a node, by the operands that the types are made of.
def Decides (program : Program) : NodeId → NodeId → Prop :=
  Relation.ReflTransGen fun parent child => program.deciding? (program.arena.kind parent) = some child

variable {program : Program}

theorem mem_operands_of_deciding {kind : NodeKind} {operand : NodeId}
    (h : program.deciding? kind = some operand) : operand ∈ kind.operands := by
  cases kind with
  | Unary | Binary =>
      simp only [deciding?, Option.ite_none_left_eq_some, Option.some.injEq] at h
      simp [NodeKind.operands, h.2]
  | Conditional =>
      simp only [deciding?] at h
      split at h <;> cases h <;> simp [NodeKind.operands]
  | _ => cases h <;> simp [NodeKind.operands]

-- What follows its rule has a whole type where the operand that decides it has, unless the error type
-- comes in.
theorem TypeRule.whole (hclosed : program.types.Closed) {kind : NodeKind} {type : Option TypeId}
    {span : Span} (h : program.TypeRule kind type) (herror : kind ≠ .Error)
    (hoperands : ∀ operand, program.deciding? kind = some operand →
      ∀ found ∈ program.arena.type? operand, program.types.Whole found)
    (hbrings : ¬program.BringsError ⟨kind, type, span⟩) :
    ∀ found ∈ type, program.types.Whole found := by
  have hmade : ∀ {made}, program.types.Whole made →
      ∀ found ∈ some made, program.types.Whole found := by
    intro made hwhole found hfound
    obtain rfl := Option.some.inj hfound
    exact hwhole
  have hbasic : ∀ basic, ∀ found ∈ some (TypeId.ofBasic basic), program.types.Whole found :=
    fun basic => hmade (.ofBasic hclosed basic)
  -- a name or a cast has the type that it stands for
  have hnamed : ∀ {named : TypeId}, (¬∃ found ∈ some named, ¬program.types.Whole found) →
      ∀ found ∈ some named, program.types.Whole found := by
    intro named hnone found hfound
    by_contra hnot
    exact hnone ⟨found, hfound, hnot⟩
  cases h with
  | @Assign store target value _ => exact hoperands target rfl
  | @Construct target value id _ => exact hoperands target rfl
  | @Step op fixity operand => exact hoperands operand rfl
  | Declare => exact hnamed hbrings
  | @In key container known index value pointer hfound hshape hpointer =>
      have hwhole := hoperands container rfl known hfound
      have hvalue : program.types.Whole value := hwhole.resolved_seen (by simp [hshape, Shape.seen])
      exact hmade (.intro hpointer (by simp) (by simpa [Shape.seen] using hvalue))
  | Remove => exact hbasic .Boolean
  | Assert => exact hbasic .Void
  | Halt => exact hbasic .Void
  | Delete => exact hbasic .Void
  | New hknown hclass => exact hmade (.of_isClass hclosed hknown hclass)
  | NewAnonymous hshape => exact hmade (.intro hshape (by simp) (by simp [Shape.seen]))
  | @Call callee arguments named known signature hfound hcalls _ _ =>
      exact hmade ((hoperands callee rfl known hfound).calls hcalls)
  | Cast => exact hnamed hbrings
  | Logical => exact hbasic .Boolean
  | @Conditional condition yes no =>
      split
      · next hno => exact hoperands no (if_pos hno)
      · next hyes => exact hoperands yes (if_neg hyes)
  | @Comma first second => exact hoperands second rfl
  | Variable => exact hnamed hbrings
  | Function => exact hnamed hbrings
  | Tuple hshape => exact hmade (.intro hshape (by simp) (by simp [Shape.seen]))
  | Error => exact absurd rfl herror
  | Module =>
      intro found hmem
      cases hmem
  | @Binary op left right =>
      cases hcomparison : op.isComparison with
      | true =>
          rw [Lower.binaryType, if_pos hcomparison]
          exact hbasic .Boolean
      | false =>
          cases htype : program.arena.type? left with
          | none => exact absurd ⟨hcomparison, htype⟩ hbrings
          | some known =>
              have hleft := hoperands left (if_neg (by simp [hcomparison])) known htype
              exact hmade (hleft.binaryType hclosed op _)
  | Not => exact hbasic .Boolean
  | @Unary op operand hop => exact hoperands operand (if_neg hop)
  | @Deref operand known target hfound hshape =>
      have hwhole := hoperands operand rfl known hfound
      exact hmade (hwhole.resolved_seen (by simp [hshape, Shape.seen]))
  | @AddressOf operand target pointer hfound hpointer =>
      have hwhole := hoperands operand rfl target hfound
      exact hmade (.intro hpointer (by simp) (by simpa [Shape.seen] using hwhole))
  | @Index base index known element hfound hholds =>
      exact hmade ((hoperands base rfl known hfound).holds hclosed hholds)
  | Integer =>
      split
      · exact hbasic .Integer
      · exact hbasic .Long
  | Boolean => exact hbasic .Boolean
  | Text => exact hbasic .Text
  | Null => exact hmade (.null hclosed)

-- A type that is decided by nodes that do not bring in the error type is not that type.
theorem whole_of_decides (hclosed : program.types.Closed) (wf : program.arena.WellFormed)
    (hfits : ∀ node ∈ program.arena.nodes, program.Fits node) {root : NodeId}
    (hroot : program.arena.kind root ≠ .Error)
    (hbelow : ∀ id, program.Decides root id → ¬program.BringsError (program.arena.node id)) :
    ∀ type ∈ program.arena.type? root, program.types.Whole type := by
  induction hindex : root.index using Nat.strong_induction_on generalizing root with
  | _ index ih =>
      cases hnode : program.arena.node? root with
      | none =>
          rw [Arena.type?, Arena.node, hnode]
          intro type hmem
          cases hmem
      | some node =>
          have hsame := Arena.node_of_node? hnode
          have hfit := hfits node (Array.mem_of_getElem? hnode)
          have hbrings := hbelow root .refl
          rw [hsame] at hbrings
          rw [Arena.kind, hsame] at hroot
          rw [Arena.type?, hsame]
          refine hfit.rule.whole hclosed hroot (fun operand hdecides => ?_) hbrings
          have hoperand := mem_operands_of_deciding hdecides
          have hkind : program.arena.kind root = node.kind := congrArg Node.kind hsame
          have hchild : operand ∈ program.arena.operands root := by
            rwa [Arena.operands, hkind]
          refine ih operand.index (hindex ▸ wf.operand_lt hchild) (hfit.operands operand hoperand)
            (fun id hid => hbelow id ?_) rfl
          exact .head (hkind ▸ hdecides) hid

end Program

open Lower

-- What is said of an operand is true of a node that is no error. That node does not have the error
-- type either, unless the error type comes in with one of the nodes that decide its type.
theorem error_type_not_blamed (source : List Char) (items : List Item) (reporter : Reporter) :
    ∃ told, (lower source items reporter).reporter.diagnostics = reporter.diagnostics ++ told ∧
      ∀ diagnostic ∈ told, diagnostic.kind ∈
          [.NotCallable, .CannotDereference, .NotIndexable, .NotAssociative] →
        ∃ subject, (lower source items reporter).program.Blames source subject diagnostic ∧
          ((∀ id, (lower source items reporter).program.Decides subject id →
              ¬(lower source items reporter).program.BringsError
                ((lower source items reporter).program.arena.node id)) →
            ∀ type ∈ (lower source items reporter).program.arena.type? subject,
              (lower source items reporter).program.types.isError type = false) := by
  obtain ⟨told, hreports, hfounded⟩ := lower_founded source items reporter
  refine ⟨told, hreports, fun diagnostic hmem hkind => ?_⟩
  have hdemand : diagnostic.kind.demand? ≠ none := by
    simp only [List.mem_cons, List.not_mem_nil, or_false] at hkind
    rcases hkind with hkind | hkind | hkind | hkind <;> simp [hkind, DiagnosticKind.demand?]
  obtain ⟨subject, hblames⟩ := hfounded diagnostic hmem hdemand
  have hclosed := (lower_sound source items reporter).closed
  refine ⟨subject, hblames, fun hbelow type htype => ?_⟩
  exact (Program.whole_of_decides hclosed (lower_forest source items reporter).wf
    (lower_fits source items reporter) hblames.1 hbelow type htype).isError hclosed

-- `g(z)` is a number, and no pointer. That `z` has the error type has nothing to do with it.
theorem error_type_not_blamed_of_number : ∃ items subject,
    let source := "Foo z; int g(int a); void f() { *g(z); }".toList
    let program := (lower source items (.start .Off #[])).program
    (∃ parsed, ParsedModule.read source ⟨100, 10, .Off⟩ = .ok parsed ∧ parsed.items = items) ∧
      program.Blames source subject (.about .CannotDereference ⟨33, 37⟩ "g(z)") ∧
      ∀ type ∈ program.arena.type? subject, program.types.isError type = false := by
  have hrun : (ParsedModule.read "Foo z; int g(int a); void f() { *g(z); }".toList
      ⟨100, 10, .Off⟩).toOption.map (fun parsed =>
        let lowered := lower "Foo z; int g(int a); void f() { *g(z); }".toList parsed.items
          (.start .Off #[])
        (lowered.program.arena.nodes, lowered.program.types.shape? ⟨10⟩,
          lowered.reporter.diagnostics)) =
      some (#[⟨.Function ⟨0⟩, some ⟨10⟩, ⟨33, 34⟩⟩, ⟨.Variable ⟨0⟩, some .error, ⟨35, 36⟩⟩,
          ⟨.Call ⟨0⟩ [⟨1⟩] (some ⟨0⟩), some .int, ⟨33, 37⟩⟩, ⟨.Error, some .error, ⟨33, 37⟩⟩],
        some (.Function ⟨[⟨.int, false⟩], .int, .none⟩),
        #[.about .UnknownType ⟨0, 3⟩ "Foo", .about .CannotDereference ⟨33, 37⟩ "g(z)"]) := by
    decide +kernel
  obtain ⟨parsed, hread, hseen⟩ := ParsedModule.exists_read hrun
  simp only [Prod.mk.injEq] at hseen
  obtain ⟨hnodes, hshape, hdiagnostics⟩ := hseen
  obtain ⟨told, htold, hblamed⟩ := error_type_not_blamed
    "Foo z; int g(int a); void f() { *g(z); }".toList parsed.items (.start .Off #[])
  have hclosed := (lower_sound "Foo z; int g(int a); void f() { *g(z); }".toList parsed.items
    (.start .Off #[])).closed
  obtain ⟨program, hprogram⟩ : ∃ program, program =
    (lower "Foo z; int g(int a); void f() { *g(z); }".toList parsed.items
      (.start .Off #[])).program := ⟨_, rfl⟩
  have hmem : Diagnostic.about .CannotDereference ⟨33, 37⟩ "g(z)" ∈ told := by
    have hsame : told =
        #[.about .UnknownType ⟨0, 3⟩ "Foo", .about .CannotDereference ⟨33, 37⟩ "g(z)"] := by
      rw [← hdiagnostics, htold]
      exact (Array.empty_append).symm
    simp [hsame]
  obtain ⟨subject, hblames, htype⟩ := hblamed _ hmem (by simp [Diagnostic.about, Diagnostic.plain])
  refine ⟨parsed.items, subject, ⟨parsed, hread, rfl⟩, hblames, htype ?_⟩
  rw [← hprogram] at hblames hclosed hnodes hshape ⊢
  have hnode : ∀ {id node}, program.arena.nodes[id]? = some node → program.arena.node ⟨id⟩ = node :=
    fun h => Arena.node_of_node? h
  have hcall := @hnode 2 _ (by rw [hnodes]; rfl)
  have hcallee := @hnode 0 _ (by rw [hnodes]; rfl)
  -- the call is the only node in its place that is no error
  have hsubject : subject = ⟨2⟩ := by
    have hspan : (⟨33, 37⟩ : Span) = (program.arena.node subject).span :=
      congrArg Diagnostic.span hblames.2.1
    have hright := hblames.1
    rw [Arena.kind, Arena.node, Arena.node?, hnodes] at hright
    rw [Arena.node, Arena.node?, hnodes] at hspan
    obtain ⟨_ | _ | _ | _ | index⟩ := subject
    · cases hspan
    · cases hspan
    · rfl
    · exact absurd rfl hright
    · exact absurd rfl hright
  subst hsubject
  intro id hdecides
  rcases hdecides.cases_head with rfl | ⟨callee, hcalled, hbehind⟩
  · rw [hcall]
    exact id
  · rw [Arena.kind, hcall] at hcalled
    obtain rfl := Option.some.inj hcalled
    rcases hbehind.cases_head with rfl | ⟨operand, hnone, _⟩
    · rw [hcallee]
      rintro ⟨type, htype, hnot⟩
      obtain rfl := Option.some.inj htype
      refine hnot (.intro hshape (by simp) fun part hpart => ?_)
      obtain rfl := List.mem_singleton.mp hpart
      exact .ofBasic hclosed .Integer
    · rw [Arena.kind, hcallee] at hnone
      cases hnone

-- `Foo` is unknown, so `x` has the error type, and it is complained of again.
theorem error_type_blamed : ∃ parsed subject type,
    ParsedModule.read "Foo x; int y = *x;".toList ⟨100, 10, .Off⟩ = .ok parsed ∧
      .about .CannotDereference (parsed.analyze.program.arena.node subject).span
        (quote "Foo x; int y = *x;".toList (parsed.analyze.program.arena.node subject).span) ∈
          parsed.analyze.diagnostics ∧
      parsed.analyze.program.arena.kind subject ≠ .Error ∧
      parsed.analyze.program.arena.type? subject = some type ∧
      parsed.analyze.program.types.isError type = true := by
  have hrun : (ParsedModule.read "Foo x; int y = *x;".toList ⟨100, 10, .Off⟩).toOption.map
      (fun parsed => (parsed.analyze.diagnostics, parsed.analyze.program.arena.node ⟨0⟩,
        parsed.analyze.program.types.isError .error)) =
      some ([.about .UnknownType ⟨0, 3⟩ "Foo", .about .CannotDereference ⟨16, 17⟩ "x"],
        ⟨.Variable ⟨0⟩, some .error, ⟨16, 17⟩⟩, true) := by
    decide +kernel
  obtain ⟨parsed, hread, hseen⟩ := ParsedModule.exists_read hrun
  simp only [Prod.mk.injEq] at hseen
  obtain ⟨hdiagnostics, hnode, herror⟩ := hseen
  refine ⟨parsed, ⟨0⟩, .error, hread, ?_, ?_, ?_, herror⟩
  · rw [hdiagnostics, hnode]
    decide +kernel
  · rw [Arena.kind, hnode]
    decide
  · rw [Arena.type?, hnode]

end EffectLint
