import EffectLint.Proofs.Lowering.Stages
import EffectLint.Proofs.Lowering.Question
import EffectLint.Proofs.Tree.Layout

/-!
What lowering says about a piece of the source, and where. It points into that piece, so nothing is
said twice of pieces that stand apart.
-/

namespace EffectLint

namespace Diagnostic

-- A diagnostic points between two offsets. A name that is defined twice may be missing, and then it
-- starts where reading stopped.
def Stands (low high : Nat) (diagnostic : Diagnostic) : Prop :=
  if diagnostic.kind = .DuplicateDefinition then
    low < diagnostic.span.start ∧ diagnostic.span.start ≤ high
  else
    low ≤ diagnostic.span.start ∧ diagnostic.span.start < high

-- Two diagnostics do not say the same of the same place, unless they complain of an unknown type
-- that is looked up `again`.
def Apart (again : List Span) (one other : Diagnostic) : Prop :=
  one.kind = other.kind → one.span = other.span → one.kind = .UnknownType ∧ one.span ∈ again

variable {again : List Span} {one other : Diagnostic} {low middle middle' high low' high' : Nat}

theorem Apart.symm (h : Apart again one other) : Apart again other one := by
  intro hkind hspan
  rw [hkind, hspan]
  exact h hkind.symm hspan.symm

theorem Stands.mono (h : Stands low high one) (hlow : low' ≤ low) (hhigh : high ≤ high') :
    Stands low' high' one := by
  unfold Stands at h ⊢
  split
  · next hkind =>
      rw [if_pos hkind] at h
      omega
  · next hkind =>
      rw [if_neg hkind] at h
      omega

theorem Stands.apart (hone : Stands low middle one) (hmiddle : middle ≤ middle')
    (hother : Stands middle' high other) : Apart again one other := by
  intro hkind hspan
  unfold Stands at hone hother
  rw [hkind, hspan] at hone
  by_cases hdefinition : other.kind = .DuplicateDefinition
  · rw [if_pos hdefinition] at hone hother
    omega
  · rw [if_neg hdefinition] at hone hother
    omega

end Diagnostic

-- What is said between two offsets: every report points there, and no two of them are the same.
structure Told (again : List Span) (low high : Nat) (told : List Diagnostic) : Prop where
  le : low ≤ high
  apart : told.Pairwise (Diagnostic.Apart again)
  stands : ∀ diagnostic ∈ told, diagnostic.Stands low high

namespace Told

variable {again : List Span} {low middle middle' high low' high' : Nat}
  {front back told told' : List Diagnostic}

theorem nil (hle : low ≤ high) : Told again low high [] :=
  ⟨hle, .nil, nofun⟩

theorem one {diagnostic : Diagnostic} (hle : low ≤ high) (h : diagnostic.Stands low high) :
    Told again low high [diagnostic] :=
  ⟨hle, List.pairwise_singleton _ _, by simpa using h⟩

theorem mono (h : Told again low high told) (hlow : low' ≤ low) (hhigh : high ≤ high') :
    Told again low' high' told where
  le := by
    have := h.le
    omega
  apart := h.apart
  stands diagnostic hmem := (h.stands diagnostic hmem).mono hlow hhigh

theorem append (hfront : Told again low middle front) (hmiddle : middle ≤ middle')
    (hback : Told again middle' high back) : Told again low high (front ++ back) := by
  have hle := hfront.le
  have hle' := hback.le
  refine ⟨by omega, List.pairwise_append.mpr ⟨hfront.apart, hback.apart, ?_⟩, ?_⟩
  · intro one hone other hother
    exact (hfront.stands one hone).apart hmiddle (hback.stands other hother)
  · intro diagnostic hmem
    rcases List.mem_append.mp hmem with hmem | hmem
    · exact (hfront.stands diagnostic hmem).mono (Nat.le_refl _) (by omega)
    · exact (hback.stands diagnostic hmem).mono (by omega) (Nat.le_refl _)

theorem perm (h : Told again low high told) (hperm : told.Perm told') :
    Told again low high told' where
  le := h.le
  apart := h.apart.perm hperm fun h => h.symm
  stands diagnostic hmem := h.stands diagnostic (hperm.mem_iff.mpr hmem)

theorem append_apart (hfront : Told again low high front) (hback : Told again low high back)
    (hapart : ∀ one ∈ front, ∀ other ∈ back, one.Apart again other) :
    Told again low high (front ++ back) where
  le := hfront.le
  apart := List.pairwise_append.mpr ⟨hfront.apart, hback.apart, hapart⟩
  stands := List.forall_mem_append.mpr ⟨hfront.stands, hback.stands⟩

end Told

-- Some of the names, in their order, are said to be no known types.
def Unknown (names : List Name) (told : List Diagnostic) : Prop :=
  ∃ missing : List Name, missing.Sublist names ∧
    told = missing.map fun name => .about .UnknownType name.span name.text

namespace Unknown

variable {names names' : List Name} {front back : List Diagnostic}

theorem nil : Unknown names [] :=
  ⟨[], List.nil_sublist _, rfl⟩

theorem append (h : Unknown names front) (h' : Unknown names' back) :
    Unknown (names ++ names') (front ++ back) := by
  obtain ⟨missing, hmissing, rfl⟩ := h
  obtain ⟨missing', hmissing', rfl⟩ := h'
  exact ⟨missing ++ missing', hmissing.append hmissing', (List.map_append).symm⟩

theorem kind (h : Unknown names front) : ∀ diagnostic ∈ front, diagnostic.kind = .UnknownType := by
  obtain ⟨missing, -, rfl⟩ := h
  intro diagnostic hmem
  obtain ⟨name, -, rfl⟩ := List.mem_map.mp hmem
  rfl

theorem span_mem (h : Unknown names front) :
    ∀ diagnostic ∈ front, diagnostic.span ∈ names.map Name.span := by
  obtain ⟨missing, hmissing, rfl⟩ := h
  intro diagnostic hmem
  obtain ⟨name, hname, rfl⟩ := List.mem_map.mp hmem
  exact List.mem_map_of_mem (hmissing.subset hname)

theorem told {again : List Span} {low high : Nat} (h : Unknown names front)
    (hnames : Ascending low high (names.map (·.span.start))) : Told again low high front := by
  obtain ⟨missing, hmissing, rfl⟩ := h
  have hsorted := hnames.sorted.sublist (hmissing.map (·.span.start))
  refine ⟨hnames.le, ?_, ?_⟩
  · rw [List.pairwise_map] at hsorted ⊢
    refine hsorted.imp fun hlt _ hspan => ?_
    exact absurd (congrArg Span.start hspan) (Nat.ne_of_lt hlt)
  · intro diagnostic hmem
    obtain ⟨name, hname, rfl⟩ := List.mem_map.mp hmem
    exact hnames.bounded _ (List.mem_map_of_mem (hmissing.subset hname))

end Unknown

namespace Lower

-- A computation answers, makes and says so much, whoever listens. The answer and what is said are
-- `good`.
def SaysAt {α : Type} (body : Lower α) (good : Program → α → List Diagnostic → Prop)
    (program : Program) (scopes : Scopes) : Prop :=
  ∃ answer made around told hidden, made.Extends program ∧ good made answer told ∧
    ∀ reporter, body ⟨program, scopes, reporter⟩ =
      (answer, ⟨made, around, reporter.after told hidden⟩)

def Says {α : Type} (body : Lower α) (good : Program → α → List Diagnostic → Prop) : Prop :=
  ∀ program scopes, SaysAt body good program scopes

-- Nothing is said, whatever is answered.
abbrev Mute {α : Type} (body : Lower α) : Prop :=
  Says body fun _ _ told => told = []

section

variable {α β : Type} {program : Program} {scopes : Scopes}

theorem SaysAt.imp {body : Lower α} {good good' : Program → α → List Diagnostic → Prop}
    (h : SaysAt body good program scopes)
    (himp : ∀ made answer told, good made answer told → good' made answer told) :
    SaysAt body good' program scopes := by
  obtain ⟨answer, made, around, told, hidden, hgrows, hgood, hrun⟩ := h
  exact ⟨answer, made, around, told, hidden, hgrows, himp _ _ _ hgood, hrun⟩

theorem Says.imp {body : Lower α} {good good' : Program → α → List Diagnostic → Prop}
    (h : Says body good)
    (himp : ∀ made answer told, good made answer told → good' made answer told) :
    Says body good' :=
  fun program scopes => (h program scopes).imp himp

theorem SaysAt.pure {answer : α} {good : Program → α → List Diagnostic → Prop}
    (hgood : good program answer []) : SaysAt (Pure.pure answer) good program scopes := by
  refine ⟨answer, program, scopes, [], 0, .refl _, hgood, fun reporter => ?_⟩
  rw [Reporter.after_nil]
  rfl

-- What is said first stands before what is said next.
theorem SaysAt.bind {first : Lower α} {next : α → Lower β}
    {good : Program → α → List Diagnostic → Prop} {good' : Program → β → List Diagnostic → Prop}
    (hfirst : SaysAt first good program scopes)
    (hnext : ∀ answer made around told, made.Extends program → good made answer told →
      SaysAt (next answer) (fun made' answer' told' => good' made' answer' (told ++ told')) made
        around) :
    SaysAt (first >>= next) good' program scopes := by
  obtain ⟨answer, made, around, told, hidden, hgrows, hgood, hrun⟩ := hfirst
  obtain ⟨answer', made', around', told', hidden', hgrows', hgood', hrun'⟩ :=
    hnext answer made around told hgrows hgood
  refine ⟨answer', made', around', told ++ told', hidden + hidden', hgrows.trans hgrows', hgood',
    fun reporter => ?_⟩
  rw [bind_apply, hrun, hrun', Reporter.after_after]

theorem Mute.bind {first : Lower α} {next : α → Lower β}
    {good : Program → β → List Diagnostic → Prop} (hfirst : Mute first)
    (hnext : ∀ answer made around, made.Extends program →
      SaysAt (next answer) good made around) :
    SaysAt (first >>= next) good program scopes := by
  refine (hfirst program scopes).bind fun answer made around told hgrows htold => ?_
  subst htold
  exact hnext answer made around hgrows

theorem SaysAt.lookup (name : String) {next : Option Binding → Lower α}
    {good : Program → α → List Diagnostic → Prop}
    (h : SaysAt (next (program.binding? scopes name)) good program scopes) :
    SaysAt (lookup name >>= next) good program scopes :=
  h

theorem SaysAt.reported {diagnostic : Diagnostic} {answer : α}
    {good : Program → α → List Diagnostic → Prop} (hgood : good program answer [diagnostic]) :
    SaysAt (do report diagnostic; return answer) good program scopes := by
  refine ⟨answer, program, scopes, [diagnostic], 0, .refl _, hgood, fun reporter => ?_⟩
  rw [← Reporter.report_eq_after]
  rfl

-- A step that grows the program and leaves the reporter alone.
theorem Mute.of_step {body : Lower α} (next : Program → α × Program)
    (hgrows : ∀ program, (next program).2.Extends program)
    (hbody : ∀ program scopes reporter, body ⟨program, scopes, reporter⟩ =
      ((next program).1, ⟨(next program).2, scopes, reporter⟩)) : Mute body := by
  intro program scopes
  refine ⟨(next program).1, (next program).2, scopes, [], 0, hgrows program, rfl, fun reporter => ?_⟩
  rw [hbody, Reporter.after_nil]

end

theorem symbol_mute (name : String) : Mute (symbol name) :=
  .of_step (fun program =>
    ((program.names.insert name).1, { program with names := (program.names.insert name).2 }))
    (fun _ => .insertName name) fun _ _ _ => rfl

theorem internType_mute (shape : Shape) : Mute (internType shape) :=
  .of_step (fun program =>
    ((program.types.insert shape).1, { program with types := (program.types.insert shape).2 }))
    (fun _ => .insertType shape) fun _ _ _ => rfl

theorem addNode_mute (node : Node) : Mute (addNode node) :=
  .of_step (fun program =>
    ((program.arena.add node).1, { program with arena := (program.arena.add node).2 }))
    (fun _ => .addNode node) fun _ _ _ => rfl

theorem addVariable_mute (entry : VariableEntry) : Mute (addVariable entry) :=
  .of_step (fun program =>
    (⟨program.declared.size⟩, { program with declared := program.declared.push entry }))
    (fun _ => .addVariable entry) fun _ _ _ => rfl

theorem Says.inScope {α : Type} {body : Lower α} {good : Program → α → List Diagnostic → Prop}
    (hbody : Says body good) : Says (inScope body) good := by
  intro program scopes
  obtain ⟨answer, made, around, told, hidden, hgrows, hgood, hrun⟩ := hbody program scopes.push
  refine ⟨answer, made, around.pop, told, hidden, hgrows, hgood, fun reporter => ?_⟩
  have hpush : pushScope ⟨program, scopes, reporter⟩ = ((), ⟨program, scopes.push, reporter⟩) := rfl
  rw [Lower.inScope, bind_apply, hpush, bind_apply, hrun]
  rfl

-- What a question swallows is not said.
theorem Says.accepts {body : Lower NodeId} {good : Program → NodeId → List Diagnostic → Prop}
    (hbody : Says body good) : Mute (accepts body) := by
  intro program scopes
  obtain ⟨answer, made, around, told, hidden, hgrows, -, hrun⟩ := hbody.inScope program scopes
  exact ⟨_, made, around, [], _, hgrows, rfl, fun reporter => accepts_apply (hrun reporter.startGag.2)⟩

-- What is said where a name is defined.
def Redefines (name : Name) (told : List Diagnostic) : Prop :=
  told = [] ∨ told = [.about .DuplicateDefinition name.span name.text]

-- A name that is there already is reported where it stands.
theorem define_tells (name : Name) (binding : Binding) :
    Says (define name binding) fun _ _ told => Redefines name told := by
  intro program scopes
  have hgrows : Program.Extends { program with names := (program.names.insert name.text).2 } program :=
    .insertName name.text
  cases hdefined : scopes.isDefinedHere (program.names.insert name.text).1 with
  | true =>
      refine ⟨(), _, scopes, [.about .DuplicateDefinition name.span name.text], 0, hgrows, .inr rfl,
        fun reporter => ?_⟩
      rw [← Reporter.report_eq_after]
      exact (define_apply name binding _).trans (if_pos hdefined)
  | false =>
      refine ⟨(), _, scopes.define (program.names.insert name.text).1 binding, [], 0, hgrows, .inl rfl,
        fun reporter => ?_⟩
      rw [Reporter.after_nil]
      exact (define_apply name binding _).trans (if_neg (ne_true_of_eq_false hdefined))

theorem Redefines.told {again : List Span} {low high : Nat} {name : Name} {told : List Diagnostic}
    (h : Redefines name told) (hlow : low < name.span.start) (hhigh : name.span.start ≤ high) :
    Told again low high told := by
  rcases h with rfl | rfl
  · exact .nil (by omega)
  · exact .one (by omega) ⟨hlow, hhigh⟩

theorem Redefines.kind {name : Name} {told : List Diagnostic} (h : Redefines name told) :
    ∀ diagnostic ∈ told, diagnostic.kind = .DuplicateDefinition := by
  rcases h with rfl | rfl
  · exact nofun
  · exact List.forall_mem_singleton.mpr rfl

-- A name stands behind its type, and what is said of it is of another kind.
theorem Redefines.behind {again : List Span} {low middle high : Nat} {name : Name}
    {front back : List Diagnostic} (h : Redefines name back) (hfront : Told again low middle front)
    (hunknown : ∀ diagnostic ∈ front, diagnostic.kind = .UnknownType) (hlow : low < name.span.start)
    (hmiddle : middle ≤ high) (hhigh : name.span.start ≤ high) : Told again low high (front ++ back) := by
  refine (hfront.mono (Nat.le_refl _) hmiddle).append_apart (h.told hlow hhigh) ?_
  intro one hone other hother hkind
  rw [hunknown one hone, h.kind other hother] at hkind
  cases hkind

theorem declareVariable_tells (name : Name) (type : TypeId) (isGlobal : Bool) :
    Says (declareVariable name type isGlobal) fun _ _ told => Redefines name told := by
  intro program scopes
  refine (symbol_mute name.text).bind fun symbol named scopes _ => ?_
  refine (addVariable_mute _).bind fun id declared scopes _ => ?_
  refine (define_tells name (.Variable id) declared scopes).bind fun _ made around told _ htold => ?_
  refine .pure ?_
  rw [List.append_nil]
  exact htold

section Types

theorem wrapType_mute (inner : TypeId) (wrap : TypeId → Shape) : Mute (wrapType inner wrap) := by
  unfold wrapType
  split
  · exact fun _ _ => .pure rfl
  · exact internType_mute _

theorem parameterTypes_tells {parameters : List (Parameter TypeTree)}
    (htypes : ∀ parameter ∈ parameters,
      Says (type parameter.type) fun _ _ told => Unknown parameter.type.mentioned told) :
    Says (parameterTypes parameters) fun _ _ told =>
      Unknown (TypeTree.mentionedIn parameters) told := by
  induction parameters with
  | nil =>
      rw [parameterTypes]
      exact fun _ _ => .pure .nil
  | cons first rest ih =>
      rw [parameterTypes, TypeTree.mentionedIn]
      intro program scopes
      refine (htypes first List.mem_cons_self program scopes).bind fun _ made around told _ htold => ?_
      refine (ih (fun parameter hmem => htypes parameter (List.mem_cons_of_mem _ hmem)) made
        around).bind fun _ _ _ told' _ htold' => ?_
      refine .pure ?_
      rw [List.append_nil]
      exact htold.append htold'

-- Nothing is said of a type but that names are unknown, each where it is mentioned.
theorem type_tells (written : TypeTree) :
    Says (type written) fun _ _ told => Unknown written.mentioned told := by
  induction written with
  | Basic span basic =>
      rw [type]
      exact fun _ _ => .pure .nil
  | Named span name =>
      intro program scopes
      rw [type]
      refine .lookup name.text ?_
      split
      · exact .pure .nil
      · exact .reported ⟨[name], List.Sublist.refl _, rfl⟩
  | Pointer span target ih =>
      intro program scopes
      rw [type]
      refine (ih program scopes).bind fun inner made around told _ htold => ?_
      refine (wrapType_mute inner .Pointer made around).imp fun _ _ told' hnone => ?_
      rw [hnone, List.append_nil]
      exact htold
  | Array span element ih =>
      intro program scopes
      rw [type]
      refine (ih program scopes).bind fun inner made around told _ htold => ?_
      refine (wrapType_mute inner .Array made around).imp fun _ _ told' hnone => ?_
      rw [hnone, List.append_nil]
      exact htold
  | AssocArray span value key ihValue ihKey =>
      intro program scopes
      rw [type]
      refine (ihValue program scopes).bind fun value' made around told _ htold => ?_
      refine (ihKey made around).bind fun key' made around told' _ htold' => ?_
      have hboth : Unknown (TypeTree.AssocArray span value key).mentioned (told ++ (told' ++ [])) := by
        rw [List.append_nil]
        exact htold.append htold'
      split
      · exact .pure hboth
      · exact (internType_mute _ made around).imp fun _ _ _ hnone => by rw [hnone]; exact hboth
  | Callable span isDelegate promises result parameters ihResult ihParameters =>
      intro program scopes
      rw [type]
      refine (ihResult program scopes).bind fun result' made around told _ htold => ?_
      refine (parameterTypes_tells ihParameters made around).bind fun _ made around told' _ htold' => ?_
      refine (internType_mute _).bind fun function made around _ => ?_
      refine (internType_mute _ made around).imp fun _ _ _ hnone => ?_
      rw [hnone, List.append_nil]
      exact htold.append htold'
  | Error span =>
      rw [type]
      exact fun _ _ => .pure .nil

theorem signature_tells (result : TypeTree) (parameters : List (Parameter TypeTree))
    (promises : Promises) :
    Says (signature result parameters promises) fun _ _ told => ∃ front back,
      told = front ++ back ∧ Unknown result.mentioned front ∧
        Unknown (TypeTree.mentionedIn parameters) back := by
  intro program scopes
  refine (type_tells result program scopes).bind fun _ made around told _ htold => ?_
  refine (parameterTypes_tells (fun parameter _ => type_tells parameter.type) made around).bind
    fun _ _ _ told' _ htold' => .pure ?_
  exact ⟨told, told', by rw [List.append_nil], htold, htold'⟩

end Types

end Lower

end EffectLint
