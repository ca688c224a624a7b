import EffectLint.Proofs.Lowering.Runs
import EffectLint.Proofs.Program.Made

/-!
What a written type denotes is known, and where nothing is said about it, it can be written again
with the same scopes open.
-/

namespace EffectLint

namespace Lower

def KnownType (program : Program) (type : TypeId) : Prop :=
  program.types.Known type

-- A type that can be written, and is not the one of wrong expressions.
def RightType (scopes : Scopes) (program : Program) (type : TypeId) : Prop :=
  program.Writable scopes type ∧ type ≠ .error

theorem ne_error_of_shape {program : Program} (hclosed : program.types.Closed) {type : TypeId}
    {shape : Shape} (h : program.types.shape? type = some shape) (hshape : shape ≠ .Error) :
    type ≠ .error := by
  rintro rfl
  rw [hclosed.builtin TypeTable.shape?_error] at h
  exact hshape (Option.some.inj h).symm

theorem RightType.extends {large small : Program} {scopes : Scopes} {type : TypeId}
    (hextends : large.Extends small) (h : RightType scopes small type) :
    RightType scopes large type :=
  ⟨h.1.extends hextends, h.2⟩

section

variable {program : Program} {scopes : Scopes}

-- A type entered for a shape, where the parts that it is written with are right.
theorem internType_enters {fine : Prop} (hsound : program.Sound scopes) {shape : Shape}
    (hparts : ∀ part ∈ shape.parts, program.types.Known part) (hshape : shape ≠ .Error)
    (hright : ∀ made : Program, ∀ type, made.Extends program →
      made.types.shape? type = some shape → fine → made.Writable scopes type) :
    StaysAt fine (internType shape) KnownType (RightType scopes) program scopes := by
  refine .internType hsound hparts fun made type hextends hmade htype => ⟨⟨_, htype⟩, ?_⟩
  intro hfine
  exact ⟨hright made type hextends htype hfine, ne_error_of_shape hmade.closed htype hshape⟩

theorem wrapType_enters (hsound : program.Sound scopes) {inner : TypeId} {wrap : TypeId → Shape}
    (hknown : program.types.Known inner) (hparts : (wrap inner).parts = [inner])
    (hshape : wrap inner ≠ .Error)
    (hwrap : ∀ made : Program, ∀ type, made.types.shape? type = some (wrap inner) →
      made.Writable scopes inner → made.Writable scopes type) :
    StaysAt (RightType scopes program inner) (wrapType inner wrap) KnownType (RightType scopes)
      program scopes := by
  unfold wrapType
  split
  · next herror => exact .pure hsound hsound.closed.known_error fun hfine => absurd herror hfine.2
  · refine internType_enters hsound (by simpa [hparts] using hknown) hshape ?_
    intro made type hextends htype hfine
    exact hwrap made type htype (hfine.1.extends hextends)

def KnownParameters (program : Program) (parameters : List ParameterType) : Prop :=
  ∀ parameter ∈ parameters, program.types.Known parameter.type

def RightParameters (scopes : Scopes) (program : Program) (parameters : List ParameterType) : Prop :=
  ∀ parameter ∈ parameters, RightType scopes program parameter.type

theorem parameterTypes_enters {fine : Prop} {parameters : List (Parameter TypeTree)}
    (htypes : ∀ parameter ∈ parameters, ∀ (program : Program) (fine : Prop),
      (fine → parameter.type.WellWritten) → program.Sound scopes →
      StaysAt fine (type parameter.type) KnownType (RightType scopes) program scopes)
    (hfine : fine → ∀ parameter ∈ parameters, parameter.type.WellWritten)
    (hsound : program.Sound scopes) :
    StaysAt fine (parameterTypes parameters) KnownParameters (RightParameters scopes) program
      scopes := by
  induction parameters generalizing program fine with
  | nil =>
      rw [parameterTypes]
      exact .pure hsound (List.forall_mem_nil _) fun _ => List.forall_mem_nil _
  | cons first rest ih =>
      obtain ⟨isRef, written, name⟩ := first
      have hfirst : fine → written.WellWritten := fun h => hfine h _ List.mem_cons_self
      have hrest : ∀ parameter ∈ rest, fine → parameter.type.WellWritten :=
        fun parameter hmem h => hfine h parameter (List.mem_cons_of_mem _ hmem)
      rw [parameterTypes]
      refine (htypes _ List.mem_cons_self _ _ hfirst hsound).bind fun one type _ hone htype => ?_
      refine (ih (fun parameter hmem => htypes parameter (List.mem_cons_of_mem _ hmem))
        (fun h parameter hmem => hrest parameter hmem h.1) hone).bind
        fun all others hgrows hall hothers => ?_
      refine .pure hall ?_ ?_
      · exact List.forall_mem_cons.mpr ⟨htype.keeps hgrows.types, hothers⟩
      · exact fun hright => List.forall_mem_cons.mpr ⟨hright.1.2.extends hgrows, hright.2⟩

def IsFunction (signature : Signature) (program : Program) (type : TypeId) : Prop :=
  program.types.shape? type = some (.Function signature)

theorem function_enters {fine : Prop} {signature : Signature} (hsound : program.Sound scopes)
    (hresult : program.types.Known signature.result)
    (hparameters : KnownParameters program signature.parameters) :
    StaysAt fine (internType (.Function signature)) KnownType (IsFunction signature) program
      scopes := by
  refine .internType hsound ?_ fun made function _ _ hshape => ⟨⟨_, hshape⟩, fun _ => hshape⟩
  simp only [Shape.parts, List.forall_mem_cons, List.forall_mem_map]
  exact ⟨hresult, hparameters⟩

-- What is read off a type is right only if that type itself was right.
theorem type_enters {written : TypeTree} {fine : Prop} (hfine : fine → written.WellWritten)
    (hsound : program.Sound scopes) :
    StaysAt fine (type written) KnownType (RightType scopes) program scopes := by
  induction written generalizing program fine with
  | Basic span basic =>
      have hne : TypeId.ofBasic basic ≠ .error := by cases basic <;> decide
      rw [type]
      exact .pure hsound (hsound.closed.known_ofBasic basic) fun _ => ⟨.Basic, hne⟩
  | Named span name =>
      rw [type]
      refine .lookup name.text ?_
      split
      · next id hbinding =>
          obtain ⟨symbol, hname, hnamed⟩ := hsound.named_of_binding? hbinding
          refine .pure hsound (Program.Named.known hnamed) fun h => ?_
          have hvalid : (Lexeme.name name.text).Valid := by cases hfine h; assumption
          refine ⟨.Named hname hvalid hnamed hbinding, ?_⟩
          rcases hnamed with hclass | ⟨target, halias⟩
          · exact ne_error_of_shape hsound.closed hclass (by simp)
          · exact ne_error_of_shape hsound.closed halias (by simp)
      · exact .reported hsound _ hsound.closed.known_error
  | Pointer span target ih =>
      rw [type]
      have htarget : fine → target.WellWritten := fun h => by cases hfine h; assumption
      refine (ih htarget hsound).bind fun made inner _ hmade hinner => ?_
      refine (wrapType_enters hmade hinner rfl (by simp) ?_).imp And.right (fun _ _ => id) fun _ _ => id
      exact fun _ _ hshape hwritable => .Pointer hshape hwritable
  | Array span element ih =>
      rw [type]
      have helement : fine → element.WellWritten := fun h => by cases hfine h; assumption
      refine (ih helement hsound).bind fun made inner _ hmade hinner => ?_
      refine (wrapType_enters hmade hinner rfl (by simp) ?_).imp And.right (fun _ _ => id) fun _ _ => id
      exact fun _ _ hshape hwritable => .Array hshape hwritable
  | AssocArray span value key ihvalue ihkey =>
      rw [type]
      have hvalue : fine → value.WellWritten := fun h => by cases hfine h; assumption
      have hkey : fine → key.WellWritten := fun h => by cases hfine h; assumption
      refine (ihvalue hvalue hsound).bind fun one valueType _ hone hvalueType => ?_
      refine (ihkey (fun h => hkey h.1) hone).bind fun made keyType hgrows hmade hkeyType => ?_
      split
      · next herror =>
          refine .pure hmade hmade.closed.known_error fun hright => ?_
          exact (herror.elim hright.1.2.2 hright.2.2).elim
      · refine internType_enters hmade ?_ (by simp) ?_
        · simp only [Shape.parts, List.forall_mem_cons, List.not_mem_nil, false_imp_iff,
            implies_true, and_true]
          exact ⟨hkeyType, hvalueType.keeps hgrows.types⟩
        · intro large type hextends hshape hright
          exact .AssocArray hshape (hright.1.2.1.extends (hgrows.trans hextends))
            (hright.2.1.extends hextends)
  | Callable span isDelegate promises result parameters ihresult ihparameters =>
      rw [type]
      have hresult : fine → result.WellWritten := fun h => by cases hfine h; assumption
      have hparameters : fine → ∀ parameter ∈ parameters, parameter.type.WellWritten :=
        fun h => by cases hfine h; assumption
      refine (ihresult hresult hsound).bind fun one resultType _ hone hresultType => ?_
      refine (parameterTypes_enters (fun parameter hmem _ _ => ihparameters parameter hmem)
        (fun h => hparameters h.1) hone).bind fun two parameterTypes hgrows htwo hparameterTypes => ?_
      have hresultType : two.types.Known resultType := hresultType.keeps hgrows.types
      refine (@function_enters _ _ _ ⟨parameterTypes, resultType, promises⟩ htwo hresultType
        hparameterTypes).bind fun three function hgrows' hthree hknown => ?_
      refine internType_enters hthree ?_ ?_ ?_
      · have hpart : three.types.Known function := hknown
        cases isDelegate <;> simpa [Shape.parts] using hpart
      · cases isDelegate <;> simp
      · intro made type hextends hshape hright
        refine .Callable (hextends.types _ _ hright.2) hshape ?_ fun parameter hmem => ?_
        · exact hright.1.1.2.1.extends ((hgrows.trans hgrows').trans hextends)
        · exact (hright.1.2 parameter hmem).1.extends (hgrows'.trans hextends)
  | Error span =>
      rw [type]
      exact .pure hsound hsound.closed.known_error fun h => by cases hfine h

end

end Lower

end EffectLint
