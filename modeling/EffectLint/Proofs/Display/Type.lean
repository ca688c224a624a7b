import EffectLint.Proofs.Lowering.Types
import EffectLint.Proofs.Token.Ends

/-!
The written form of a type as a tree. Its lexemes are the ones in the text of the type, and it
denotes the type again with the same scopes open.
-/

namespace EffectLint

open Lexeme

theorem NameTable.text_of_get? {names : NameTable} {symbol : Symbol} {name : String}
    (h : names.get? symbol = some name) : names.text symbol = name := by
  rw [NameTable.text, h, Option.getD_some]

namespace TypeTable

variable (table : TypeTable) (names : NameTable)

def callableTree (tree : TypeId → TypeTree) (isDelegate : Bool) (signature : Signature) : TypeTree :=
  .Callable ⟨0, 0⟩ isDelegate signature.promises (tree signature.result)
    (signature.parameters.map fun parameter => ⟨parameter.isRef, tree parameter.type, none⟩)

-- The tree that the text of a type is read as.
def treeWithin : Nat → TypeId → TypeTree
  | 0, _ => .Error ⟨0, 0⟩
  | steps + 1, type =>
      let tree := treeWithin steps
      match table.shape type with
      | .Basic type => .Basic ⟨0, 0⟩ type
      | .Class name | .Alias name _ => .Named ⟨0, 0⟩ ⟨names.text name, ⟨0, 0⟩⟩
      | .Pointer target =>
          match table.shape target with
          | .Function signature => callableTree tree false signature
          | _ => .Pointer ⟨0, 0⟩ (tree target)
      | .Array element => .Array ⟨0, 0⟩ (tree element)
      | .AssocArray key value => .AssocArray ⟨0, 0⟩ (tree value) (tree key)
      | .Delegate function =>
          match table.shape function with
          | .Function signature => callableTree tree true signature
          | _ => .Error ⟨0, 0⟩
      | _ => .Error ⟨0, 0⟩

end TypeTable

namespace Program

-- A text that is read as a type, which denotes the given one wherever the scopes are open.
structure SpellsType (program : Program) (scopes : Scopes) (type : TypeId) (text : String)
    (tree : TypeTree) : Prop where
  written : tree.WellWritten
  writes : ∀ after, Stopped after → Writes after tree.lexemes text.toList
  again : ∀ other : TypeTree, other.bare = tree.bare → ∀ later : Program, later.Extends program →
    ∀ reporter, Lower.type other ⟨later, scopes, reporter⟩ = (type, ⟨later, scopes, reporter⟩)

section

variable {program : Program} {scopes : Scopes} {type : TypeId}

-- A shape that is known is not entered again.
theorem internType_known {shape : Shape} (hshape : program.types.shape? type = some shape)
    (reporter : Reporter) : Lower.internType shape ⟨program, scopes, reporter⟩ =
      (type, ⟨program, scopes, reporter⟩) := by
  have hinsert := TypeTable.insert_of_shape? hshape
  unfold Lower.internType
  simp only [hinsert]

theorem wrapType_known {inner : TypeId} {wrap : TypeId → Shape} (hinner : inner ≠ .error)
    (hshape : program.types.shape? type = some (wrap inner)) (reporter : Reporter) :
    Lower.wrapType inner wrap ⟨program, scopes, reporter⟩ =
      (type, ⟨program, scopes, reporter⟩) := by
  rw [Lower.wrapType, if_neg hinner]
  exact internType_known hshape reporter

theorem spellsType_Basic (basic : BasicType) :
    program.SpellsType scopes (.ofBasic basic) basic.name (.Basic ⟨0, 0⟩ basic) where
  written := .Basic
  writes after hafter := by
    rw [TypeTree.lexemes]
    exact .basic basic hafter
  again other hother later _ reporter := by
    cases other with
    | Basic span type =>
        cases hother
        rw [Lower.type]
        rfl
    | _ => simp [TypeTree.bare] at hother

theorem spellsType_Named {name : String} (hvalid : (Lexeme.name name).Valid)
    (hbinding : program.binding? scopes name = some (.Type type)) :
    program.SpellsType scopes type name (.Named ⟨0, 0⟩ ⟨name, ⟨0, 0⟩⟩) where
  written := .Named hvalid
  writes after hafter := by
    rw [TypeTree.lexemes]
    exact .name hvalid hafter
  again other hother later hlater reporter := by
    cases other with
    | Named span written =>
        have htext : written.text = name := by simpa [TypeTree.bare] using hother
        have hlookup : Lower.lookup written.text ⟨later, scopes, reporter⟩ =
            (some (.Type type), ⟨later, scopes, reporter⟩) := by
          rw [htext, ← hlater.binding?_eq hbinding]
          rfl
        rw [Lower.type, Lower.bind_apply, hlookup]
        rfl
    | _ => simp [TypeTree.bare] at hother

variable {inner : TypeId} {text : String} {tree : TypeTree}

theorem SpellsType.pointer (h : program.SpellsType scopes inner text tree) (hinner : inner ≠ .error)
    (hshape : program.types.shape? type = some (.Pointer inner)) :
    program.SpellsType scopes type (text ++ "*") (.Pointer ⟨0, 0⟩ tree) where
  written := .Pointer h.written
  writes after hafter := by
    have hinner := h.writes ('*' :: after) (stopped_cons (by decide))
    rw [TypeTree.lexemes, String.toList_append]
    exact Writes.append hinner (.star hafter)
  again other hother later hlater reporter := by
    cases other with
    | Pointer span target =>
        have htarget : target.bare = tree.bare := by simpa [TypeTree.bare] using hother
        rw [Lower.type, Lower.bind_apply, h.again target htarget later hlater]
        exact wrapType_known hinner (hlater.types _ _ hshape) reporter
    | _ => simp [TypeTree.bare] at hother

theorem SpellsType.array (h : program.SpellsType scopes inner text tree) (hinner : inner ≠ .error)
    (hshape : program.types.shape? type = some (.Array inner)) :
    program.SpellsType scopes type (text ++ "[]") (.Array ⟨0, 0⟩ tree) where
  written := .Array h.written
  writes after _ := by
    have hbrackets : Spells after [sign .BracketOpen, sign .BracketClose] ['[', ']'] :=
      .closed (by decide) (.last (by decide))
    have hinner := h.writes ('[' :: ']' :: after) (stopped_cons (by decide))
    rw [TypeTree.lexemes, String.toList_append]
    exact Writes.append hinner hbrackets
  again other hother later hlater reporter := by
    cases other with
    | Array span element =>
        have helement : element.bare = tree.bare := by simpa [TypeTree.bare] using hother
        rw [Lower.type, Lower.bind_apply, h.again element helement later hlater]
        exact wrapType_known hinner (hlater.types _ _ hshape) reporter
    | _ => simp [TypeTree.bare] at hother

theorem SpellsType.assocArray {key value : TypeId} {keyText valueText : String}
    {keyTree valueTree : TypeTree} (hvalue : program.SpellsType scopes value valueText valueTree)
    (hkey : program.SpellsType scopes key keyText keyTree)
    (hright : value ≠ .error ∧ key ≠ .error)
    (hshape : program.types.shape? type = some (.AssocArray key value)) :
    program.SpellsType scopes type (valueText ++ "[" ++ keyText ++ "]")
      (.AssocArray ⟨0, 0⟩ valueTree keyTree) where
  written := .AssocArray hvalue.written hkey.written
  writes after _ := by
    have hinside := hkey.writes (']' :: after) (stopped_cons (by decide))
    have hclose : Spells after [sign .BracketClose] [']'] := .last (by decide)
    have hbrackets : Spells after (sign .BracketOpen :: (keyTree.lexemes ++ [sign .BracketClose]))
        ('[' :: (keyText.toList ++ [']'])) := .closed (by decide) (Writes.append hinside hclose).spells
    have houtside := hvalue.writes ('[' :: (keyText.toList ++ [']']) ++ after)
      (stopped_cons (by decide))
    have hall := houtside.append hbrackets
    rw [TypeTree.lexemes]
    simpa using hall
  again other hother later hlater reporter := by
    cases other with
    | AssocArray span writtenValue writtenKey =>
        have hparts : writtenValue.bare = valueTree.bare ∧ writtenKey.bare = keyTree.bare := by
          simpa [TypeTree.bare] using hother
        rw [Lower.type, Lower.bind_apply, hvalue.again _ hparts.1 later hlater, Lower.bind_apply,
          hkey.again _ hparts.2 later hlater]
        dsimp only
        rw [if_neg (not_or.mpr hright)]
        exact internType_known (hlater.types _ _ hshape) reporter
    | _ => simp [TypeTree.bare] at hother

-- What a function promises stands behind its parameters.
theorem spells_promises (promises : Promises) {after : List Char} (hafter : Stopped after) :
    Spells after promises.lexemes (TypeTable.promisesText promises).toList ∧
      Stopped ((TypeTable.promisesText promises).toList ++ after) := by
  have hstop : ∀ text : List Char, Stopped (' ' :: text) := fun _ => stopped_cons (by decide)
  obtain ⟨isPure, isNothrow⟩ := promises
  cases isPure with
  | false =>
      cases isNothrow with
      | false => exact ⟨.Nil, hafter⟩
      | true => exact ⟨(Writes.keyword .Nothrow hafter).space, hstop _⟩
  | true =>
      cases isNothrow with
      | false => exact ⟨(Writes.keyword .Pure hafter).space, hstop _⟩
      | true =>
          have hlast := (Writes.keyword .Nothrow hafter).space
          have hfirst := Writes.keyword .Pure (hstop ((Keyword.spelling .Nothrow).toList ++ after))
          exact ⟨(hfirst.append hlast).space, hstop _⟩

section

variable {parts : TypeId → String} {trees : TypeId → TypeTree} {signature : Signature}

def parameterLexemes (trees : TypeId → TypeTree) (parameter : ParameterType) : List Lexeme :=
  (if parameter.isRef then [word .Ref] else []) ++ (trees parameter.type).lexemes

theorem parameterLexemes_eq (trees : TypeId → TypeTree) (parameters : List ParameterType) :
    TypeTree.parameterLexemes (parameters.map fun parameter =>
      ⟨parameter.isRef, trees parameter.type, none⟩) =
      listed (parameterLexemes trees) parameters := by
  induction parameters with
  | nil => rfl
  | cons first rest ih =>
      have hseparator : separator (rest.map fun parameter : ParameterType =>
          (⟨parameter.isRef, trees parameter.type, none⟩ : Parameter TypeTree)) =
          separator rest := by cases rest <;> rfl
      simp only [List.map_cons, TypeTree.parameterLexemes, Option.toList, List.map_nil,
        List.nil_append, hseparator, ih, listed, parameterLexemes, List.append_assoc]

theorem writes_parameter {parameter : ParameterType}
    (h : program.SpellsType scopes parameter.type (parts parameter.type) (trees parameter.type))
    {after : List Char} (hafter : Stopped after) :
    Writes after (parameterLexemes trees parameter)
      ((if parameter.isRef then "ref " else "") ++ parts parameter.type).toList := by
  have htype := h.writes after hafter
  obtain ⟨type, isRef⟩ := parameter
  cases isRef with
  | false => simpa [parameterLexemes] using htype
  | true =>
      have hword := @Writes.keyword (' ' :: ((parts type).toList ++ after)) .Ref
        (stopped_cons (by decide))
      simpa [parameterLexemes, Keyword.spelling] using hword.append htype.space

theorem parameterTypes_again {parameters : List ParameterType}
    (hparameters : ∀ parameter ∈ parameters,
      program.SpellsType scopes parameter.type (parts parameter.type) (trees parameter.type))
    {others : List (Parameter TypeTree)}
    (hothers : TypeTree.bareParameters others =
      TypeTree.bareParameters (parameters.map fun parameter =>
        ⟨parameter.isRef, trees parameter.type, none⟩))
    {later : Program} (hlater : later.Extends program) (reporter : Reporter) :
    Lower.parameterTypes others ⟨later, scopes, reporter⟩ =
      (parameters, ⟨later, scopes, reporter⟩) := by
  induction parameters generalizing others with
  | nil =>
      cases others with
      | nil =>
          rw [Lower.parameterTypes]
          rfl
      | cons first rest => simp [TypeTree.bareParameters] at hothers
  | cons first rest ih =>
      cases others with
      | nil => simp [TypeTree.bareParameters] at hothers
      | cons other others =>
          obtain ⟨isRef, written, name⟩ := other
          simp only [List.map_cons, TypeTree.bareParameters, List.cons.injEq, Parameter.mk.injEq]
            at hothers
          obtain ⟨⟨rfl, hwritten, _⟩, hrest⟩ := hothers
          have hfirst := hparameters first List.mem_cons_self
          have hothers := ih (fun parameter hmem => hparameters parameter
            (List.mem_cons_of_mem _ hmem)) hrest
          rw [Lower.parameterTypes, Lower.bind_apply, hfirst.again written hwritten later hlater,
            Lower.bind_apply, hothers]
          rfl

theorem spellsType_Callable {isDelegate : Bool} {function : TypeId}
    (hfunction : program.types.shape? function = some (.Function signature))
    (hshape : program.types.shape? type =
      some (if isDelegate then .Delegate function else .Pointer function))
    (hresult : program.SpellsType scopes signature.result (parts signature.result)
      (trees signature.result))
    (hparameters : ∀ parameter ∈ signature.parameters,
      program.SpellsType scopes parameter.type (parts parameter.type) (trees parameter.type)) :
    program.SpellsType scopes type
      (TypeTable.signatureText parts (if isDelegate then " delegate" else " function") signature)
      (TypeTable.callableTree trees isDelegate signature) where
  written := by
    refine .Callable hresult.written ?_ ?_
    · intro parameter hmem
      obtain ⟨known, hknown, rfl⟩ := List.mem_map.mp hmem
      exact (hparameters known hknown).written
    · intro parameter hmem name hname
      obtain ⟨known, hknown, rfl⟩ := List.mem_map.mp hmem
      cases hname
  writes after hafter := by
    obtain ⟨hpromises, hstopped⟩ := spells_promises signature.promises hafter
    have hclose := @Spells.closed _ _ _ .ParenClose (by decide) hpromises
    have hlist := spells_listed (fun parameter hmem _ hafter =>
      writes_parameter (hparameters parameter hmem) hafter)
      (@stopped_cons ')' ((TypeTable.promisesText signature.promises).toList ++ after) (by decide))
    have hword := Writes.opening (if isDelegate then .Delegate else .Function)
      (hlist.append hclose)
    have hall := Writes.append (hresult.writes _ (stopped_cons (by decide))) hword.space
    rw [TypeTable.callableTree, TypeTree.lexemes, parameterLexemes_eq]
    cases isDelegate <;>
      simpa [TypeTable.signatureText, Sign.spelling, Keyword.spelling] using hall
  again other hother later hlater reporter := by
    cases other with
    | Callable span isDelegate' promises written parameters =>
        simp only [TypeTable.callableTree, TypeTree.bare, TypeTree.Callable.injEq, true_and] at hother
        obtain ⟨rfl, rfl, hwritten, hothers⟩ := hother
        rw [Lower.type, Lower.bind_apply, hresult.again written hwritten later hlater,
          Lower.bind_apply, parameterTypes_again hparameters hothers hlater, Lower.bind_apply,
          internType_known (hlater.types _ _ hfunction)]
        exact internType_known (hlater.types _ _ hshape) reporter
    | _ => simp [TypeTable.callableTree, TypeTree.bare] at hother

end

-- A function type is written only behind a pointer or a delegate.
theorem Writable.shape {program : Program} (hclosed : program.types.Closed) {type : TypeId}
    (h : program.Writable scopes type) {shape : Shape}
    (hshape : program.types.shape? type = some shape) :
    shape ≠ .Error ∧ ∀ signature, shape ≠ .Function signature := by
  have heq : ∀ {other : Shape}, program.types.shape? type = some other → shape = other :=
    fun hother => Option.some.inj (hshape.symm.trans hother)
  cases h with
  | Basic =>
      obtain rfl := heq (hclosed.builtin (TypeTable.shape?_ofBasic _))
      simp
  | Named _ _ hnamed _ =>
      rcases hnamed with hclass | ⟨target, halias⟩
      · obtain rfl := heq hclass
        simp
      · obtain rfl := heq halias
        simp
  | Pointer hpointer _ =>
      obtain rfl := heq hpointer
      simp
  | Array harray _ =>
      obtain rfl := heq harray
      simp
  | AssocArray hassoc _ _ =>
      obtain rfl := heq hassoc
      simp
  | @Callable isDelegate _ _ _ _ hcallable _ _ =>
      obtain rfl := heq hcallable
      cases isDelegate <;> simp

theorem Writable.ne_error {program : Program} (hclosed : program.types.Closed) {type : TypeId}
    (h : program.Writable scopes type) : type ≠ .error := by
  rintro rfl
  exact (h.shape hclosed (hclosed.builtin TypeTable.shape?_error)).1 rfl

-- The text of a type is read as its tree. Parts are older, so fewer steps are left for them.
theorem spellsType_of_writable {program : Program} (hclosed : program.types.Closed) {type : TypeId}
    (h : program.Writable scopes type) : ∀ steps, type.index < steps →
    program.SpellsType scopes type (TypeTable.textWithin program.types program.names steps type)
      (TypeTable.treeWithin program.types program.names steps type) := by
  have hsteps : ∀ {steps : Nat} {type : TypeId}, type.index < steps → ∃ rest, steps = rest + 1 ∧
      type.index ≤ rest := by
    intro steps type hlt
    exact ⟨steps - 1, by omega, by omega⟩
  induction h with
  | @Basic basic =>
      intro steps hlt
      obtain ⟨rest, rfl, _⟩ := hsteps hlt
      have hshape := TypeTable.shape_eq (hclosed.builtin (TypeTable.shape?_ofBasic basic))
      rw [TypeTable.textWithin, TypeTable.treeWithin, hshape]
      exact spellsType_Basic basic
  | @Named symbol name type hname hvalid hnamed hbinding =>
      intro steps hlt
      obtain ⟨rest, rfl, _⟩ := hsteps hlt
      have htext := NameTable.text_of_get? hname
      rw [TypeTable.textWithin, TypeTable.treeWithin]
      have hspells := spellsType_Named hvalid hbinding
      rw [← htext] at hspells
      rcases hnamed with hclass | ⟨target, halias⟩
      · rw [TypeTable.shape_eq hclass]
        exact hspells
      · rw [TypeTable.shape_eq halias]
        exact hspells
  | @Pointer target type hshape htarget ih =>
      intro steps hlt
      obtain ⟨rest, rfl, hle⟩ := hsteps hlt
      have holder := hclosed.older _ _ hshape target List.mem_cons_self
      have hpart := ih rest (by omega)
      obtain ⟨shape, htargetShape⟩ := htarget.known hclosed
      have hplain := (htarget.shape hclosed htargetShape).2
      rw [TypeTable.textWithin, TypeTable.treeWithin, TypeTable.shape_eq hshape]
      dsimp only
      rw [TypeTable.shape_eq htargetShape]
      have hpointer := hpart.pointer (htarget.ne_error hclosed) hshape
      cases shape with
      | Function signature => exact absurd rfl (hplain signature)
      | _ => exact hpointer
  | @Array element type hshape helement ih =>
      intro steps hlt
      obtain ⟨rest, rfl, hle⟩ := hsteps hlt
      have holder := hclosed.older _ _ hshape element List.mem_cons_self
      rw [TypeTable.textWithin, TypeTable.treeWithin, TypeTable.shape_eq hshape]
      exact (ih rest (by omega)).array (helement.ne_error hclosed) hshape
  | @AssocArray key value type hshape hvalue hkey ihvalue ihkey =>
      intro steps hlt
      obtain ⟨rest, rfl, hle⟩ := hsteps hlt
      have holderKey := hclosed.older _ _ hshape key (by simp [Shape.parts])
      have holderValue := hclosed.older _ _ hshape value (by simp [Shape.parts])
      rw [TypeTable.textWithin, TypeTable.treeWithin, TypeTable.shape_eq hshape]
      exact (ihvalue rest (by omega)).assocArray (ihkey rest (by omega))
        ⟨hvalue.ne_error hclosed, hkey.ne_error hclosed⟩ hshape
  | @Callable isDelegate signature function type hfunction hshape hresult hparameters ihresult
      ihparameters =>
      intro steps hlt
      obtain ⟨rest, rfl, hle⟩ := hsteps hlt
      have holder : function.index < type.index := by
        cases isDelegate <;> exact hclosed.older _ _ hshape function List.mem_cons_self
      have hpart : ∀ part ∈ (Shape.Function signature).parts, part.index < rest := by
        intro part hmem
        have := hclosed.older _ _ hfunction part hmem
        omega
      have hcallable := spellsType_Callable hfunction hshape
        (ihresult rest (hpart _ List.mem_cons_self)) fun parameter hmem =>
          ihparameters parameter hmem rest (hpart _ (List.mem_cons_of_mem _
            (List.mem_map_of_mem hmem)))
      rw [TypeTable.textWithin, TypeTable.treeWithin, TypeTable.shape_eq hshape]
      cases isDelegate with
      | false =>
          simp only [Bool.false_eq_true, if_false, TypeTable.shape_eq hfunction]
          exact hcallable
      | true =>
          simp only [if_true, TypeTable.shape_eq hfunction]
          exact hcallable

end

end Program

end EffectLint
