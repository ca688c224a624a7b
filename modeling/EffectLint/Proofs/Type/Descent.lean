import EffectLint.Proofs.Type.Asked

/-!
What is worked out about a type by following it down to its parts. Without any bound on the steps
these recursions come to an end, since the parts of a type have smaller numbers, and they come to
what the table answers.
-/

namespace EffectLint

-- A recursion over types: the calls that are made for a type, and the answer that is made of theirs.
structure Descent (β : Type) where
  calls : TypeId → List TypeId
  answer : (TypeId → β) → TypeId → β
  -- nothing but the calls is looked at
  answer_congr : ∀ {given given' : TypeId → β} {type : TypeId},
    (∀ called ∈ calls type, given called = given' called) → answer given type = answer given' type

namespace Descent

variable {β : Type}

-- The recursion comes to an end with an answer, and it comes to types of the table only.
inductive Ends (table : TypeTable) (descent : Descent β) : TypeId → β → Prop where
  | intro {type : TypeId} {given : TypeId → β} (hknown : table.Known type)
      (hcalls : ∀ called ∈ descent.calls type, Ends table descent called (given called)) :
      Ends table descent type (descent.answer given type)

variable {table : TypeTable} {descent : Descent β} {type : TypeId}

theorem Ends.unique {answer answer' : β} (h : descent.Ends table type answer)
    (h' : descent.Ends table type answer') : answer = answer' := by
  induction h generalizing answer' with
  | intro _ _ ih =>
      cases h' with
      | intro _ hcalls' =>
          exact descent.answer_congr fun called hmem => ih called hmem (hcalls' called hmem)

-- The calls lead to smaller numbers.
def Falls (table : TypeTable) (descent : Descent β) : Prop :=
  ∀ type, table.Known type → ∀ called ∈ descent.calls type,
    table.Known called ∧ called.index < type.index

-- A recursion with bounded steps needs no more steps than the number of the type.
theorem Falls.ends_within {within : Nat → TypeId → β} (hfalls : descent.Falls table)
    (hwithin : ∀ steps type, within (steps + 1) type = descent.answer (within steps) type)
    (hknown : table.Known type) {steps : Nat} (hsteps : type.index < steps) :
    descent.Ends table type (within steps type) := by
  induction steps generalizing type with
  | zero => omega
  | succ steps ih =>
      rw [hwithin]
      refine .intro hknown fun called hmem => ?_
      obtain ⟨hcalled, hlt⟩ := hfalls type hknown called hmem
      exact ih hcalled (by omega)

theorem Falls.ends_iff {within : Nat → TypeId → β} (hfalls : descent.Falls table)
    (hwithin : ∀ steps type, within (steps + 1) type = descent.answer (within steps) type)
    (hknown : table.Known type) {answer : β} :
    descent.Ends table type answer ↔ within (type.index + 1) type = answer := by
  have hends := hfalls.ends_within hwithin hknown (Nat.lt_succ_self _)
  constructor
  · intro h
    exact hends.unique h
  · rintro rfl
    exact hends

end Descent

namespace TypeTable

-- Alias after alias.
def following (table : TypeTable) : Descent TypeId where
  calls type :=
    match table.shape type with
    | .Alias _ target => [target]
    | _ => []
  answer given type :=
    match table.shape type with
    | .Alias _ target => given target
    | _ => type
  answer_congr {given given' type} h := by
    cases hshape : table.shape type with
    | Alias name target => exact h target (by simp [hshape])
    | _ => rfl

-- All elements of a tuple, though no more are asked behind one that refers to something.
def exposing (table : TypeTable) : Descent Bool where
  calls type :=
    match table.resolvedShape type with
    | .Tuple elements => elements
    | _ => []
  answer given type :=
    match table.resolvedShape type with
    | .Pointer _ | .Array _ | .AssocArray _ _ | .Class _ | .Delegate _ => true
    | .Tuple elements => elements.any given
    | .Basic _ | .Null | .Error | .Function _ | .Alias _ _ => false
  answer_congr {given given' type} h := by
    cases hshape : table.resolvedShape type with
    | Tuple elements =>
        rw [hshape] at h
        exact any_congr_of_mem h
    | _ => rfl

section Writing

variable (table : TypeTable) (names : NameTable)

-- A function behind a pointer or in a delegate is written by itself, with a keyword.
def targetParts (target : TypeId) : List TypeId :=
  match table.shape target with
  | .Function signature => (Shape.Function signature).parts
  | _ => [target]

def targetText (text : TypeId → String) (keyword : String) (wrap : String → String)
    (target : TypeId) : String :=
  match table.shape target with
  | .Function signature => signatureText text keyword signature
  | _ => wrap (text target)

variable {table} {text text' : TypeId → String}

theorem signatureText_congr {signature : Signature} (keyword : String)
    (h : ∀ part ∈ (Shape.Function signature).parts, text part = text' part) :
    signatureText text keyword signature = signatureText text' keyword signature := by
  obtain ⟨hresult, hparameters⟩ := List.forall_mem_cons.mp h
  rw [List.forall_mem_map] at hparameters
  simp only [signatureText, hresult]
  rw [List.map_congr_left fun parameter hmem => by rw [hparameters parameter hmem]]

theorem targetText_congr {target : TypeId} (keyword : String) (wrap : String → String)
    (h : ∀ part ∈ table.targetParts target, text part = text' part) :
    table.targetText text keyword wrap target = table.targetText text' keyword wrap target := by
  unfold targetParts at h
  unfold targetText
  split at h
  · exact signatureText_congr keyword h
  · exact congrArg wrap (h target List.mem_cons_self)

variable (table)

-- Part after part, but nothing of what an alias stands for.
def writing : Descent String where
  calls type :=
    match table.shape type with
    | .Alias _ _ => []
    | .Pointer target | .Delegate target => table.targetParts target
    | shape => shape.parts
  answer text type :=
    match table.shape type with
    | .Basic type => type.name
    | .Null => "typeof(null)"
    | .Error => "__error"
    | .Class name | .Alias name _ => names.text name
    | .Pointer target => table.targetText text " function" (· ++ "*") target
    | .Array element => text element ++ "[]"
    | .AssocArray key value => text value ++ "[" ++ text key ++ "]"
    | .Function signature => signatureText text "" signature
    | .Delegate function => table.targetText text " delegate" ("delegate " ++ ·) function
    | .Tuple elements => "tuple(" ++ String.intercalate ", " (elements.map text) ++ ")"
  answer_congr {text text' type} h := by
    generalize table.shape type = shape at h ⊢
    cases shape with
    | Pointer target => exact targetText_congr " function" (· ++ "*") h
    | Delegate function => exact targetText_congr " delegate" ("delegate " ++ ·) h
    | Function signature => exact signatureText_congr "" h
    | Array element => exact congrArg (· ++ "[]") (h element List.mem_cons_self)
    | AssocArray key value =>
        have hkey : text key = text' key := h key List.mem_cons_self
        have hvalue : text value = text' value := h value (List.mem_cons_of_mem _ List.mem_cons_self)
        simp only [hkey, hvalue]
    | Tuple elements =>
        have helements : elements.map text = elements.map text' := List.map_congr_left h
        simp only [helements]
    | _ => rfl

end Writing

namespace Closed

variable {table : TypeTable} {type : TypeId} (hclosed : table.Closed)

include hclosed

theorem known_part {shape : Shape} (hshape : table.shape? type = some shape) {part : TypeId}
    (hpart : part ∈ shape.parts) : table.Known part ∧ part.index < type.index :=
  ⟨hclosed.part_known hshape hpart, hclosed.older type shape hshape part hpart⟩

theorem falls_following : table.following.Falls table := by
  rintro type ⟨shape, hshape⟩ called hcalled
  simp only [following, shape_eq hshape] at hcalled
  split at hcalled
  · exact hclosed.known_part hshape hcalled
  · cases hcalled

theorem falls_exposing : table.exposing.Falls table := by
  intro type hknown called hcalled
  have hpart : called ∈ (table.resolvedShape type).parts := by
    simp only [exposing] at hcalled
    split at hcalled
    · next elements hshape =>
      rw [hshape]
      exact hcalled
    · cases hcalled
  exact ⟨hclosed.resolved_part hknown hpart, hclosed.resolved_part_lt hknown hpart⟩

theorem targetParts_le {target part : TypeId} (hknown : table.Known target)
    (hpart : part ∈ table.targetParts target) : table.Known part ∧ part.index ≤ target.index := by
  obtain ⟨shape, hshape⟩ := hknown
  simp only [targetParts, shape_eq hshape] at hpart
  split at hpart
  · obtain ⟨hpart, hlt⟩ := hclosed.known_part hshape hpart
    exact ⟨hpart, Nat.le_of_lt hlt⟩
  · rw [List.mem_singleton.mp hpart]
    exact ⟨⟨shape, hshape⟩, Nat.le_refl _⟩

theorem falls_writing (names : NameTable) : (table.writing names).Falls table := by
  rintro type ⟨shape, hshape⟩ called hcalled
  simp only [writing, shape_eq hshape] at hcalled
  have hbehind : ∀ target ∈ shape.parts, called ∈ table.targetParts target →
      table.Known called ∧ called.index < type.index := by
    intro target hmem hcalled
    obtain ⟨hknown, hlt⟩ := hclosed.known_part hshape hmem
    obtain ⟨hcalled, hle⟩ := hclosed.targetParts_le hknown hcalled
    exact ⟨hcalled, Nat.lt_of_le_of_lt hle hlt⟩
  cases shape with
  | Alias name target => cases hcalled
  | Pointer target | Delegate target => exact hbehind target List.mem_cons_self hcalled
  | _ => exact hclosed.known_part hshape hcalled

theorem shape?_resolve_ne_Alias (hknown : table.Known type) (name : Symbol) (target : TypeId) :
    table.shape? (table.resolve type) ≠ some (.Alias name target) := by
  intro halias
  have hfinal := (hclosed.resolveWithin_eq hknown _ (Nat.lt_succ_self _)).2
  exact hfinal name target (shape_eq halias)

theorem resolve_resolve (hknown : table.Known type) :
    table.resolve (table.resolve type) = table.resolve type := by
  obtain ⟨shape, hshape⟩ := hclosed.resolve_known hknown
  refine resolve_of_shape? hshape fun name target heq => ?_
  exact hclosed.shape?_resolve_ne_Alias hknown name target (heq ▸ hshape)

-- Each recursion comes to an end for every type of the table, with the answer of the table.
theorem ends_following_iff (hknown : table.Known type) {last : TypeId} :
    table.following.Ends table type last ↔ table.resolve type = last :=
  hclosed.falls_following.ends_iff (fun _ _ => rfl) hknown

theorem ends_exposing_iff (hknown : table.Known type) {answer : Bool} :
    table.exposing.Ends table type answer ↔ table.hasMutableIndirection type = answer :=
  hclosed.falls_exposing.ends_iff (fun _ _ => rfl) hknown

theorem ends_writing_iff (names : NameTable) (hknown : table.Known type) {text : String} :
    (table.writing names).Ends table type text ↔ table.text names type = text :=
  (hclosed.falls_writing names).ends_iff (fun _ _ => rfl) hknown

end Closed

end TypeTable

end EffectLint
