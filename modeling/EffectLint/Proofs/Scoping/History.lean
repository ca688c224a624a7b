import EffectLint.Proofs.Scoping.Growth
import EffectLint.Proofs.Type.Growth
import Mathlib.Data.List.Induction
import Mathlib.Order.WellFounded

/-!
Names and scopes over whole runs. The symbols number the names in the order in which these were first
met, and a name stands for what was defined last in the innermost scope that is open and knows it.
Which scope a definition was made in, and whether that one is still open, is read off the history of
the run alone, by counting the scopes that are open.
-/

namespace EffectLint

-- The names that have symbols, and the scopes that are open.
structure Naming where
  names : NameTable
  scopes : Scopes

namespace Naming

inductive Operation where
  -- give a name its symbol
  | Insert (name : String)
  -- ask for the symbol of a name
  | Find (name : String)
  | Push
  | Pop
  | Define (symbol : Symbol) (binding : Binding)
  -- ask what a symbol stands for
  | Lookup (symbol : Symbol)

def start : Naming :=
  ⟨.empty, .empty⟩

def act (naming : Naming) : Operation → Naming
  | .Insert name => { naming with names := (naming.names.insert name).2 }
  | .Push => { naming with scopes := naming.scopes.push }
  | .Pop => { naming with scopes := naming.scopes.pop }
  | .Define symbol binding => { naming with scopes := naming.scopes.define symbol binding }
  | .Find _ | .Lookup _ => naming

def perform (naming : Naming) (operations : List Operation) : Naming :=
  operations.foldl act naming

theorem perform_append (naming : Naming) (first second : List Operation) :
    naming.perform (first ++ second) = (naming.perform first).perform second :=
  List.foldl_append

def Operation.inserted? : Operation → Option String
  | .Insert name => some name
  | _ => none

-- The names that were given symbols, with repetitions.
def inserted (history : List Operation) : List String :=
  history.filterMap Operation.inserted?

-- The number of scopes that are open within that of the module. The latter is never left.
def Operation.levelBehind (level : Nat) : Operation → Nat
  | .Push => level + 1
  | .Pop => level - 1
  | _ => level

def level (history : List Operation) : Nat :=
  history.foldl Operation.levelBehind 0

-- A definition in a scope that is still open. It was made behind `before`, and ever since at least as
-- many scopes have been open as there were then.
structure Stands (history before : List Operation) (symbol : Symbol) (binding : Binding) : Prop where
  made : before ++ [.Define symbol binding] <+: history
  stays : ∀ front, before <+: front → front <+: history → level before ≤ level front

-- The definition that decides: of those that stand in the innermost scope, the last one.
def Decides (history before : List Operation) (symbol : Symbol) (binding : Binding) : Prop :=
  Stands history before symbol binding ∧
    ∀ other binding', Stands history other symbol binding' →
      level other < level before ∨ level other = level before ∧ other.length ≤ before.length

-- Every scope that is entered is left, and none else.
inductive Balanced : List Operation → Prop where
  | Nil : Balanced []
  | Insert (name : String) : Balanced [.Insert name]
  | Find (name : String) : Balanced [.Find name]
  | Define (symbol : Symbol) (binding : Binding) : Balanced [.Define symbol binding]
  | Lookup (symbol : Symbol) : Balanced [.Lookup symbol]
  | Append {first second} : Balanced first → Balanced second → Balanced (first ++ second)
  | Scope {inside} : Balanced inside → Balanced (.Push :: inside ++ [.Pop])

theorem perform_concat (history : List Operation) (operation : Operation) :
    start.perform (history ++ [operation]) = (start.perform history).act operation :=
  perform_append start history [operation]

theorem eraseDups_concat {α : Type} [DecidableEq α] (list : List α) (value : α) :
    (list ++ [value]).eraseDups = list.eraseDups ++ if value ∈ list then [] else [value] := by
  rw [List.eraseDups_append]
  by_cases hmem : value ∈ list <;> simp [List.removeAll, List.eraseDups_cons, hmem]

theorem inserted_concat (history : List Operation) (operation : Operation) :
    inserted (history ++ [operation]) = inserted history ++ operation.inserted?.toList := by
  rw [inserted, List.filterMap_append]
  cases operation <;> rfl

-- The table has the names in the order in which they were first inserted.
theorem names_toList (history : List Operation) :
    (start.perform history).names.toList = (inserted history).eraseDups := by
  induction history using List.reverseRecOn with
  | nil => rfl
  | append_singleton history operation ih =>
      rw [perform_concat, inserted_concat]
      cases operation with
      | Insert name =>
          calc ((start.perform history).names.insert name).2.toList
            _ = (start.perform history).names.toList ++
                if name ∈ (start.perform history).names.toList then [] else [name] :=
              Numbering.toList_insert _ name
            _ = (inserted history).eraseDups ++ if name ∈ inserted history then [] else [name] := by
              simp only [ih, List.mem_eraseDups]
            _ = (inserted history ++ [name]).eraseDups := (eraseDups_concat _ name).symm
      | _ => exact ih.trans (congrArg List.eraseDups (List.append_nil _).symm)

theorem get?_perform (history : List Operation) (symbol : Symbol) :
    (start.perform history).names.get? symbol = (inserted history).eraseDups[symbol.index]? := by
  rw [← names_toList, NameTable.toList, Array.getElem?_toList]
  rfl

theorem mem_inserted_iff {history : List Operation} {name : String} :
    name ∈ inserted history ↔ .Insert name ∈ history := by
  rw [inserted, List.mem_filterMap]
  constructor
  · rintro ⟨operation, hmem, hname⟩
    cases operation <;> cases hname
    exact hmem
  · intro hmem
    exact ⟨.Insert name, hmem, rfl⟩

theorem isSome_find?_perform (history : List Operation) (name : String) :
    ((start.perform history).names.find? name).isSome = true ↔ .Insert name ∈ history := by
  rw [← mem_inserted_iff, ← List.mem_eraseDups, ← names_toList, NameTable.find?, Option.isSome_map,
    ← Option.ne_none_iff_isSome, Ne, Numbering.find?_eq_none_iff, not_not]
  exact Array.mem_def

section Standing

variable {history before : List Operation} {operation : Operation} {symbol : Symbol}
  {binding : Binding} {place : Nat}

theorem level_concat (history : List Operation) (operation : Operation) :
    level (history ++ [operation]) = operation.levelBehind (level history) :=
  List.foldl_append

theorem Stands.length_lt (h : Stands history before symbol binding) :
    before.length < history.length := by
  have hle := h.made.length_le
  rwa [List.length_append] at hle

theorem Stands.level_le (h : Stands history before symbol binding) :
    level before ≤ level history :=
  h.stays history ((List.prefix_append _ _).trans h.made) (List.prefix_refl _)

-- What one more operation does to the definitions that stand.
theorem stands_concat_iff : Stands (history ++ [operation]) before symbol binding ↔
    before = history ∧ operation = .Define symbol binding ∨
      Stands history before symbol binding ∧ level before ≤ level (history ++ [operation]) := by
  constructor
  · intro h
    rcases List.prefix_concat_iff.mp h.made with hlast | hmade
    · obtain ⟨rfl, hoperation⟩ := List.append_inj' hlast rfl
      exact .inl ⟨rfl, (List.cons.inj hoperation).1.symm⟩
    · refine .inr ⟨⟨hmade, fun front hbefore hfront => ?_⟩, h.level_le⟩
      exact h.stays front hbefore (hfront.trans (List.prefix_append _ _))
  · rintro (⟨rfl, rfl⟩ | ⟨h, hlevel⟩)
    · refine ⟨List.prefix_refl _, fun front hbefore hfront => ?_⟩
      rcases List.prefix_concat_iff.mp hfront with rfl | hfront
      · exact (level_concat before (.Define symbol binding)).ge
      · exact Nat.le_of_eq (congrArg level (hbefore.eq_of_length_le hfront.length_le))
    · refine ⟨h.made.trans (List.prefix_append _ _), fun front hbefore hfront => ?_⟩
      rcases List.prefix_concat_iff.mp hfront with rfl | hfront
      · exact hlevel
      · exact h.stays front hbefore hfront

-- The definition that was made last of those that stand in the scope at a level.
def Latest (history : List Operation) (place : Nat) (symbol : Symbol) (binding : Binding) : Prop :=
  ∃ before, (Stands history before symbol binding ∧ level before = place) ∧
    ∀ other binding', Stands history other symbol binding' ∧ level other = place →
      other.length ≤ before.length

-- Where one definition stands, one is the last.
theorem exists_latest (h : Stands history before symbol binding) :
    ∃ binding', Latest history (level before) symbol binding' := by
  let standing : Set (List Operation) :=
    { other | ∃ binding', Stands history other symbol binding' ∧ level other = level before }
  obtain ⟨last, ⟨binding', hlast⟩, hleast⟩ :=
    (measure fun other : List Operation => history.length - other.length).wf.has_min standing
      ⟨before, binding, h, rfl⟩
  refine ⟨binding', last, hlast, fun other binding'' hother => ?_⟩
  have hnot : ¬history.length - other.length < history.length - last.length :=
    hleast other ⟨binding'', hother⟩
  have hlt := hother.1.length_lt
  omega

-- Nothing but a definition of the symbol in a scope matters to what was defined last there.
theorem latest_concat_iff (hplace : place ≤ level (history ++ [operation]))
    (hother : ∀ binding, operation = .Define symbol binding → level history ≠ place) :
    Latest (history ++ [operation]) place symbol binding ↔ Latest history place symbol binding := by
  have hsame : ∀ before binding,
      Stands (history ++ [operation]) before symbol binding ∧ level before = place ↔
        Stands history before symbol binding ∧ level before = place := by
    intro before binding
    rw [stands_concat_iff]
    constructor
    · rintro ⟨⟨rfl, rfl⟩ | ⟨h, -⟩, hlevel⟩
      · exact absurd hlevel (hother binding rfl)
      · exact ⟨h, hlevel⟩
    · rintro ⟨h, rfl⟩
      exact ⟨.inr ⟨h, hplace⟩, rfl⟩
  simp only [Latest, hsame]

theorem latest_define_iff {defined : Binding} :
    Latest (history ++ [.Define symbol defined]) (level history) symbol binding ↔
      binding = defined := by
  have hnew : Stands (history ++ [.Define symbol defined]) history symbol defined :=
    stands_concat_iff.mpr (.inl ⟨rfl, rfl⟩)
  constructor
  · rintro ⟨before, ⟨h, -⟩, hlast⟩
    rcases stands_concat_iff.mp h with ⟨-, hdefine⟩ | ⟨hold, -⟩
    · cases hdefine
      rfl
    · exact absurd (hlast history defined ⟨hnew, rfl⟩) (Nat.not_le_of_lt hold.length_lt)
  · rintro rfl
    refine ⟨history, ⟨hnew, rfl⟩, fun other binding' hother => ?_⟩
    have hlt := hother.1.length_lt
    rw [List.length_append, List.length_singleton] at hlt
    omega

end Standing

section Lookup

variable {history : List Operation} {operation : Operation} {symbol : Symbol} {binding : Binding}
  {scope : Scope} {outer scopes : List Scope}

-- Every scope knows what was defined last in it. Its level is the number of scopes under it.
def Reflects (history : List Operation) : List Scope → Prop
  | [] => True
  | scope :: outer =>
      (∀ symbol binding, scope.lookup symbol = some binding ↔
        Latest history outer.length symbol binding) ∧ Reflects history outer

namespace Reflects

theorem lookup_eq_none_iff (h : Reflects history (scope :: outer)) :
    scope.lookup symbol = none ↔
      ∀ before binding, Stands history before symbol binding → level before ≠ outer.length := by
  constructor
  · intro hnone before binding hstands hlevel
    obtain ⟨binding', hlatest⟩ := exists_latest hstands
    rw [hlevel, ← h.1, hnone] at hlatest
    cases hlatest
  · intro hnone
    cases hlookup : scope.lookup symbol with
    | none => rfl
    | some binding =>
        obtain ⟨before, ⟨hstands, hlevel⟩, -⟩ := (h.1 symbol binding).mp hlookup
        exact absurd hlevel (hnone before binding hstands)

theorem findSome?_eq_none_iff (h : Reflects history scopes) :
    scopes.findSome? (·.lookup symbol) = none ↔
      ∀ before binding, Stands history before symbol binding → scopes.length ≤ level before := by
  induction scopes with
  | nil => simp
  | cons scope outer ih =>
      rw [List.findSome?_eq_none_iff, List.forall_mem_cons, ← List.findSome?_eq_none_iff, ih h.2,
        h.lookup_eq_none_iff, List.length_cons]
      constructor
      · rintro ⟨hhere, houter⟩ before binding hstands
        have hne := hhere before binding hstands
        have hle := houter before binding hstands
        omega
      · intro hall
        refine ⟨fun before binding hstands => ?_, fun before binding hstands => ?_⟩
        · exact Nat.ne_of_gt (hall before binding hstands)
        · exact Nat.le_of_succ_le (hall before binding hstands)

-- The first scope that knows a symbol has the definition that decides among those in these scopes.
theorem findSome?_eq_some_iff (h : Reflects history scopes) :
    scopes.findSome? (·.lookup symbol) = some binding ↔
      ∃ before, Stands history before symbol binding ∧ level before < scopes.length ∧
        ∀ other binding', Stands history other symbol binding' → level other < scopes.length →
          level other < level before ∨ level other = level before ∧ other.length ≤ before.length := by
  induction scopes with
  | nil => simp
  | cons scope outer ih =>
      rw [List.findSome?_cons, List.length_cons]
      cases hlookup : scope.lookup symbol with
      | some found =>
          obtain ⟨last, ⟨hlast, hlevel⟩, hall⟩ := (h.1 symbol found).mp hlookup
          constructor
          · intro hfound
            cases hfound
            refine ⟨last, hlast, by omega, fun other binding' hother hlt => ?_⟩
            by_cases hhere : level other = outer.length
            · exact .inr ⟨hhere.trans hlevel.symm, hall other binding' ⟨hother, hhere⟩⟩
            · exact .inl (by omega)
          · rintro ⟨before, hbefore, hlt, hdecides⟩
            have hhere : level before = outer.length := by
              rcases hdecides last found hlast (by omega) with hless | ⟨hsame, -⟩ <;> omega
            have hlatest : Latest history outer.length symbol binding := by
              refine ⟨before, ⟨hbefore, hhere⟩, fun other binding' ⟨hother, hsame⟩ => ?_⟩
              rcases hdecides other binding' hother (by omega) with hless | ⟨-, hle⟩
              · omega
              · exact hle
            exact hlookup.symm.trans ((h.1 symbol binding).mpr hlatest)
      | none =>
          have hnone := h.lookup_eq_none_iff.mp hlookup
          have hlt : ∀ other binding', Stands history other symbol binding' →
              (level other < outer.length + 1 ↔ level other < outer.length) := by
            intro other binding' hother
            have hne := hnone other binding' hother
            omega
          rw [ih h.2]
          refine exists_congr fun before => ⟨?_, ?_⟩
          · rintro ⟨hbefore, hless, hdecides⟩
            refine ⟨hbefore, by omega, fun other binding' hother hle => ?_⟩
            exact hdecides other binding' hother ((hlt other binding' hother).mp hle)
          · rintro ⟨hbefore, hless, hdecides⟩
            refine ⟨hbefore, (hlt before binding hbefore).mp hless, fun other binding' hother hle => ?_⟩
            exact hdecides other binding' hother (by omega)

-- An operation changes nothing in the scopes that it leaves open and does not define anything in.
theorem concat (h : Reflects history scopes)
    (hopen : scopes.length ≤ level (history ++ [operation]) + 1)
    (hother : ∀ symbol binding, operation = .Define symbol binding →
      scopes.length ≤ level history) : Reflects (history ++ [operation]) scopes := by
  induction scopes with
  | nil => trivial
  | cons scope outer ih =>
      rw [List.length_cons] at hopen hother
      refine ⟨fun symbol binding => ?_, ih h.2 (by omega) fun symbol binding hdefine => ?_⟩
      · rw [h.1, latest_concat_iff (by omega)]
        intro binding hdefine
        have hlt := hother symbol binding hdefine
        omega
      · have hlt := hother symbol binding hdefine
        omega

end Reflects

-- All open scopes: that of the module and as many as were entered and not left.
structure Open (history : List Operation) (scopes : Scopes) : Prop where
  length : scopes.stack.length = level history + 1
  reflects : Reflects history scopes.stack

namespace Open

variable {scopes : Scopes}

theorem keep (h : Open history scopes)
    (hlevel : level (history ++ [operation]) = level history)
    (hother : ∀ symbol binding, operation ≠ .Define symbol binding) :
    Open (history ++ [operation]) scopes where
  length := h.length.trans (congrArg (· + 1) hlevel.symm)
  reflects := h.reflects.concat (by rw [hlevel]; exact h.length.le)
    fun symbol binding hdefine => absurd hdefine (hother symbol binding)

theorem push (h : Open history scopes) : Open (history ++ [.Push]) scopes.push := by
  have hlevel : level (history ++ [.Push]) = level history + 1 := level_concat history .Push
  have hlength := h.length
  refine ⟨by rw [hlevel]; exact congrArg (· + 1) hlength, fun symbol binding => ?_,
    h.reflects.concat (by omega) nofun⟩
  -- nothing stands in the new scope, since fewer scopes have been open so far
  refine iff_of_false (by simp) ?_
  rintro ⟨before, ⟨hstands, hplace⟩, -⟩
  rcases stands_concat_iff.mp hstands with ⟨-, hpush⟩ | ⟨hstands, -⟩
  · cases hpush
  · have hle := hstands.level_le
    change level before = scopes.stack.length at hplace
    omega

theorem pop (h : Open history scopes) : Open (history ++ [.Pop]) scopes.pop := by
  have hlevel : level (history ++ [.Pop]) = level history - 1 := level_concat history .Pop
  have hlength := h.length
  obtain ⟨inner, module⟩ := scopes
  cases inner with
  | nil =>
      have hmodule : level history = 0 := (Nat.succ.inj hlength).symm
      exact h.keep (by rw [hlevel, hmodule]) nofun
  | cons scope outer =>
      have hbelow : (outer ++ [module]).length = level (history ++ [.Pop]) + 1 := by
        change (outer ++ [module]).length + 1 = _ at hlength
        rw [List.length_append, List.length_singleton] at hlength ⊢
        omega
      exact ⟨hbelow, h.reflects.2.concat hbelow.le nofun⟩

theorem define (h : Open history scopes) (symbol : Symbol) (defined : Binding) :
    Open (history ++ [.Define symbol defined]) (scopes.define symbol defined) := by
  have hlevel : level (history ++ [.Define symbol defined]) = level history :=
    level_concat history (.Define symbol defined)
  obtain ⟨hlength, hreflects⟩ := h
  rw [Scopes.stack_eq] at hlength hreflects
  have hbelow : scopes.below.length = level history := Nat.succ.inj hlength
  constructor
  · rw [Scopes.stack_define, hlevel]
    exact hlength
  · rw [Scopes.stack_define]
    refine ⟨fun other binding => ?_, hreflects.2.concat (by omega) fun _ _ _ => hbelow.le⟩
    rw [hbelow]
    by_cases hsymbol : other = symbol
    · subst hsymbol
      rw [latest_define_iff, List.lookup_cons_self, Option.some.injEq]
      exact eq_comm
    · have hne : (other == symbol) = false := beq_eq_false_iff_ne.mpr hsymbol
      rw [List.lookup_cons, hne, latest_concat_iff hlevel.ge]
      · exact hbelow ▸ hreflects.1 other binding
      · intro binding hdefine
        cases hdefine
        exact absurd rfl hsymbol

end Open

theorem open_perform (history : List Operation) : Open history (start.perform history).scopes := by
  induction history using List.reverseRecOn with
  | nil =>
      refine ⟨rfl, fun symbol binding => ?_, trivial⟩
      refine iff_of_false (by simp [Scopes.empty, start, perform]) ?_
      rintro ⟨before, ⟨hstands, -⟩, -⟩
      exact absurd hstands.length_lt (Nat.not_lt_zero _)
  | append_singleton history operation ih =>
      rw [perform_concat]
      cases operation with
      | Push => exact ih.push
      | Pop => exact ih.pop
      | Define symbol binding => exact ih.define symbol binding
      | Insert _ | Find _ | Lookup _ => exact ih.keep (level_concat history _) nofun

theorem lookup_eq_some_iff (history : List Operation) :
    (start.perform history).scopes.lookup symbol = some binding ↔
      ∃ before, Decides history before symbol binding := by
  obtain ⟨hlength, hreflects⟩ := open_perform history
  have hlt : ∀ {other binding'}, Stands history other symbol binding' →
      level other < (start.perform history).scopes.stack.length := by
    intro other binding' hother
    rw [hlength]
    exact Nat.lt_succ_of_le hother.level_le
  rw [Scopes.lookup_eq, hreflects.findSome?_eq_some_iff]
  refine exists_congr fun before => ⟨?_, ?_⟩
  · rintro ⟨hbefore, -, hdecides⟩
    exact ⟨hbefore, fun other binding' hother => hdecides other binding' hother (hlt hother)⟩
  · rintro ⟨hbefore, hdecides⟩
    exact ⟨hbefore, hlt hbefore, fun other binding' hother _ => hdecides other binding' hother⟩

theorem lookup_eq_none_iff (history : List Operation) :
    (start.perform history).scopes.lookup symbol = none ↔
      ∀ before binding, ¬Stands history before symbol binding := by
  obtain ⟨hlength, hreflects⟩ := open_perform history
  rw [Scopes.lookup_eq, hreflects.findSome?_eq_none_iff, hlength]
  refine forall_congr' fun before => forall_congr' fun binding => ?_
  constructor
  · intro hall hstands
    exact Nat.not_succ_le_self _ ((hall hstands).trans hstands.level_le)
  · intro hnone hstands
    exact absurd hstands hnone

end Lookup

section Runs

variable {naming : Naming} {inside : List Operation}

theorem keeps_act (naming : Naming) (operation : Operation) :
    naming.names.names.Keeps (naming.act operation).names.names := by
  cases operation with
  | Insert name => exact Numbering.keeps_insert
  | Find _ | Push | Pop | Define _ _ | Lookup _ => exact .refl _

theorem keeps_perform (naming : Naming) (operations : List Operation) :
    naming.names.names.Keeps (naming.perform operations).names.names := by
  induction operations generalizing naming with
  | nil => exact .refl _
  | cons operation rest ih => exact (keeps_act naming operation).trans (ih (naming.act operation))

-- A scope that is entered and left around what leaves the scopes under it as they are.
theorem perform_scope (hbelow : ((naming.act .Push).perform inside).scopes.below =
    (naming.act .Push).scopes.below) :
    (naming.perform (.Push :: inside ++ [.Pop])).scopes = naming.scopes := by
  rw [List.cons_append, perform, List.foldl_cons, List.foldl_append]
  exact Scopes.pop_eq_of_below hbelow

theorem Balanced.below_eq (h : Balanced inside) (naming : Naming) :
    (naming.perform inside).scopes.below = naming.scopes.below := by
  induction h generalizing naming with
  | Nil | Insert _ | Find _ | Lookup _ => rfl
  | Define symbol binding => exact Scopes.below_define naming.scopes symbol binding
  | Append _ _ ihfirst ihsecond =>
      rw [perform_append, ihsecond, ihfirst]
  | Scope _ ih => rw [perform_scope (ih _)]

end Runs

-- Names and scopes at every moment of every run. The symbols number the names as they were first
-- inserted, and keep them; only names that were inserted are found. A symbol stands for what its
-- deciding definition says, and for nothing where no definition stands. What is done in a scope that
-- is left again does not matter to any symbol.
theorem names_stay_and_scopes_nest :
    (∀ history symbol, (start.perform history).names.get? symbol =
      (inserted history).eraseDups[symbol.index]?) ∧
    (∀ history one other name, (start.perform history).names.get? one = some name →
      (start.perform history).names.get? other = some name → one = other) ∧
    (∀ history name, (start.perform (history ++ [.Insert name])).names.get?
      ((start.perform history).names.insert name).1 = some name) ∧
    (∀ history more symbol name, (start.perform history).names.get? symbol = some name →
      (start.perform (history ++ more)).names.get? symbol = some name) ∧
    (∀ history name, ((start.perform history).names.find? name).isSome = true ↔
      .Insert name ∈ history) ∧
    (∀ history name symbol, (start.perform history).names.find? name = some symbol ↔
      (start.perform history).names.get? symbol = some name) ∧
    (∀ history name, start.perform (history ++ [.Find name]) = start.perform history) ∧
    (∀ history symbol binding, (start.perform history).scopes.lookup symbol = some binding ↔
      ∃ before, Decides history before symbol binding) ∧
    (∀ history symbol, (start.perform history).scopes.lookup symbol = none ↔
      ∀ before binding, ¬Stands history before symbol binding) ∧
    ∀ history inside symbol, Balanced inside →
      (start.perform (history ++ (.Push :: inside ++ [.Pop]))).scopes.lookup symbol =
        (start.perform history).scopes.lookup symbol := by
  refine ⟨get?_perform, fun _ _ _ _ => NameTable.eq_of_get?, fun history name => ?_,
    fun history more symbol name => ?_, isSome_find?_perform,
    fun _ _ _ => ⟨NameTable.get?_of_find?, NameTable.find?_of_get?⟩,
    fun history name => perform_concat history (.Find name),
    fun history _ _ => lookup_eq_some_iff history, fun history _ => lookup_eq_none_iff history,
    fun history inside symbol hinside => ?_⟩
  · rw [perform_concat]
    exact Numbering.get?_insert
  · rw [perform_append]
    exact keeps_perform (start.perform history) more symbol.index name
  · rw [perform_append, perform_scope (hinside.below_eq _)]

-- The scope of the module is not left. The name is defined there, and twice in the scope in it.
def shadowed : List Operation :=
  [.Pop, .Insert "x", .Define ⟨0⟩ (.Variable ⟨0⟩), .Push, .Define ⟨0⟩ (.Variable ⟨1⟩),
    .Define ⟨0⟩ (.Variable ⟨2⟩)]

def shadowing : List Operation :=
  [.Define ⟨0⟩ (.Variable ⟨3⟩)] ++ [.Insert "y"] ++ (.Push :: [.Define ⟨0⟩ (.Variable ⟨4⟩)] ++ [.Pop])

theorem names_stay_and_scopes_nest_in_shadowed :
    Balanced shadowing ∧ (∃ before, Decides shadowed before ⟨0⟩ (.Variable ⟨2⟩)) ∧
      (start.perform (shadowed ++ (.Push :: shadowing ++ [.Pop]))).scopes.lookup ⟨0⟩ =
        some (.Variable ⟨2⟩) := by
  obtain ⟨-, -, -, -, -, -, -, hlookup, -, hscope⟩ := names_stay_and_scopes_nest
  have hbalanced : Balanced shadowing :=
    .Append (.Append (.Define _ _) (.Insert _)) (.Scope (.Define _ _))
  have hfound : (start.perform shadowed).scopes.lookup ⟨0⟩ = some (.Variable ⟨2⟩) := by decide
  exact ⟨hbalanced, (hlookup shadowed ⟨0⟩ _).mp hfound,
    (hscope shadowed shadowing ⟨0⟩ hbalanced).trans hfound⟩

end Naming

end EffectLint
