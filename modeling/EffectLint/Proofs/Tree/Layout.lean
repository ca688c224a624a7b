import EffectLint.Proofs.Tree.Induction

/-!
Where the parts of a tree stand in the source. What was read between two offsets has its parts in
source order between them, also where it holds what could not be read. Only starts are followed;
the missing name of a variable may start where reading stopped.
-/

namespace EffectLint

-- Offsets in strictly ascending order, from `low` on and below `high`.
structure Ascending (low high : Nat) (offsets : List Nat) : Prop where
  le : low ≤ high
  sorted : offsets.Pairwise (· < ·)
  bounded : ∀ offset ∈ offsets, low ≤ offset ∧ offset < high

namespace Ascending

variable {low middle middle' high low' high' : Nat} {front back : List Nat}

theorem nil (h : low ≤ high) : Ascending low high [] :=
  ⟨h, .nil, nofun⟩

theorem one {offset : Nat} (hlow : low ≤ offset) (hhigh : offset < high) :
    Ascending low high [offset] :=
  ⟨by omega, List.pairwise_singleton _ _, by simpa using ⟨hlow, hhigh⟩⟩

theorem append (hfront : Ascending low middle front) (hmiddle : middle ≤ middle')
    (hback : Ascending middle' high back) : Ascending low high (front ++ back) where
  le := by
    have := hfront.le
    have := hback.le
    omega
  sorted := by
    refine List.pairwise_append.mpr ⟨hfront.sorted, hback.sorted, fun one hone other hother => ?_⟩
    have := (hfront.bounded one hone).2
    have := (hback.bounded other hother).1
    omega
  bounded := by
    have hle := hfront.le
    have hle' := hback.le
    intro offset hmem
    rcases List.mem_append.mp hmem with hmem | hmem
    · have := hfront.bounded offset hmem
      omega
    · have := hback.bounded offset hmem
      omega

theorem mono (h : Ascending low high front) (hlow : low' ≤ low) (hhigh : high ≤ high') :
    Ascending low' high' front where
  le := by
    have := h.le
    omega
  sorted := h.sorted
  bounded offset hmem := by
    have := h.bounded offset hmem
    omega

end Ascending

-- Pieces that stand one behind the other between two offsets, with gaps between them.
inductive InOrder {α : Type} (laid : α → Nat → Nat → Prop) : List α → Nat → Nat → Prop where
  | nil {low high} : low ≤ high → InOrder laid [] low high
  | cons {first rest low start stop high} : low ≤ start → start ≤ stop → laid first start stop →
      InOrder laid rest stop high → InOrder laid (first :: rest) low high

namespace InOrder

variable {α : Type} {laid : α → Nat → Nat → Prop} {items : List α} {low high : Nat}

theorem le (h : InOrder laid items low high) : low ≤ high := by
  induction h with
  | nil hle => exact hle
  | cons hlow hstart _ _ ih => omega

theorem mono {low' high' : Nat} (h : InOrder laid items low high) (hlow : low' ≤ low)
    (hhigh : high ≤ high') : InOrder laid items low' high' := by
  induction h generalizing low' with
  | nil hle => exact .nil (by omega)
  | cons hstart hstop hfirst _ ih => exact .cons (by omega) hstop hfirst (ih (Nat.le_refl _) hhigh)

theorem one {item : α} (hle : low ≤ high) (h : laid item low high) :
    InOrder laid [item] low high :=
  .cons (Nat.le_refl _) hle h (.nil (Nat.le_refl _))

theorem of_mem (h : InOrder laid items low high) {item : α} (hmem : item ∈ items) :
    ∃ start stop, low ≤ start ∧ start ≤ stop ∧ stop ≤ high ∧ laid item start stop := by
  induction h with
  | nil => cases hmem
  | cons hlow hstart hfirst hrest ih =>
      rcases List.mem_cons.mp hmem with rfl | hmem
      · exact ⟨_, _, hlow, hstart, hrest.le, hfirst⟩
      · obtain ⟨start, stop, hstart', hstop, hhigh, hitem⟩ := ih hmem
        exact ⟨start, stop, by omega, hstop, hhigh, hitem⟩

theorem append {front back : List α} {middle : Nat} (hfront : InOrder laid front low middle)
    (hback : InOrder laid back middle high) : InOrder laid (front ++ back) low high := by
  induction hfront with
  | nil hle => exact hback.mono hle (Nat.le_refl _)
  | cons hlow hstart hfirst _ ih => exact .cons hlow hstart hfirst (ih hback)

end InOrder

def TypeTree.Laid (type : TypeTree) (low high : Nat) : Prop :=
  Ascending low high (type.mentioned.map (·.span.start))

-- A name stands behind its type.
def Parameter.Laid (parameter : Parameter TypeTree) (low high : Nat) : Prop :=
  ∃ middle ≤ high, parameter.type.Laid low middle ∧
    ∀ name ∈ parameter.name, low < name.span.start ∧ middle ≤ name.span.start ∧
      name.span.start < high

theorem laid_mentionedIn {parameters : List (Parameter TypeTree)} {low high : Nat}
    (h : InOrder Parameter.Laid parameters low high) :
    Ascending low high ((TypeTree.mentionedIn parameters).map (·.span.start)) := by
  induction h with
  | nil hle => exact .nil hle
  | cons hlow hstart hfirst _ ih =>
      rename_i first rest low start stop high
      obtain ⟨middle, hmiddle, htype, -⟩ := hfirst
      rw [TypeTree.mentionedIn, List.map_append]
      exact (Ascending.append htype hmiddle ih).mono hlow (Nat.le_refl _)

-- What stands in an expression before its parts.
def Expr.Owns : Expr → Nat → Nat → Prop
  | .Cast _ type _, low, high => type.Laid low high
  | .New _ name, low, high => low ≤ name.span.start ∧ name.span.start < high
  | .Declare _ name _, low, high => low < name.span.start ∧ name.span.start ≤ high
  | _, low, high => low ≤ high

inductive Expr.Laid : Expr → Nat → Nat → Prop where
  | Error {span low high} : low ≤ high → Laid (.Error span) low high
  | Whole {whole low middle high} : low ≤ whole.span.start → whole.span.start < high →
      whole.Owns low middle → InOrder Laid whole.parts middle high → Laid whole low high

structure VariableTree.LaidAt (declared : VariableTree) (low typeEnd nameEnd high : Nat) : Prop where
  start : low ≤ declared.span.start
  starts : declared.span.start < high
  type : declared.type.Laid low typeEnd
  name : low < declared.name.span.start
  typed : typeEnd ≤ declared.name.span.start
  named : declared.name.span.start ≤ nameEnd
  value : InOrder Expr.Laid declared.value.toList nameEnd high

def VariableTree.Laid (declared : VariableTree) (low high : Nat) : Prop :=
  ∃ typeEnd nameEnd, declared.LaidAt low typeEnd nameEnd high

inductive Statement.Laid : Statement → Nat → Nat → Prop where
  | Evaluate {value low high} : value.Laid low high → Laid (.Evaluate value) low high
  | Local {declared low high} : declared.Laid low high → Laid (.Local declared) low high
  | Return {span value low high} : InOrder Expr.Laid value.toList low high →
      Laid (.Return span value) low high
  | If {condition yes no low middle high} : condition.Laid low middle →
      InOrder Laid (yes :: no.toList) middle high → Laid (.If condition yes no) low high
  | While {condition body low middle high} : condition.Laid low middle →
      InOrder Laid [body] middle high → Laid (.While condition body) low high
  | For {first condition step body low begun asked stepped high} :
      InOrder Laid first.toList low begun → InOrder Expr.Laid condition.toList begun asked →
      InOrder Expr.Laid step.toList asked stepped → InOrder Laid [body] stepped high →
      Laid (.For first condition step body) low high
  | Block {span written low high} : InOrder Laid written low high →
      Laid (.Block span written) low high
  | Empty {span low high} : low ≤ high → Laid (.Empty span) low high

structure FunctionTree.LaidAt (declared : FunctionTree) (low typeEnd nameEnd listEnd high : Nat) :
    Prop where
  result : declared.result.Laid low typeEnd
  name : low < declared.name.span.start
  typed : typeEnd ≤ declared.name.span.start
  named : declared.name.span.start ≤ nameEnd
  parameters : InOrder Parameter.Laid declared.parameters nameEnd listEnd
  listed : listEnd ≤ high
  body : ∀ block ∈ declared.body, InOrder Statement.Laid block.statements listEnd high

def FunctionTree.Laid (declared : FunctionTree) (low high : Nat) : Prop :=
  ∃ typeEnd nameEnd listEnd, declared.LaidAt low typeEnd nameEnd listEnd high

def Item.Laid : Item → Nat → Nat → Prop
  | .Import name, low, high | .Class name, low, high =>
      low < name.span.start ∧ name.span.start ≤ high
  | .Alias name target, low, high =>
      ∃ named, low < name.span.start ∧ name.span.start ≤ named ∧ target.Laid named high
  | .Function declared, low, high => declared.Laid low high
  | .Global declared, low, high => declared.Laid low high

theorem Expr.Owns.le {whole : Expr} {low high : Nat} (h : whole.Owns low high) : low ≤ high := by
  cases whole with
  | Cast span type operand => exact Ascending.le h
  | New span name => exact Nat.le_of_lt (Nat.lt_of_le_of_lt h.1 h.2)
  | Declare span name value => exact Nat.le_of_lt (Nat.lt_of_lt_of_le h.1 h.2)
  | _ => exact h

theorem Expr.Owns.mono {whole : Expr} {low low' high : Nat} (h : whole.Owns low high)
    (hlow : low' ≤ low) : whole.Owns low' high := by
  cases whole with
  | Cast span type operand => exact Ascending.mono h hlow (Nat.le_refl _)
  | New span name => exact ⟨Nat.le_trans hlow h.1, h.2⟩
  | Declare span name value => exact ⟨Nat.lt_of_le_of_lt hlow h.1, h.2⟩
  | _ => exact Nat.le_trans hlow h

theorem Expr.Laid.le {whole : Expr} {low high : Nat} (h : whole.Laid low high) : low ≤ high := by
  cases h with
  | Error hle => exact hle
  | Whole hstart hstarts _ _ => omega

theorem Expr.Laid.mono {whole : Expr} {low high low' high' : Nat} (h : whole.Laid low high)
    (hlow : low' ≤ low) (hhigh : high ≤ high') : whole.Laid low' high' := by
  cases h with
  | Error hle => exact .Error (by omega)
  | Whole hstart hstarts howns hparts =>
      exact .Whole (by omega) (by omega) (howns.mono hlow) (hparts.mono (Nat.le_refl _) hhigh)

-- An expression of which nothing is missing starts between its offsets.
theorem Expr.Laid.start {whole : Expr} {low high : Nat} (h : whole.Laid low high)
    (hfine : ∀ span, whole ≠ .Error span) : low ≤ whole.span.start ∧ whole.span.start < high := by
  cases h with
  | Error => exact absurd rfl (hfine _)
  | Whole hstart hstarts _ _ => exact ⟨hstart, hstarts⟩

theorem Statement.Laid.le {written : Statement} {low high : Nat} (h : written.Laid low high) :
    low ≤ high := by
  cases h with
  | Evaluate hvalue => exact hvalue.le
  | Local hdeclared =>
      obtain ⟨_, _, hat⟩ := hdeclared
      exact Nat.le_of_lt (Nat.lt_of_le_of_lt hat.start hat.starts)
  | Return hvalue => exact hvalue.le
  | If hcondition hrest => exact Nat.le_trans hcondition.le hrest.le
  | While hcondition hbody => exact Nat.le_trans hcondition.le hbody.le
  | For hfirst hcondition hstep hbody =>
      exact Nat.le_trans (Nat.le_trans hfirst.le hcondition.le) (Nat.le_trans hstep.le hbody.le)
  | Block hwritten => exact hwritten.le
  | Empty hle => exact hle

end EffectLint
