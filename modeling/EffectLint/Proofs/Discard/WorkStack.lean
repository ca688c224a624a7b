import EffectLint.Program.Basic

/-!
The values that a function throws away, collected with a stack of what is still to be looked at. A
round takes the topmost piece: a value that is thrown away comes out, and the pieces of a statement
go back on the stack. The stack runs empty, and what has come out by then is what the pieces throw
away, in order.
-/

namespace EffectLint

-- What is still to be looked at. The step of a loop waits below its body.
inductive Pending where
  | Statement (flow : Flow)
  | Step (value : NodeId)

namespace Flow

@[simp] theorem discardsAll_nil : discardsAll [] = [] :=
  rfl

@[simp] theorem discardsAll_cons (first : Flow) (rest : List Flow) :
    discardsAll (first :: rest) = first.discards ++ discardsAll rest :=
  rfl

theorem discardsAll_eq (flows : List Flow) : discardsAll flows = flows.flatMap discards := by
  induction flows with
  | nil => rfl
  | cons first rest ih => rw [discardsAll, ih, List.flatMap_cons]

theorem discardsAll_append (front back : List Flow) :
    discardsAll (front ++ back) = discardsAll front ++ discardsAll back := by
  rw [discardsAll_eq, discardsAll_eq, discardsAll_eq, List.flatMap_append]

-- The empty block that takes the place of a missing statement throws nothing away.
theorem discards_getD (flow : Option Flow) :
    (flow.getD (.Block [])).discards = discardsAll flow.toList := by
  cases flow <;> simp [discards]

theorem discardsAll_some (flow : Flow) : discardsAll (some flow).toList = flow.discards :=
  List.append_nil _

theorem discards_If (condition : NodeId) (yes : Flow) (no : Option Flow) :
    discards (.If condition yes no) = yes.discards ++ discardsAll no.toList := by
  cases no <;> simp [discards]

theorem discards_For (first : Option Flow) (condition step : Option NodeId) (body : Flow) :
    discards (.For first condition step body) =
      discardsAll first.toList ++ (body.discards ++ step.toList.map (⟨·, .ForStep⟩)) := by
  cases first <;> simp [discards]

end Flow

namespace Pending

def discards : Pending → List Discard
  | .Statement flow => flow.discards
  | .Step value => [⟨value, .ForStep⟩]

-- What comes out when a piece is looked at.
def emitted : Pending → List Discard
  | .Statement (.Evaluate value) => [⟨value, .Statement⟩]
  | .Step value => [⟨value, .ForStep⟩]
  | .Statement _ => []

-- What goes back on the stack, the topmost piece first.
def parts : Pending → List Pending
  | .Statement (.If _ yes no) => .Statement yes :: no.toList.map .Statement
  | .Statement (.While _ body) => [.Statement body]
  | .Statement (.For first _ step body) =>
      first.toList.map .Statement ++ .Statement body :: step.toList.map .Step
  | .Statement (.Block flows) => flows.map .Statement
  | .Statement (.Evaluate _) | .Statement (.Return _) | .Step _ => []

-- All that comes out until the stack is empty.
inductive Drains : List Pending → List Discard → Prop where
  | Done : Drains [] []
  | Round {top rest out} : Drains (top.parts ++ rest) out → Drains (top :: rest) (top.emitted ++ out)

variable {stack rest : List Pending} {out : List Discard}

theorem flatMap_discards_map (flows : List Flow) :
    (flows.map Statement).flatMap discards = Flow.discardsAll flows := by
  rw [List.flatMap_map, Flow.discardsAll_eq]
  rfl

-- What a piece throws away comes out at once or is still on the stack.
theorem discards_eq (piece : Pending) :
    piece.discards = piece.emitted ++ piece.parts.flatMap discards := by
  cases piece with
  | Step value => rfl
  | Statement flow =>
      cases flow with
      | Evaluate value => rfl
      | Return value => rfl
      | If condition yes no =>
          rw [parts, List.flatMap_cons, flatMap_discards_map]
          exact Flow.discards_If condition yes no
      | While condition body => exact (List.append_nil _).symm
      | For first condition step body =>
          have hstep : (step.toList.map Step).flatMap discards =
              step.toList.map (⟨·, .ForStep⟩) := by
            cases step <;> rfl
          rw [parts, List.flatMap_append, List.flatMap_cons, flatMap_discards_map, hstep]
          exact Flow.discards_For first condition step body
      | Block statements =>
          rw [parts, flatMap_discards_map]
          rfl

theorem Drains.eq (h : Drains stack out) : out = stack.flatMap discards := by
  induction h with
  | Done => rfl
  | @Round top rest out _ ih =>
      rw [ih, List.flatMap_append, List.flatMap_cons, discards_eq top, List.append_assoc]

theorem sizeOf_lt_of_mem_parts {piece part : Pending} (h : part ∈ piece.parts) :
    sizeOf part < sizeOf piece := by
  cases piece with
  | Step value => cases h
  | Statement flow =>
      cases flow with
      | Evaluate value => cases h
      | Return value => cases h
      | If condition yes no =>
          rcases List.mem_cons.mp h with rfl | h
          · simp only [Statement.sizeOf_spec, Flow.If.sizeOf_spec]
            omega
          · obtain ⟨other, hno, rfl⟩ := List.mem_map.mp h
            obtain rfl := Option.mem_toList.mp hno
            simp only [Statement.sizeOf_spec, Flow.If.sizeOf_spec, Option.some.sizeOf_spec]
            omega
      | While condition body =>
          obtain rfl := List.mem_singleton.mp h
          simp only [Statement.sizeOf_spec, Flow.While.sizeOf_spec]
          omega
      | For first condition step body =>
          simp only [Statement.sizeOf_spec, Flow.For.sizeOf_spec]
          rcases List.mem_append.mp h with h | h
          · obtain ⟨one, hfirst, rfl⟩ := List.mem_map.mp h
            obtain rfl := Option.mem_toList.mp hfirst
            simp only [Statement.sizeOf_spec, Option.some.sizeOf_spec]
            omega
          · rcases List.mem_cons.mp h with rfl | h
            · simp only [Statement.sizeOf_spec]
              omega
            · obtain ⟨value, hstep, rfl⟩ := List.mem_map.mp h
              obtain rfl := Option.mem_toList.mp hstep
              simp only [Step.sizeOf_spec, Option.some.sizeOf_spec]
              omega
      | Block statements =>
          obtain ⟨flow, hmem, rfl⟩ := List.mem_map.mp h
          have := List.sizeOf_lt_of_mem hmem
          simp only [Statement.sizeOf_spec, Flow.Block.sizeOf_spec]
          omega

-- Taken from the stack, a piece leaves what lies below it as it was.
def Passes (piece : Pending) : Prop :=
  ∀ rest out, Drains rest out → Drains (piece :: rest) (piece.discards ++ out)

theorem Drains.pass {pieces : List Pending} (hpieces : ∀ piece ∈ pieces, piece.Passes)
    (h : Drains rest out) : Drains (pieces ++ rest) (pieces.flatMap discards ++ out) := by
  induction pieces with
  | nil => exact h
  | cons first others ih =>
      obtain ⟨hfirst, hothers⟩ := List.forall_mem_cons.mp hpieces
      rw [List.flatMap_cons, List.append_assoc]
      exact hfirst _ _ (ih hothers)

theorem Passes.of_parts {piece : Pending} (h : ∀ part ∈ piece.parts, part.Passes) :
    piece.Passes := by
  intro rest out hrest
  rw [discards_eq, List.append_assoc]
  exact .Round (.pass h hrest)

theorem passes (piece : Pending) : piece.Passes :=
  .of_parts fun part _ => passes part
termination_by sizeOf piece
decreasing_by exact sizeOf_lt_of_mem_parts ‹_›

-- Whatever is on the stack, it runs empty, and what comes out is what its pieces throw away.
theorem drains_iff : Drains stack out ↔ out = stack.flatMap discards := by
  refine ⟨Drains.eq, ?_⟩
  rintro rfl
  have h : Drains (stack ++ []) (stack.flatMap discards ++ []) :=
    .pass (fun piece _ => passes piece) .Done
  rwa [List.append_nil, List.append_nil] at h

end Pending

end EffectLint
