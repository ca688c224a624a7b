import EffectLint.Proofs.Effect.Walked
import EffectLint.Proofs.Type.Asked

/-!
What one can do with a type table, and that nobody notices what is remembered on the way. Shapes are
made, copied out of the table and entered into it, each with the answer that it carries, and between
all this one asks how pure functions are.
-/

namespace EffectLint

-- A shape outside of the table, with how pure it was found to be.
structure HeldShape where
  shape : Shape
  answer : Option Purity

-- The table, what is remembered about its types, and the shapes at hand.
structure Session where
  table : TypeTable
  memo : PurityMemo
  held : List HeldShape

namespace Session

inductive Operation where
  -- make a new shape of types that are known
  | Make (shape : Shape)
  -- a copy of the shape of a type, or of a shape at hand
  | CopyType (type : TypeId)
  | CopyHeld (place : Nat)
  -- enter a shape at hand into the table
  | Enter (place : Nat)
  -- how pure a function is
  | AskType (type : TypeId)
  | AskHeld (place : Nat)

def Operation.isQuestion : Operation → Bool
  | .AskType _ | .AskHeld _ => true
  | _ => false

inductive Answer where
  | Done
  | Entered (type : TypeId)
  | Level (purity : Purity)
  deriving DecidableEq

def Answer.isLevel : Answer → Bool
  | .Level _ => true
  | _ => false

end Session

def Shape.signature? : Shape → Option Signature
  | .Function signature => some signature
  | _ => none

theorem Shape.signature?_eq_some_iff {shape : Shape} {signature : Signature} :
    shape.signature? = some signature ↔ shape = .Function signature := by
  cases shape <;> simp [signature?]

namespace Session

def start : Session :=
  ⟨TypeTable.start, .empty, []⟩

def hold (session : Session) (shape : HeldShape) : Session :=
  { session with held := session.held ++ [shape] }

-- A shape that is new to the table takes its answer along.
def enter (session : Session) (held : HeldShape) : TypeId × Session :=
  let (type, table) := session.table.insert held.shape
  let memo :=
    match session.table.shape? type, held.answer with
    | none, some purity => session.memo.insert type purity
    | _, _ => session.memo
  (type, { session with table, memo })

-- Nothing comes of an operation that names something unknown.
def step (session : Session) : Operation → Option (Answer × Session)
  | .Make shape =>
      if ∀ part ∈ shape.parts, part.index < session.table.size then
        some (.Done, session.hold ⟨shape, none⟩)
      else none
  | .CopyType type => do
      let shape ← session.table.shape? type
      return (.Done, session.hold ⟨shape, session.memo.find? type⟩)
  | .CopyHeld place => do
      let held ← session.held[place]?
      return (.Done, session.hold held)
  | .Enter place => do
      let held ← session.held[place]?
      let (type, after) := session.enter held
      return (.Entered type, after)
  | .AskType type => do
      let signature ← (← session.table.shape? type).signature?
      let asked := session.table.purity ⟨type, signature⟩ session.memo
      return (.Level asked.1, { session with memo := asked.2 })
  | .AskHeld place => do
      let held ← session.held[place]?
      let signature ← held.shape.signature?
      let purity := held.answer.getD (signature.purity session.table)
      return (.Level purity,
        { session with held := session.held.set place { held with answer := some purity } })

def run (session : Session) : List Operation → Option (List Answer × Session)
  | [] => some ([], session)
  | operation :: rest => do
      let (answer, next) ← session.step operation
      let (answers, last) ← run next rest
      return (answer :: answers, last)

end Session

-- A session in which nothing is remembered.
structure PlainSession where
  table : TypeTable
  held : List Shape

namespace PlainSession

open Session (Operation Answer)

def start : PlainSession :=
  ⟨TypeTable.start, []⟩

-- Every question has the answer that the declaration gives.
inductive Step : PlainSession → Operation → Answer → PlainSession → Prop where
  | Make {table : TypeTable} {held : List Shape} {shape : Shape}
      (hparts : ∀ part ∈ shape.parts, table.Known part) :
      Step ⟨table, held⟩ (.Make shape) .Done ⟨table, held ++ [shape]⟩
  | CopyType {table : TypeTable} {held : List Shape} {type : TypeId} {shape : Shape}
      (hshape : table.shape? type = some shape) :
      Step ⟨table, held⟩ (.CopyType type) .Done ⟨table, held ++ [shape]⟩
  | CopyHeld {table : TypeTable} {held : List Shape} {place : Nat} {shape : Shape}
      (hshape : held[place]? = some shape) :
      Step ⟨table, held⟩ (.CopyHeld place) .Done ⟨table, held ++ [shape]⟩
  | Enter {table : TypeTable} {held : List Shape} {place : Nat} {shape : Shape}
      (hshape : held[place]? = some shape) :
      Step ⟨table, held⟩ (.Enter place) (.Entered (table.insert shape).1)
        ⟨(table.insert shape).2, held⟩
  | AskType {table : TypeTable} {held : List Shape} {type : TypeId} {signature : Signature}
      {purity : Purity} (hshape : table.shape? type = some (.Function signature))
      (hpurity : signature.HasPurity table purity) :
      Step ⟨table, held⟩ (.AskType type) (.Level purity) ⟨table, held⟩
  | AskHeld {table : TypeTable} {held : List Shape} {place : Nat} {signature : Signature}
      {purity : Purity} (hshape : held[place]? = some (.Function signature))
      (hpurity : signature.HasPurity table purity) :
      Step ⟨table, held⟩ (.AskHeld place) (.Level purity) ⟨table, held⟩

inductive Run : PlainSession → List Operation → List Answer → PlainSession → Prop where
  | Done (session : PlainSession) : Run session [] [] session
  | Steps {first next last : PlainSession} {operation : Operation} {operations : List Operation}
      {answer : Answer} {answers : List Answer} (hstep : Step first operation answer next)
      (hrest : Run next operations answers last) :
      Run first (operation :: operations) (answer :: answers) last

theorem Step.unique {first next other : PlainSession} {operation : Operation}
    {answer answer' : Answer} (h : Step first operation answer next)
    (h' : Step first operation answer' other) : answer = answer' ∧ next = other := by
  cases h with
  | Make =>
      cases h'
      exact ⟨rfl, rfl⟩
  | CopyType hshape =>
      cases h' with
      | CopyType hshape' =>
          cases hshape.symm.trans hshape'
          exact ⟨rfl, rfl⟩
  | CopyHeld hshape =>
      cases h' with
      | CopyHeld hshape' =>
          cases hshape.symm.trans hshape'
          exact ⟨rfl, rfl⟩
  | Enter hshape =>
      cases h' with
      | Enter hshape' =>
          cases hshape.symm.trans hshape'
          exact ⟨rfl, rfl⟩
  | AskType hshape hpurity =>
      cases h' with
      | AskType hshape' hpurity' =>
          cases hshape.symm.trans hshape'
          exact ⟨congrArg Answer.Level (Signature.hasPurity_unique hpurity hpurity'), rfl⟩
  | AskHeld hshape hpurity =>
      cases h' with
      | AskHeld hshape' hpurity' =>
          cases hshape.symm.trans hshape'
          exact ⟨congrArg Answer.Level (Signature.hasPurity_unique hpurity hpurity'), rfl⟩

-- A question leaves everything as it is, so it can be left out.
theorem Run.without_questions {first last : PlainSession} {operations : List Operation}
    {answers : List Answer} (h : Run first operations answers last) :
    Run first (operations.filter fun operation => !operation.isQuestion)
      (answers.filter fun answer => !answer.isLevel) last := by
  induction h with
  | Done session => exact .Done session
  | Steps hstep _ ih =>
      cases hstep with
      | AskType | AskHeld => exact ih
      | Make hparts => exact .Steps (.Make hparts) ih
      | CopyType hshape => exact .Steps (.CopyType hshape) ih
      | CopyHeld hshape => exact .Steps (.CopyHeld hshape) ih
      | Enter hshape => exact .Steps (.Enter hshape) ih

end PlainSession

section Remembered

variable {table small large : TypeTable} {shape : Shape} {answer : Option Purity}

-- The answer that a shape carries, if any, is the right one.
def Shape.Carries (table : TypeTable) (shape : Shape) (answer : Option Purity) : Prop :=
  (∀ part ∈ shape.parts, table.Known part) ∧
    ∀ purity, answer = some purity →
      ∃ signature, shape = .Function signature ∧ signature.purity table = purity

theorem Signature.parameters_known {signature : Signature}
    (h : ∀ part ∈ (Shape.Function signature).parts, table.Known part) :
    ∀ parameter ∈ signature.parameters, table.Known parameter.type :=
  fun _ hmem => h _ (List.mem_cons_of_mem _ (List.mem_map_of_mem hmem))

theorem Shape.Carries.keeps (h : shape.Carries small answer) (hclosed : small.Closed)
    (hgrows : small.shapes.Keeps large.shapes) : shape.Carries large answer := by
  refine ⟨fun part hpart => (h.1 part hpart).keeps hgrows, fun purity hanswer => ?_⟩
  obtain ⟨signature, rfl, hpurity⟩ := h.2 purity hanswer
  refine ⟨signature, rfl, ?_⟩
  rw [Signature.purity_keeps hclosed hgrows (Signature.parameters_known h.1), hpurity]

namespace Session

-- What holds at any time: the answers that are remembered, in the table or with a shape at hand,
-- are right.
structure Right (session : Session) : Prop where
  closed : session.table.Closed
  memo : ∀ type purity, session.memo.find? type = some purity →
    ∃ shape, session.table.shape? type = some shape ∧ shape.Carries session.table (some purity)
  held : ∀ held ∈ session.held, held.shape.Carries session.table held.answer

def bare (session : Session) : PlainSession :=
  ⟨session.table, session.held.map HeldShape.shape⟩

theorem right_start : start.Right where
  closed := TypeTable.closed_start
  memo := by
    intro type purity h
    cases h
  held := by
    intro held h
    cases h

namespace Right

variable {session : Session}

theorem sound (h : session.Right) : session.memo.Sound session.table := by
  intro type purity signature hfound hshape
  obtain ⟨shape, hentered, hcarries⟩ := h.memo type purity hfound
  obtain ⟨other, rfl, hpurity⟩ := hcarries.2 purity rfl
  rw [TypeTable.shape_eq hentered] at hshape
  cases hshape
  exact hpurity.symm

theorem hold (h : session.Right) {held : HeldShape}
    (hheld : held.shape.Carries session.table held.answer) : (session.hold held).Right where
  closed := h.closed
  memo := h.memo
  held := by
    intro other hmem
    rcases List.mem_append.mp hmem with hmem | hmem
    · exact h.held other hmem
    · rw [List.mem_singleton.mp hmem]
      exact hheld

-- A type of the table carries what the memo has about it.
theorem type_carries (h : session.Right) {type : TypeId} {shape : Shape}
    (hshape : session.table.shape? type = some shape) :
    shape.Carries session.table (session.memo.find? type) := by
  refine ⟨fun part hpart => h.closed.part_known hshape hpart, fun purity hfound => ?_⟩
  obtain ⟨other, hother, hcarries⟩ := h.memo type purity hfound
  cases hshape.symm.trans hother
  exact hcarries.2 purity rfl

theorem enter (h : session.Right) {held : HeldShape}
    (hheld : held.shape.Carries session.table held.answer) : (session.enter held).2.Right := by
  have hgrows : session.table.shapes.Keeps (session.table.insert held.shape).2.shapes :=
    TypeTable.keeps_insert
  have hmemo : ∀ type purity, session.memo.find? type = some purity →
      ∃ shape, (session.table.insert held.shape).2.shape? type = some shape ∧
        shape.Carries (session.table.insert held.shape).2 (some purity) := by
    intro type purity hfound
    obtain ⟨shape, hshape, hcarries⟩ := h.memo type purity hfound
    exact ⟨shape, hgrows _ _ hshape, hcarries.keeps h.closed hgrows⟩
  refine ⟨h.closed.insert hheld.1, ?_, fun other hmem => (h.held other hmem).keeps h.closed hgrows⟩
  dsimp only [Session.enter]
  split
  · next purity hnew hanswer =>
    intro type other hfound
    simp only [PurityMemo.find?, PurityMemo.insert, List.lookup_cons] at hfound
    split at hfound
    · next heq =>
      cases hfound
      rw [eq_of_beq heq]
      rw [← hanswer]
      exact ⟨held.shape, TypeTable.shape?_insert, hheld.keeps h.closed hgrows⟩
    · exact hmemo type other hfound
  · exact hmemo

theorem askType (h : session.Right) {type : TypeId} {signature : Signature}
    (hshape : session.table.shape? type = some (.Function signature)) :
    (session.table.purity ⟨type, signature⟩ session.memo).1 = signature.purity session.table ∧
      Right { session with memo := (session.table.purity ⟨type, signature⟩ session.memo).2 } := by
  have hfunction := TypeTable.shape_eq hshape
  refine ⟨(TypeTable.answers_purity hfunction _ h.sound).1, h.closed, ?_, h.held⟩
  have hcarries : (Shape.Function signature).Carries session.table
      (some (signature.purity session.table)) := by
    refine ⟨fun part hpart => h.closed.part_known hshape hpart, fun purity hpurity => ?_⟩
    exact ⟨signature, rfl, Option.some.inj hpurity⟩
  intro other purity hfound
  unfold TypeTable.purity at hfound
  split at hfound
  · exact h.memo other purity hfound
  · simp only [PurityMemo.find?, PurityMemo.insert, List.lookup_cons] at hfound
    split at hfound
    · next heq =>
      cases hfound
      rw [eq_of_beq heq]
      exact ⟨_, hshape, hcarries⟩
    · exact h.memo other purity hfound

theorem askHeld (h : session.Right) {place : Nat} {held : HeldShape} {signature : Signature}
    (hheld : session.held[place]? = some held) (hshape : held.shape = .Function signature) :
    held.answer.getD (signature.purity session.table) = signature.purity session.table ∧
      Right { session with
        held := session.held.set place
          { held with answer := some (signature.purity session.table) } } := by
  have hcarries := h.held held (List.mem_of_getElem? hheld)
  refine ⟨?_, h.closed, h.memo, fun other hmem => ?_⟩
  · cases hanswer : held.answer with
    | none => rfl
    | some purity =>
        obtain ⟨other, hother, hpurity⟩ := hcarries.2 purity hanswer
        cases hshape.symm.trans hother
        exact hpurity.symm
  · rcases List.mem_or_eq_of_mem_set hmem with hold | rfl
    · exact h.held other hold
    · exact ⟨hcarries.1, fun purity hpurity => ⟨signature, hshape, Option.some.inj hpurity⟩⟩

end Right

section Steps

variable {session next : Session} {operation : Operation} {given : Answer}

theorem bare_hold (held : HeldShape) :
    (session.hold held).bare =
      ⟨session.table, session.held.map HeldShape.shape ++ [held.shape]⟩ := by
  rw [bare, hold, List.map_append, List.map_singleton]

-- Nothing but the answer changes at the place.
theorem map_shape_set {place : Nat} {held : HeldShape} (hheld : session.held[place]? = some held)
    (answer : Option Purity) :
    (session.held.set place { held with answer }).map HeldShape.shape =
      session.held.map HeldShape.shape := by
  obtain ⟨hlt, hget⟩ := List.getElem?_eq_some_iff.mp hheld
  refine List.ext_getElem? fun index => ?_
  rw [List.map_set, List.getElem?_set]
  split
  · next heq =>
    subst heq
    rw [List.getElem?_map, hheld, List.length_map, if_pos hlt]
    rfl
  · rfl

-- An operation does what it does where nothing is remembered.
theorem Right.step (h : session.Right) (hstep : session.step operation = some (given, next)) :
    next.Right ∧ PlainSession.Step session.bare operation given next.bare := by
  cases operation with
  | Make shape =>
      simp only [Session.step, Option.ite_none_right_eq_some, Option.some.injEq,
        Prod.mk.injEq] at hstep
      obtain ⟨hparts, rfl, rfl⟩ := hstep
      have hknown : ∀ part ∈ shape.parts, session.table.Known part :=
        fun part hpart => TypeTable.known_iff.mpr (hparts part hpart)
      rw [bare_hold]
      exact ⟨h.hold ⟨hknown, nofun⟩, .Make hknown⟩
  | CopyType type =>
      simp only [Session.step, Option.bind_eq_bind, Option.bind_eq_some_iff, Option.pure_def,
        Option.some.injEq, Prod.mk.injEq] at hstep
      obtain ⟨shape, hshape, rfl, rfl⟩ := hstep
      rw [bare_hold]
      exact ⟨h.hold (h.type_carries hshape), .CopyType hshape⟩
  | CopyHeld place =>
      simp only [Session.step, Option.bind_eq_bind, Option.bind_eq_some_iff, Option.pure_def,
        Option.some.injEq, Prod.mk.injEq] at hstep
      obtain ⟨held, hheld, rfl, rfl⟩ := hstep
      rw [bare_hold]
      refine ⟨h.hold (h.held held (List.mem_of_getElem? hheld)), .CopyHeld ?_⟩
      rw [List.getElem?_map, hheld]
      rfl
  | Enter place =>
      simp only [Session.step, Option.bind_eq_bind, Option.bind_eq_some_iff, Option.pure_def,
        Option.some.injEq, Prod.mk.injEq] at hstep
      obtain ⟨held, hheld, rfl, rfl⟩ := hstep
      refine ⟨h.enter (h.held held (List.mem_of_getElem? hheld)), .Enter ?_⟩
      rw [List.getElem?_map, hheld]
      rfl
  | AskType type =>
      simp only [Session.step, Option.bind_eq_bind, Option.bind_eq_some_iff, Option.pure_def,
        Option.some.injEq, Prod.mk.injEq, Shape.signature?_eq_some_iff] at hstep
      obtain ⟨shape, hshape, signature, rfl, rfl, rfl⟩ := hstep
      obtain ⟨hpurity, hright⟩ := h.askType hshape
      have hparts := Signature.parameters_known fun part => h.closed.part_known hshape
      refine ⟨hright, .AskType hshape ((Signature.hasPurity_iff h.closed hparts).mpr hpurity.symm)⟩
  | AskHeld place =>
      simp only [Session.step, Option.bind_eq_bind, Option.bind_eq_some_iff, Option.pure_def,
        Option.some.injEq, Prod.mk.injEq, Shape.signature?_eq_some_iff] at hstep
      obtain ⟨held, hheld, signature, hshape, rfl, rfl⟩ := hstep
      obtain ⟨hpurity, hright⟩ := h.askHeld hheld hshape
      have hcarries := h.held held (List.mem_of_getElem? hheld)
      rw [hshape] at hcarries
      have hparts := Signature.parameters_known hcarries.1
      rw [hpurity, bare, bare, map_shape_set hheld]
      refine ⟨hright, .AskHeld ?_ ((Signature.hasPurity_iff h.closed hparts).mpr rfl)⟩
      rw [List.getElem?_map, hheld, Option.map_some, hshape]

-- What can be done where nothing is remembered can be done in the session.
theorem exists_step {plain : PlainSession}
    (hplain : PlainSession.Step session.bare operation given plain) :
    ∃ answer next, session.step operation = some (answer, next) := by
  have hplace : ∀ {place : Nat} {shape : Shape},
      (session.held.map HeldShape.shape)[place]? = some shape →
        ∃ held : HeldShape, session.held[place]? = some held ∧ held.shape = shape := by
    intro place shape hshape
    rw [List.getElem?_map] at hshape
    exact Option.map_eq_some_iff.mp hshape
  generalize hbare : session.bare = bare at hplain
  cases hplain with
  | Make hparts =>
      cases hbare
      have hlt := fun part hpart => TypeTable.known_iff.mp (hparts part hpart)
      exact ⟨_, _, if_pos hlt⟩
  | CopyType hshape =>
      cases hbare
      exact ⟨_, _, by rw [step, hshape]; rfl⟩
  | CopyHeld hshape =>
      cases hbare
      obtain ⟨held, hheld, -⟩ := hplace hshape
      exact ⟨_, _, by rw [step, hheld]; rfl⟩
  | Enter hshape =>
      cases hbare
      obtain ⟨held, hheld, -⟩ := hplace hshape
      exact ⟨_, _, by rw [step, hheld]; rfl⟩
  | AskType hshape hpurity =>
      cases hbare
      exact ⟨_, _, by rw [step, hshape]; rfl⟩
  | AskHeld hshape hpurity =>
      cases hbare
      obtain ⟨held, hheld, hsame⟩ := hplace hshape
      exact ⟨_, _, by rw [step, hheld, Option.bind_eq_bind, Option.bind_some, hsame]; rfl⟩

end Steps

section Runs

variable {session : Session}

theorem run_cons_eq_some_iff {operation : Operation} {rest : List Operation}
    {answers : List Answer} {last : Session} :
    session.run (operation :: rest) = some (answers, last) ↔
      ∃ answer next others, session.step operation = some (answer, next) ∧
        next.run rest = some (others, last) ∧ answers = answer :: others := by
  simp only [run, Option.bind_eq_bind, Option.bind_eq_some_iff, Option.pure_def, Option.some.injEq,
    Prod.mk.injEq, Prod.exists]
  constructor
  · rintro ⟨answer, next, hstep, others, _, hrest, rfl, rfl⟩
    exact ⟨answer, next, others, hstep, hrest, rfl⟩
  · rintro ⟨answer, next, others, hstep, hrest, rfl⟩
    exact ⟨answer, next, hstep, others, last, hrest, rfl, rfl⟩

theorem Right.run (h : session.Right) {operations : List Operation} {answers : List Answer}
    {last : Session} (hrun : session.run operations = some (answers, last)) :
    last.Right ∧ PlainSession.Run session.bare operations answers last.bare := by
  induction operations generalizing session answers with
  | nil =>
      cases hrun
      exact ⟨h, .Done _⟩
  | cons operation rest ih =>
      obtain ⟨answer, next, others, hstep, hrest, rfl⟩ := run_cons_eq_some_iff.mp hrun
      obtain ⟨hnext, hplain⟩ := h.step hstep
      obtain ⟨hlast, hothers⟩ := ih hnext hrest
      exact ⟨hlast, .Steps hplain hothers⟩

-- The runs of a session are those in which nothing is remembered.
theorem Right.run_iff (h : session.Right) {operations : List Operation} {answers : List Answer}
    {plain : PlainSession} :
    PlainSession.Run session.bare operations answers plain ↔
      ∃ last, session.run operations = some (answers, last) ∧ last.bare = plain := by
  constructor
  · intro hplain
    generalize hbare : session.bare = bare at hplain
    induction hplain generalizing session with
    | Done => exact ⟨session, rfl, hbare⟩
    | Steps hstep _ ih =>
        subst hbare
        obtain ⟨answer, next, hrun⟩ := exists_step hstep
        obtain ⟨hnext, hsame⟩ := h.step hrun
        obtain ⟨rfl, rfl⟩ := hstep.unique hsame
        obtain ⟨last, hrest, hlast⟩ := ih hnext rfl
        exact ⟨last, run_cons_eq_some_iff.mpr ⟨_, next, _, hrun, hrest, rfl⟩, hlast⟩
  · rintro ⟨last, hrun, rfl⟩
    exact (h.run hrun).2

-- What is remembered has no influence on what is answered from here on.
theorem Right.answers_eq {other : Session} (h : session.Right) (hother : other.Right)
    (hbare : session.bare = other.bare) (operations : List Operation) :
    (session.run operations).map Prod.fst = (other.run operations).map Prod.fst := by
  ext answers
  simp only [Option.map_eq_some_iff, Prod.exists, exists_and_right, exists_eq_right]
  have hruns : ∀ {one : Session}, one.Right →
      ((∃ last, one.run operations = some (answers, last)) ↔
        ∃ plain, PlainSession.Run one.bare operations answers plain) := by
    intro one hone
    constructor
    · rintro ⟨last, hrun⟩
      exact ⟨_, (hone.run hrun).2⟩
    · rintro ⟨plain, hplain⟩
      obtain ⟨last, hrun, -⟩ := hone.run_iff.mp hplain
      exact ⟨last, hrun⟩
  rw [hruns h, hruns hother, hbare]

end Runs

end Session

end Remembered

namespace Program

variable {program : Program} {memo other : PurityMemo}

theorem agrees_of_sound {table : TypeTable} (hmemo : memo.Sound table)
    (hother : other.Sound table) : memo.Agrees table other := by
  intro function hfunction
  rw [(TypeTable.answers_purity hfunction memo hmemo).1,
    (TypeTable.answers_purity hfunction other hother).1]

theorem walkWithin_of_agrees (hagree : memo.Agrees program.types other) (steps : Nat)
    (pending : List Arena.Pending) :
    (program.arena.walkWithin program.stopAtEffect steps pending memo).1 =
      (program.arena.walkWithin program.stopAtEffect steps pending other).1 := by
  induction steps generalizing pending memo other with
  | zero => rfl
  | succ steps ih =>
      cases pending with
      | nil => rfl
      | cons first rest =>
          cases first with
          | Enter id => exact ih hagree _
          | Visit id =>
              have hanswer := hasShallowEffect_of_agrees hagree id
              have hagrees : ∀ memo : PurityMemo,
                  (program.hasShallowEffect id memo).2.Agrees program.types memo :=
                hasShallowEffect_agrees id
              simp only [Arena.walkWithin, bind, StateT.bind, stopAtEffect_run, hanswer]
              cases (program.hasShallowEffect id other).1 with
              | true => rfl
              | false => exact ih (((hagrees memo).trans hagree).trans (hagrees other).symm) rest

theorem hasEffect_of_agrees (hagree : memo.Agrees program.types other) (root : NodeId) :
    (program.hasEffect root memo).1 = (program.hasEffect root other).1 :=
  walkWithin_of_agrees hagree _ _

end Program

namespace Session

-- The sessions are the ones in which every question has the answer of the declaration and nothing
-- is remembered. The questions can be left out, what they leave behind does not matter for anything
-- that is done later, and neither does it for any effect.
theorem memo_unobservable :
    (∀ operations answers plain, PlainSession.Run .start operations answers plain ↔
      ∃ last, start.run operations = some (answers, last) ∧ last.bare = plain) ∧
    (∀ operations answers session, start.run operations = some (answers, session) →
      ∃ quiet, start.run (operations.filter fun operation => !operation.isQuestion) =
          some (answers.filter fun answer => !answer.isLevel, quiet) ∧
        quiet.bare = session.bare) ∧
    (∀ before answers session before' answers' session',
      start.run before = some (answers, session) → start.run before' = some (answers', session') →
      session.bare = session'.bare → ∀ operations,
        (session.run operations).map Prod.fst = (session'.run operations).map Prod.fst) ∧
    ∀ operations answers session, start.run operations = some (answers, session) →
      ∀ program : Program, program.types = session.table → ∀ id,
        (program.hasShallowEffect id session.memo).1 = (program.hasShallowEffect id .empty).1 ∧
        (program.hasEffect id session.memo).1 = (program.hasEffect id .empty).1 := by
  refine ⟨fun _ _ _ => right_start.run_iff, ?_, ?_, ?_⟩
  · intro operations answers session hrun
    exact right_start.run_iff.mp (right_start.run hrun).2.without_questions
  · intro before answers session before' answers' session' hrun hrun' hbare operations
    exact (right_start.run hrun).1.answers_eq (right_start.run hrun').1 hbare operations
  · intro operations answers session hrun program htypes id
    have hsound := (right_start.run hrun).1.sound
    rw [← htypes] at hsound
    have hagree := Program.agrees_of_sound hsound (PurityMemo.sound_empty _)
    exact ⟨Program.hasShallowEffect_of_agrees hagree id, Program.hasEffect_of_agrees hagree id⟩

-- A pure function of a tuple with a renamed pointer in it, asked about before it is entered and
-- after, entered once more, and copied with what is remembered about it.
theorem run_of_exposed_function :
    let function : Shape := .Function ⟨[⟨⟨12⟩, false⟩], .int, ⟨true, true⟩⟩
    ∃ last, PlainSession.Run .start
      [.Make (.Pointer .int), .Enter 0, .Make (.Alias ⟨0⟩ ⟨10⟩), .Enter 1,
        .Make (.Tuple [.int, ⟨11⟩]), .Enter 2, .Make function, .AskHeld 3, .Enter 3, .AskType ⟨13⟩,
        .Make function, .Enter 4, .CopyType ⟨13⟩, .AskHeld 5]
      [.Done, .Entered ⟨10⟩, .Done, .Entered ⟨11⟩, .Done, .Entered ⟨12⟩, .Done, .Level .Weak,
        .Entered ⟨13⟩, .Level .Weak, .Done, .Entered ⟨13⟩, .Done, .Level .Weak] last := by
  intro function
  have hrun : (start.run
      [.Make (.Pointer .int), .Enter 0, .Make (.Alias ⟨0⟩ ⟨10⟩), .Enter 1,
        .Make (.Tuple [.int, ⟨11⟩]), .Enter 2, .Make function, .AskHeld 3, .Enter 3, .AskType ⟨13⟩,
        .Make function, .Enter 4, .CopyType ⟨13⟩, .AskHeld 5]).map Prod.fst =
      some [.Done, .Entered ⟨10⟩, .Done, .Entered ⟨11⟩, .Done, .Entered ⟨12⟩, .Done, .Level .Weak,
        .Entered ⟨13⟩, .Level .Weak, .Done, .Entered ⟨13⟩, .Done, .Level .Weak] := by
    decide +kernel
  obtain ⟨⟨_, last⟩, hlast, rfl⟩ := Option.map_eq_some_iff.mp hrun
  exact ⟨last.bare, (memo_unobservable.1 _ _ _).mpr ⟨last, hlast, rfl⟩⟩

end Session

end EffectLint
