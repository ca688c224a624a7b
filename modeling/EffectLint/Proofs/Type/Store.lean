import EffectLint.Proofs.Effect.Session

/-!
Types in two stores: the shapes by their numbers, each with the answer that it carries, and the
numbers by their shapes, where it does not matter which answer a shape carries. A shape that is entered
goes into both. At any time each of the two tells what the other one does, and together they do what a
single table does that is searched.
-/

namespace EffectLint

deriving instance Hashable for Symbol, TypeId, BasicType, Promises, ParameterType, Signature, Shape

namespace HeldShape

-- The answer is not part of what a shape is.
instance : BEq HeldShape :=
  ⟨fun one other => one.shape == other.shape⟩

instance : Hashable HeldShape :=
  ⟨fun held => hash held.shape⟩

theorem beq_iff {one other : HeldShape} : (one == other) = true ↔ one.shape = other.shape := by
  change (one.shape == other.shape) = true ↔ _
  exact beq_iff_eq

instance : EquivBEq HeldShape where
  rfl := beq_iff.mpr rfl
  symm h := beq_iff.mpr (beq_iff.mp h).symm
  trans h h' := beq_iff.mpr ((beq_iff.mp h).trans (beq_iff.mp h'))

instance : LawfulHashable HeldShape where
  hash_eq one other h := by
    change hash one.shape = hash other.shape
    rw [beq_iff.mp h]

end HeldShape

structure TypeStore where
  entries : Array HeldShape
  numbers : Std.HashMap HeldShape TypeId

namespace TypeStore

def empty : TypeStore :=
  ⟨#[], ∅⟩

def held? (store : TypeStore) (type : TypeId) : Option HeldShape :=
  store.entries[type.index]?

def shape? (store : TypeStore) (type : TypeId) : Option Shape :=
  (store.held? type).map HeldShape.shape

-- The number of a shape, which is the next free one if the shape is new.
def intern (store : TypeStore) (held : HeldShape) : TypeId × TypeStore :=
  match store.numbers[held]? with
  | some type => (type, store)
  | none =>
      let type : TypeId := ⟨store.entries.size⟩
      (type, ⟨store.entries.push held, store.numbers.insert held type⟩)

def start : TypeStore :=
  TypeTable.builtins.foldl (fun store shape => (store.intern ⟨shape, none⟩).2) empty

-- The answer is left with the shape that has the number.
def remember (store : TypeStore) (type : TypeId) (purity : Purity) : TypeStore :=
  { store with
    entries := store.entries.modify type.index fun entry => { entry with answer := some purity } }

-- The shapes alone, as a table in which a type can be followed down to its parts.
def table (store : TypeStore) : TypeTable :=
  (store.entries.toList.map HeldShape.shape).foldl (fun table shape => (table.insert shape).2)
    ⟨.empty⟩

-- The two stores tell the same.
def Agree (store : TypeStore) : Prop :=
  ∀ (held : HeldShape) (type : TypeId),
    store.numbers[held]? = some type ↔ store.shape? type = some held.shape

end TypeStore

-- Two stores and the shapes at hand.
structure StoreSession where
  store : TypeStore
  held : List HeldShape

namespace StoreSession

open Session (Operation Answer)

def start : StoreSession :=
  ⟨.start, []⟩

def hold (session : StoreSession) (shape : HeldShape) : StoreSession :=
  { session with held := session.held ++ [shape] }

-- An answer that is found is left with the shape that was asked about, and nowhere else.
def step (session : StoreSession) : Operation → Option (Answer × StoreSession)
  | .Make shape =>
      if ∀ part ∈ shape.parts, part.index < session.store.entries.size then
        some (.Done, session.hold ⟨shape, none⟩)
      else none
  | .CopyType type => do
      let entry ← session.store.held? type
      return (.Done, session.hold entry)
  | .CopyHeld place => do
      let held ← session.held[place]?
      return (.Done, session.hold held)
  | .Enter place => do
      let held ← session.held[place]?
      let (type, store) := session.store.intern held
      return (.Entered type, { session with store })
  | .AskType type => do
      let entry ← session.store.held? type
      let signature ← entry.shape.signature?
      let purity := entry.answer.getD (signature.purity session.store.table)
      return (.Level purity, { session with store := session.store.remember type purity })
  | .AskHeld place => do
      let held ← session.held[place]?
      let signature ← held.shape.signature?
      let purity := held.answer.getD (signature.purity session.store.table)
      return (.Level purity,
        { session with held := session.held.set place { held with answer := some purity } })

def run (session : StoreSession) : List Operation → Option (List Answer × StoreSession)
  | [] => some ([], session)
  | operation :: rest => do
      let (answer, next) ← session.step operation
      let (answers, last) ← run next rest
      return (answer :: answers, last)

end StoreSession

theorem Numbering.eq_of_values {α : Type} {one other : Numbering α} (h : one.values = other.values) :
    one = other := by
  cases one
  cases other
  cases h
  rfl

theorem TypeTable.shape?_insert_of_new {table : TypeTable} {shape : Shape}
    (hnew : table.shapes.find? shape = none) (type : TypeId) :
    (table.insert shape).2.shape? type =
      if type = (table.insert shape).1 then some shape else table.shape? type := by
  obtain ⟨hnumber, hvalues⟩ := Numbering.insert_of_new hnew
  have hnext : (table.insert shape).1 = ⟨table.shapes.size⟩ := congrArg TypeId.mk hnumber
  obtain ⟨index⟩ := type
  change (table.shapes.insert shape).2.values[index]? = _
  rw [hvalues, hnext, Array.getElem?_push]
  simp only [TypeId.mk.injEq]
  rfl

-- Shapes that are all new get the next numbers, one after the other.
theorem TypeTable.toList_foldl_insert {table : TypeTable} {shapes : List Shape}
    (hnew : (table.shapes.values.toList ++ shapes).Nodup) :
    (shapes.foldl (fun table shape => (table.insert shape).2) table).shapes.values.toList =
      table.shapes.values.toList ++ shapes := by
  induction shapes generalizing table with
  | nil => rw [List.foldl_nil, List.append_nil]
  | cons first rest ih =>
      have hfirst : (table.insert first).2.shapes.values.toList =
          table.shapes.values.toList ++ [first] := by
        have hfresh : first ∉ table.shapes.values.toList := fun hmem =>
          (List.nodup_append.mp hnew).2.2 first hmem first List.mem_cons_self rfl
        have hinsert := Numbering.toList_insert table.shapes first
        rwa [if_neg hfresh] at hinsert
      have happend : table.shapes.values.toList ++ first :: rest =
          (table.insert first).2.shapes.values.toList ++ rest := by
        rw [hfirst, List.append_assoc, List.singleton_append]
      rw [happend] at hnew ⊢
      exact ih hnew

namespace TypeStore

variable {store : TypeStore} {held : HeldShape} {type : TypeId}

theorem toList_eq {table : TypeTable} (h : ∀ type, table.shape? type = store.shape? type) :
    table.shapes.values.toList = store.entries.toList.map HeldShape.shape := by
  refine List.ext_getElem? fun index => ?_
  rw [List.getElem?_map, Array.getElem?_toList, Array.getElem?_toList]
  exact h ⟨index⟩

theorem table_eq {table : TypeTable} (h : ∀ type, table.shape? type = store.shape? type) :
    store.table = table := by
  have h := toList_eq h
  have hnew : ((⟨.empty⟩ : TypeTable).shapes.values.toList ++
      store.entries.toList.map HeldShape.shape).Nodup := h ▸ table.shapes.distinct
  have hvalues := (TypeTable.toList_foldl_insert hnew).trans h.symm
  exact congrArg TypeTable.mk (Numbering.eq_of_values (Array.toList_inj.mp hvalues))

theorem held?_push (entries : Array HeldShape) (numbers : Std.HashMap HeldShape TypeId)
    (held : HeldShape) (type : TypeId) :
    held? ⟨entries.push held, numbers⟩ type =
      if type = ⟨entries.size⟩ then some held else entries[type.index]? := by
  rw [held?, Array.getElem?_push]
  obtain ⟨index⟩ := type
  simp only [TypeId.mk.injEq]

theorem held?_next (store : TypeStore) : store.held? ⟨store.entries.size⟩ = none :=
  Array.getElem?_eq_none (Nat.le_refl _)

theorem shape?_next (store : TypeStore) : store.shape? ⟨store.entries.size⟩ = none := by
  rw [shape?, held?_next, Option.map_none]

theorem intern_of_number (h : store.numbers[held]? = some type) :
    store.intern held = (type, store) := by
  rw [TypeStore.intern, h]

theorem intern_of_new (h : store.numbers[held]? = none) :
    store.intern held = (⟨store.entries.size⟩,
      ⟨store.entries.push held, store.numbers.insert held ⟨store.entries.size⟩⟩) := by
  rw [TypeStore.intern, h]

-- A shape that is new goes into both stores, so they still agree.
theorem Agree.intern (h : store.Agree) (held : HeldShape) : (store.intern held).2.Agree := by
  cases hfound : store.numbers[held]? with
  | some type =>
      rw [intern_of_number hfound]
      exact h
  | none =>
      rw [intern_of_new hfound]
      intro other type
      rw [Std.HashMap.getElem?_insert, shape?, held?_push]
      by_cases hsame : held.shape = other.shape
      · rw [if_pos (HeldShape.beq_iff.mpr hsame)]
        by_cases hnext : type = ⟨store.entries.size⟩
        · rw [if_pos hnext, Option.map_some, hsame, hnext]
          exact iff_of_true rfl rfl
        · have hfree : store.shape? type ≠ some held.shape := fun hshape => by
            cases hfound.symm.trans ((h held type).mpr hshape)
          rw [if_neg hnext, ← hsame]
          exact iff_of_false (fun heq => hnext (Option.some.inj heq).symm) hfree
      · rw [if_neg fun heq => hsame (HeldShape.beq_iff.mp heq), h other type]
        by_cases hnext : type = ⟨store.entries.size⟩
        · rw [if_pos hnext, hnext, shape?_next, Option.map_some, Option.some.injEq]
          exact iff_of_false nofun hsame
        · rw [if_neg hnext]
          rfl

theorem held?_remember (store : TypeStore) (type other : TypeId) (purity : Purity) :
    (store.remember type purity).held? other =
      if other = type then (store.held? other).map fun entry => { entry with answer := some purity }
      else store.held? other := by
  obtain ⟨index⟩ := type
  obtain ⟨index'⟩ := other
  rw [held?, remember, Array.getElem?_modify]
  simp only [TypeId.mk.injEq, eq_comm (a := index)]
  rfl

theorem shape?_remember (store : TypeStore) (type other : TypeId) (purity : Purity) :
    (store.remember type purity).shape? other = store.shape? other := by
  rw [shape?, shape?, held?, remember, Array.getElem?_modify]
  split
  · rw [Option.map_map]
    rfl
  · rfl

end TypeStore

theorem Session.enter_of_shape? {session : Session} {held : HeldShape} {type : TypeId}
    (h : session.table.shape? type = some held.shape) : session.enter held = (type, session) := by
  simp only [enter, TypeTable.insert_of_shape? h, h]

theorem PurityMemo.find?_insert (memo : PurityMemo) (type other : TypeId) (purity : Purity) :
    (memo.insert type purity).find? other = if other = type then some purity else memo.find? other := by
  rw [find?, insert, List.lookup_cons]
  by_cases h : other = type
  · rw [if_pos h, beq_iff_eq.mpr h]
  · rw [if_neg h, beq_false_of_ne h]
    rfl

theorem Session.find?_enter_of_new {session : Session} {held : HeldShape}
    (hnew : session.table.shape? (session.table.insert held.shape).1 = none) (type : TypeId) :
    (session.enter held).2.memo.find? type =
      if type = (session.table.insert held.shape).1 then held.answer.or (session.memo.find? type)
      else session.memo.find? type := by
  simp only [enter, hnew]
  cases held.answer with
  | none => rw [Option.none_or, ite_self]
  | some purity => rw [PurityMemo.find?_insert, Option.some_or]

namespace StoreSession

open Session (Operation Answer)

-- A session with two stores and one with a single table, in which the answers are remembered apart.
structure Mirrors (stores : StoreSession) (single : Session) : Prop where
  agree : stores.store.Agree
  shapes : ∀ type, single.table.shape? type = stores.store.shape? type
  memo : ∀ type, single.memo.find? type = (stores.store.held? type).bind HeldShape.answer
  held : single.held = stores.held

namespace Mirrors

variable {stores : StoreSession} {single : Session}

theorem table_eq (h : stores.Mirrors single) : stores.store.table = single.table :=
  TypeStore.table_eq h.shapes

theorem size_eq (h : stores.Mirrors single) : single.table.size = stores.store.entries.size := by
  have hlength := congrArg List.length (TypeStore.toList_eq h.shapes)
  rwa [List.length_map, Array.length_toList, Array.length_toList] at hlength

theorem hold (h : stores.Mirrors single) (held : HeldShape) :
    (stores.hold held).Mirrors (single.hold held) :=
  ⟨h.agree, h.shapes, h.memo, congrArg (· ++ [held]) h.held⟩

theorem find?_eq_none (h : stores.Mirrors single) {held : HeldShape}
    (hnew : stores.store.numbers[held]? = none) :
    single.table.shapes.find? held.shape = none := by
  refine Numbering.find?_eq_none_iff.mpr fun hmem => ?_
  obtain ⟨index, hindex⟩ := Array.mem_iff_getElem?.mp hmem
  have hshape : stores.store.shape? ⟨index⟩ = some held.shape := (h.shapes ⟨index⟩).symm.trans hindex
  cases hnew.symm.trans ((h.agree held ⟨index⟩).mpr hshape)

theorem enter (h : stores.Mirrors single) (held : HeldShape) :
    (single.enter held).1 = (stores.store.intern held).1 ∧
      Mirrors { stores with store := (stores.store.intern held).2 } (single.enter held).2 := by
  have hagree := h.agree.intern held
  cases hfound : stores.store.numbers[held]? with
  | some type =>
      have hshape := (h.shapes type).trans ((h.agree held type).mp hfound)
      rw [TypeStore.intern_of_number hfound, Session.enter_of_shape? hshape]
      exact ⟨rfl, h⟩
  | none =>
      have hnew := h.find?_eq_none hfound
      have htype : (single.table.insert held.shape).1 = ⟨stores.store.entries.size⟩ :=
        congrArg TypeId.mk ((Numbering.insert_of_new hnew).1.trans h.size_eq)
      have hnext : single.table.shape? (single.table.insert held.shape).1 = none := by
        rw [htype, h.shapes, TypeStore.shape?_next]
      rw [TypeStore.intern_of_new hfound] at hagree ⊢
      refine ⟨htype, hagree, fun type => ?_, fun type => ?_, h.held⟩
      · rw [TypeStore.shape?, TypeStore.held?_push]
        refine (TypeTable.shape?_insert_of_new hnew type).trans ?_
        rw [htype, apply_ite (Option.map HeldShape.shape), h.shapes]
        rfl
      · rw [TypeStore.held?_push, Session.find?_enter_of_new hnext, htype, h.memo]
        split
        · next hlast =>
          rw [hlast, TypeStore.held?_next, Option.bind_none, Option.or_none]
          rfl
        · rfl

-- What is remembered of a type is left with its shape.
theorem askType (h : stores.Mirrors single) {type : TypeId} {entry : HeldShape}
    (hentry : stores.store.held? type = some entry) (signature : Signature) :
    let purity := entry.answer.getD (signature.purity stores.store.table)
    let asked := single.table.purity ⟨type, signature⟩ single.memo
    asked.1 = purity ∧
      Mirrors { stores with store := stores.store.remember type purity }
        { single with memo := asked.2 } := by
  have hfound : single.memo.find? type = entry.answer := by rw [h.memo, hentry, Option.bind_some]
  have hagree : ∀ purity, (stores.store.remember type purity).Agree := fun purity held other => by
    rw [TypeStore.shape?_remember]
    exact h.agree held other
  have hshapes : ∀ purity other, single.table.shape? other =
      (stores.store.remember type purity).shape? other := fun purity other => by
    rw [TypeStore.shape?_remember, h.shapes]
  rw [h.table_eq, TypeTable.purity, hfound]
  cases hanswer : entry.answer with
  | none =>
      refine ⟨rfl, hagree _, hshapes _, fun other => ?_, h.held⟩
      rw [PurityMemo.find?_insert, TypeStore.held?_remember, h.memo]
      split
      · next hsame => rw [hsame, hentry, Option.map_some, Option.bind_some, Option.getD_none]
      · rfl
  | some known =>
      refine ⟨rfl, hagree _, hshapes _, fun other => ?_, h.held⟩
      rw [TypeStore.held?_remember, h.memo]
      split
      · next hsame =>
        rw [hsame, hentry, Option.map_some, Option.bind_some, Option.bind_some, hanswer,
          Option.getD_some]
      · rfl

-- Both do the same, and give the same answer.
theorem step (h : stores.Mirrors single) (operation : Operation) :
    Option.Rel (fun done done' => done.1 = done'.1 ∧ done.2.Mirrors done'.2) (stores.step operation)
      (single.step operation) := by
  cases operation with
  | Make shape =>
      rw [StoreSession.step, Session.step, h.size_eq]
      split
      · exact .some ⟨rfl, h.hold _⟩
      · exact .none
  | CopyType type =>
      rw [StoreSession.step, Session.step, h.shapes, TypeStore.shape?, h.memo]
      cases stores.store.held? type with
      | none => exact .none
      | some entry => exact .some ⟨rfl, h.hold entry⟩
  | CopyHeld place =>
      rw [StoreSession.step, Session.step, h.held]
      cases stores.held[place]? with
      | none => exact .none
      | some held => exact .some ⟨rfl, h.hold held⟩
  | Enter place =>
      rw [StoreSession.step, Session.step, h.held]
      cases stores.held[place]? with
      | none => exact .none
      | some held =>
          obtain ⟨htype, hnext⟩ := h.enter held
          exact .some ⟨congrArg Answer.Entered htype.symm, hnext⟩
  | AskType type =>
      rw [StoreSession.step, Session.step, h.shapes, TypeStore.shape?]
      cases hentry : stores.store.held? type with
      | none => exact .none
      | some entry =>
          obtain ⟨shape, answer⟩ := entry
          cases shape with
          | Function signature =>
              obtain ⟨hpurity, hnext⟩ := h.askType hentry signature
              exact .some ⟨congrArg Answer.Level hpurity.symm, hnext⟩
          | _ => exact .none
  | AskHeld place =>
      rw [StoreSession.step, Session.step, h.held, h.table_eq]
      cases stores.held[place]? with
      | none => exact .none
      | some held =>
          obtain ⟨shape, answer⟩ := held
          cases shape with
          | Function signature => exact .some ⟨rfl, h.agree, h.shapes, h.memo, rfl⟩
          | _ => exact .none

theorem run (h : stores.Mirrors single) (operations : List Operation) :
    Option.Rel (fun done done' => done.1 = done'.1 ∧ done.2.Mirrors done'.2) (stores.run operations)
      (single.run operations) := by
  induction operations generalizing stores single with
  | nil => exact .some ⟨rfl, h⟩
  | cons operation rest ih =>
      rw [StoreSession.run, Session.run]
      have hstep := h.step operation
      generalize stores.step operation = done at hstep ⊢
      generalize single.step operation = done' at hstep ⊢
      cases hstep with
      | none => exact .none
      | some hdone =>
          obtain ⟨hanswer, hnext⟩ := hdone
          have hrest := ih hnext
          dsimp only [Option.bind_eq_bind, Option.bind_some]
          generalize StoreSession.run _ rest = last at hrest ⊢
          generalize Session.run _ rest = last' at hrest ⊢
          cases hrest with
          | none => exact .none
          | some hlast => exact .some ⟨congr (congrArg List.cons hanswer) hlast.1, hlast.2⟩

-- The runs with two stores are those with a single table.
theorem exists_single (h : stores.Mirrors single) {operations : List Operation}
    {answers : List Answer} {last : StoreSession}
    (hrun : stores.run operations = some (answers, last)) :
    ∃ last', single.run operations = some (answers, last') ∧ last.Mirrors last' := by
  have hboth := h.run operations
  rw [hrun] at hboth
  generalize single.run operations = done at hboth ⊢
  cases hboth with
  | some hdone => exact ⟨_, congrArg some (Prod.ext hdone.1.symm rfl), hdone.2⟩

theorem exists_stores (h : stores.Mirrors single) {operations : List Operation}
    {answers : List Answer} {last' : Session} (hrun : single.run operations = some (answers, last')) :
    ∃ last, stores.run operations = some (answers, last) ∧ last.Mirrors last' := by
  have hboth := h.run operations
  rw [hrun] at hboth
  generalize stores.run operations = done at hboth ⊢
  cases hboth with
  | some hdone => exact ⟨_, congrArg some (Prod.ext hdone.1 rfl), hdone.2⟩

theorem shape?_intern (h : stores.Mirrors single) (held : HeldShape) :
    (stores.store.intern held).2.shape? (stores.store.intern held).1 = some held.shape := by
  obtain ⟨htype, hnext⟩ := h.enter held
  have hshape := hnext.shapes (stores.store.intern held).1
  rw [← htype] at hshape ⊢
  exact hshape.symm.trans TypeTable.shape?_insert

theorem enterAll (h : stores.Mirrors single) (shapes : List Shape) :
    Mirrors
      { stores with
        store := shapes.foldl (fun store shape => (store.intern ⟨shape, none⟩).2) stores.store }
      { single with
        table := shapes.foldl (fun table shape => (table.insert shape).2) single.table } := by
  induction shapes generalizing stores single with
  | nil => exact h
  | cons first rest ih =>
      have hfirst := (h.enter ⟨first, none⟩).2
      have hmemo : (single.enter ⟨first, none⟩).2 =
          { single with table := (single.table.insert first).2 } := by
        simp only [Session.enter]
        cases single.table.shape? (single.table.insert first).1 <;> rfl
      rw [hmemo] at hfirst
      exact ih hfirst

theorem start : StoreSession.start.Mirrors Session.start := by
  have hempty : Mirrors ⟨.empty, []⟩ ⟨⟨.empty⟩, .empty, []⟩ := by
    refine ⟨fun held type => ?_, fun type => rfl, fun type => rfl, rfl⟩
    rw [TypeStore.empty, Std.HashMap.getElem?_empty]
    exact iff_of_false nofun nofun
  exact hempty.enterAll TypeTable.builtins

end Mirrors

end StoreSession

end EffectLint
