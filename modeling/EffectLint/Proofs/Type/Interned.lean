import EffectLint.Proofs.Type.Descent
import EffectLint.Proofs.Type.Store

/-!
What the two stores of types promise at any time, whatever was made, copied, entered and asked before.
They agree: a shape has one number, and a number has one shape forever. The parts of a shape have smaller
numbers, which is why everything that follows a type down to its parts comes to an end.
-/

namespace EffectLint

theorem TypeTable.shape?_of_isBuiltin {type : TypeId} (h : type.isBuiltin = true) :
    start.shape? type = builtins[type.index]? := by
  have hall : ∀ index < 10, start.shape? ⟨index⟩ = builtins[index]? := by
    decide +kernel
  exact hall type.index (Nat.lt_succ_of_le (of_decide_eq_true h))

namespace PlainSession

open Session (Operation Answer)

variable {first next last : PlainSession} {operation : Operation} {operations : List Operation}
  {answer : Answer} {answers : List Answer}

theorem Step.keeps (h : Step first operation answer next) :
    first.table.shapes.Keeps next.table.shapes := by
  cases h with
  | Enter => exact TypeTable.keeps_insert
  | _ => exact .refl _

theorem Run.keeps (h : Run first operations answers last) :
    first.table.shapes.Keeps last.table.shapes := by
  induction h with
  | Done => exact .refl _
  | Steps hstep _ ih => exact hstep.keeps.trans ih

end PlainSession

namespace StoreSession

open Session (Operation Answer)

variable {session : StoreSession} {operations : List Operation} {answers : List Answer}

-- After any run: the two stores agree, so no two numbers have the same shape, a shape that is there is
-- not entered again, and one that is entered has its number from then on; the types known from the
-- start are there, and every type stands behind its parts. The answers are those of a single table.
theorem types_interned_once (hrun : start.run operations = some (answers, session)) :
    let store := session.store
    let table := store.table
    (∀ (held : HeldShape) (type : TypeId),
      store.numbers[held]? = some type ↔ store.shape? type = some held.shape) ∧
    (∀ one other shape, store.shape? one = some shape → store.shape? other = some shape →
      one = other) ∧
    (∀ held type, store.shape? type = some held.shape → store.intern held = (type, store)) ∧
    (∀ held, (store.intern held).2.shape? (store.intern held).1 = some held.shape) ∧
    (∀ operations answers later, session.run operations = some (answers, later) →
      ∀ type shape, store.shape? type = some shape → later.store.shape? type = some shape) ∧
    (∀ type, type.isBuiltin = true → store.shape? type = TypeTable.builtins[type.index]?) ∧
    (∀ basic, store.shape? (.ofBasic basic) = some (.Basic basic)) ∧
    store.shape? .null = some .Null ∧ store.shape? .error = some .Error ∧
    (∀ type shape, store.shape? type = some shape → ∀ part ∈ shape.parts, part.index < type.index) ∧
    (∃ single, Session.start.run operations = some (answers, single) ∧ single.table = table ∧
      single.held = session.held ∧
      ∀ type, single.memo.find? type = (store.held? type).bind HeldShape.answer) ∧
    (∀ type, table.shape? type = store.shape? type) ∧
    ∀ type, type.index < store.entries.size →
      (∀ last, table.following.Ends table type last ↔ table.resolve type = last) ∧
      (∀ name target, store.shape? (table.resolve type) ≠ some (.Alias name target)) ∧
      table.resolve (table.resolve type) = table.resolve type ∧
      (∀ answer, table.exposing.Ends table type answer ↔
        table.hasMutableIndirection type = answer) ∧
      ∀ names text, (table.writing names).Ends table type text ↔ table.text names type = text := by
  intro store table
  obtain ⟨single, hsingle, hmirrors⟩ := Mirrors.start.exists_single hrun
  have hright := (Session.right_start.run hsingle).1
  have hclosed : single.table.Closed := hright.closed
  have htable : table = single.table := hmirrors.table_eq
  have hshapes : store.shape? = single.table.shape? := funext fun type => (hmirrors.shapes type).symm
  have hagree := hmirrors.agree
  rw [TypeStore.Agree, hshapes] at hagree
  rw [htable, hshapes]
  refine ⟨hagree, fun _ _ _ => TypeTable.eq_of_shape?, ?_, hmirrors.shape?_intern, ?_,
    ?_, fun basic => hclosed.builtin (TypeTable.shape?_ofBasic basic),
    hclosed.builtin TypeTable.shape?_null, hclosed.builtin TypeTable.shape?_error, hclosed.older,
    ⟨single, hsingle, rfl, hmirrors.held, hmirrors.memo⟩, fun _ => rfl, ?_⟩
  · intro held type hheld
    exact TypeStore.intern_of_number ((hagree held type).mpr hheld)
  · intro operations answers later hmore type shape hheld
    obtain ⟨last, hlast, hlater⟩ := hmirrors.exists_single hmore
    rw [← hlater.shapes]
    exact (hright.run hlast).2.keeps type.index shape hheld
  · intro type hbuiltin
    have hstart := TypeTable.shape?_of_isBuiltin hbuiltin
    have hlt : type.index < TypeTable.builtins.length :=
      Nat.lt_succ_of_le (of_decide_eq_true hbuiltin)
    rw [List.getElem?_eq_getElem hlt] at hstart ⊢
    exact hclosed.builtin hstart
  · intro type hlt
    have hknown : single.table.Known type := TypeTable.known_iff.mpr (hmirrors.size_eq ▸ hlt)
    exact ⟨fun _ => hclosed.ends_following_iff hknown, hclosed.shape?_resolve_ne_Alias hknown,
      hclosed.resolve_resolve hknown, fun _ => hclosed.ends_exposing_iff hknown,
      fun names _ => hclosed.ends_writing_iff names hknown⟩

-- A delegate whose parameter is a tuple with a pointer behind two aliases. Its function is asked about
-- before it is entered, and a copy that carries the answer is entered once more.
def exposedDelegate : List Operation :=
  [.Make (.Pointer .int), .Enter 0, .Make (.Alias ⟨0⟩ ⟨10⟩), .Enter 1,
    .Make (.Alias ⟨1⟩ ⟨11⟩), .Enter 2, .Make (.Tuple [.int, ⟨12⟩]), .Enter 3,
    .Make (.Function ⟨[⟨⟨13⟩, false⟩], .int, ⟨true, true⟩⟩), .AskHeld 4, .Enter 4,
    .Make (.Delegate ⟨14⟩), .Enter 5, .CopyType ⟨14⟩, .Enter 6]

theorem types_interned_once_in_exposedDelegate :
    let names := ((NameTable.empty.insert "Link").2.insert "Next").2
    ∃ session, start.run exposedDelegate =
        some ([.Done, .Entered ⟨10⟩, .Done, .Entered ⟨11⟩, .Done, .Entered ⟨12⟩, .Done,
          .Entered ⟨13⟩, .Done, .Level .Weak, .Entered ⟨14⟩, .Done, .Entered ⟨15⟩, .Done,
          .Entered ⟨14⟩], session) ∧
      session.store.numbers[(⟨.Pointer .int, none⟩ : HeldShape)]? = some ⟨10⟩ ∧
      session.store.table.following.Ends session.store.table ⟨12⟩ ⟨10⟩ ∧
      session.store.table.exposing.Ends session.store.table ⟨13⟩ true ∧
      (session.store.table.writing names).Ends session.store.table ⟨15⟩
        "int delegate(tuple(int, Next)) pure nothrow" := by
  intro names
  have hsingle : (Session.start.run exposedDelegate).map (fun done =>
      (done.1, done.2.table.size, done.2.table.resolve ⟨12⟩,
        done.2.table.hasMutableIndirection ⟨13⟩, done.2.table.text names ⟨15⟩)) =
      some ([.Done, .Entered ⟨10⟩, .Done, .Entered ⟨11⟩, .Done, .Entered ⟨12⟩, .Done,
        .Entered ⟨13⟩, .Done, .Level .Weak, .Entered ⟨14⟩, .Done, .Entered ⟨15⟩, .Done,
        .Entered ⟨14⟩], 16, ⟨10⟩, true, "int delegate(tuple(int, Next)) pure nothrow") := by
    decide +kernel
  have hpointer : (Session.start.run exposedDelegate).map (fun done => done.2.table.shape? ⟨10⟩) =
      some (some (.Pointer .int)) := by
    decide +kernel
  obtain ⟨⟨answers, single⟩, hsingle, hfound⟩ := Option.map_eq_some_iff.mp hsingle
  simp only [Prod.mk.injEq] at hfound
  obtain ⟨rfl, hsize, hresolve, hexposed, htext⟩ := hfound
  rw [hsingle, Option.map_some, Option.some.injEq] at hpointer
  obtain ⟨session, hrun, hmirrors⟩ := Mirrors.start.exists_stores hsingle
  obtain ⟨hagree, -, -, -, -, -, -, -, -, -, -, -, hends⟩ := types_interned_once hrun
  have hlt : ∀ index < 16, index < session.store.entries.size := fun index hlt => by
    rwa [← hmirrors.size_eq, hsize]
  rw [← hmirrors.table_eq] at hresolve hexposed htext
  refine ⟨session, hrun, (hagree _ _).mpr ?_, ?_, ?_, ?_⟩
  · rw [← hmirrors.shapes, hpointer]
  · exact ((hends ⟨12⟩ (hlt 12 (by decide))).1 _).mpr hresolve
  · exact ((hends ⟨13⟩ (hlt 13 (by decide))).2.2.2.1 _).mpr hexposed
  · exact ((hends ⟨15⟩ (hlt 15 (by decide))).2.2.2.2 names _).mpr htext

end StoreSession

end EffectLint
