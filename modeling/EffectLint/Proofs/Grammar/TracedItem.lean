import EffectLint.Proofs.Grammar.PlacedItem
import EffectLint.Proofs.Grammar.TracedStatement
import EffectLint.Proofs.Token.Cover

/-!
The items of a module, followed token by token, up to the whole text that they are read from.
-/

namespace EffectLint

open Parse

namespace Grammar

variable {scene : Scene} {origin : List Token} {slots : List Slot} {start : Nat}

-- The slots of a run of items, with semicolons anywhere between them.
def ItemSlots (items : List Item) (slots : List Slot) : Prop :=
  slots.filterMap Slot.phrase? = items.map .Item ∧
    ∀ slot ∈ slots, slot.phrase? = none → slot = .Token (.Sign .Semicolon)

theorem ItemSlots.append {items items' : List Item} {slots' : List Slot} (h : ItemSlots items slots)
    (h' : ItemSlots items' slots') : ItemSlots (items ++ items') (slots ++ slots') :=
  ⟨by rw [List.filterMap_append, List.map_append, h.1, h'.1], List.forall_mem_append.mpr ⟨h.2, h'.2⟩⟩

-- Where no item is found and no token was taken, something has been said.
def ItemTraced (scene : Scene) (origin : List Token) (found : Option Item) (cursor : Cursor) : Prop :=
  (∃ more, ItemSlots found.toList more ∧ Since scene origin more cursor) ∧
    (cursor.rest = origin → ¬cursor.quiet)

theorem ItemTraced.found {item : Item} {cursor : Cursor}
    (h : Since scene origin [.Part (.Item item)] cursor) : ItemTraced scene origin (some item) cursor :=
  ⟨⟨_, ⟨rfl, by simp [Slot.phrase?]⟩, h⟩,
    noisy_of_unmoved h fun _ h hquiet => h.item_ne_nil hquiet⟩

theorem ItemTraced.given_up {cursor : Cursor} (h : Since scene origin slots cursor)
    (hnoisy : ¬cursor.quiet) : ItemTraced scene origin none cursor :=
  ⟨⟨[], ⟨rfl, nofun⟩, (Filled.nothing h.suffix).strays hnoisy h.rest_suffix⟩, fun _ => hnoisy⟩

-- A name behind the word that an item starts with.
theorem traced_worded {kind : TokenKind} {body : Name → Parse (Option Item)}
    (hbody : ∀ name, Traces scene (Since scene origin [.Token kind, .Part (.Name name)]) (body name)
      (ItemTraced scene origin)) :
    Traces scene (fun cursor => Outset scene origin cursor ∧ nextKind cursor.rest = some kind) (do
      skip
      match ← expectName with
      | none => return none
      | some name => body name) (ItemTraced scene origin) := by
  refine (Traces.begun _).bind fun _ =>
    Traces.name.bind fun found => ?_
  cases found with
  | none => exact .pure fun _ h => .given_up (h.2 rfl).1 (h.2 rfl).2
  | some name => exact (hbody name).of_before fun _ h => h.1 name rfl

theorem traced_readImport :
    Traces scene (fun cursor => Outset scene origin cursor ∧
      nextKind cursor.rest = some (.Word .Import)) readImport (ItemTraced scene origin) :=
  traced_worded fun _ => Traces.expectSemicolon.bind fun _ =>
    .pure fun _ h => .found (h.whole .Import rfl)

theorem traced_readClass :
    Traces scene (fun cursor => Outset scene origin cursor ∧
      nextKind cursor.rest = some (.Word .Class)) readClass (ItemTraced scene origin) :=
  traced_worded fun _ => Traces.expectSemicolon.bind fun _ =>
    .pure fun _ h => .found (h.whole .Class rfl)

theorem traced_readAlias :
    Traces scene (fun cursor => Outset scene origin cursor ∧
      nextKind cursor.rest = some (.Word .Alias)) readAlias (ItemTraced scene origin) :=
  traced_worded fun _ => (Traces.expected _ _).bind fun _ =>
    (Traces.part .Type (traced_type traced_read)).bind fun _ => Traces.expectSemicolon.bind fun _ =>
    .pure fun _ h => .found (h.whole .Alias rfl)

theorem traced_readFunction {leading : List Slot} (promises : Promises) (result : TypeTree)
    (name : Name) (hstart : start = scene.offset origin) (hleading : Slot.Promising leading)
    (hthere : leading ≠ [] ∨ result.isError = false) :
    Traces scene (Since scene origin (leading ++ [.Part (.Type result), .Part (.Name name)]))
      (readFunction start promises result name)
      fun item => Since scene origin [.Part (.Item item)] := by
  refine (traced_readParameters traced_read).bind fun parameters => Traces.given fun listed =>
    Traces.knowing (fun _ h => h.1) fun hlisted => ((Traces.parts fun _ => traced_readPromises.imp
      fun _ _ ⟨words, hwords, hsince, _⟩ => ⟨words, hwords, hsince⟩).of_before fun _ h => h.2).bind
    fun also => Traces.given fun trailing => Traces.knowing (fun _ h => h.1) fun htrailing =>
    Traces.of_before ?_ fun _ h => h.2
  have hbehind : ∀ body : Option Block, Traces scene
      (Since scene origin (leading ++ (.Part (.Type result) :: .Part (.Name name) ::
        .Expected (.Sign .ParenOpen) :: (listed ++ (.Expected (.Sign .ParenClose) ::
          (trailing ++ body.elim [.Expected (.Sign .Semicolon)] fun block => [.Part (.Block block)]))))))
      (do return Item.Function ⟨← since start, name, promises.both also, result, parameters, body⟩)
      fun item => Since scene origin [.Part (.Item item)] := by
    refine fun body => (Traces.made_of (fun span => .Item (.Function
      ⟨span, name, promises.both also, result, parameters, body⟩)) (fun _ =>
      .Function hleading hlisted htrailing) (fun _ => rfl) hstart fun _ hsince => ?_).bind
      fun _ => .pure fun _ h => h
    exact moved_of_declared hsince hleading hthere
  refine (Traces.isAt _).bind fun found => .choose (fun hfound => ?_) fun _ => ?_
  · rw [map_eq_pure_bind]
    refine (((Traces.part_where (fun rest => nextKind rest = some (.Sign .BraceOpen))
      .Block fun origin hopens => (traced_readBlock traced_read).of_before
        fun cursor h => ⟨h, h.2 ▸ hopens⟩).of_before fun _ h => ⟨h.1, h.2.mp hfound⟩).bind
      fun block => .pure fun cursor hsince => ?_).bind hbehind
    simpa using hsince
  · refine (Traces.expectSemicolon.of_before fun _ h => h.1).bind fun _ =>
      Traces.bind (.pure fun cursor hsince => ?_) hbehind
    simpa using hsince

-- What may stand where a declaration is read.
def startsDeclaration (next : Option TokenKind) : Prop :=
  TokenKind.startsType next = true ∨ next = some (.Word .Pure) ∨ next = some (.Word .Nothrow)

theorem traced_readGlobal {leading : List Slot} (type : TypeTree) (name : Name)
    (hstart : start = scene.offset origin) (hleading : Slot.Promising leading)
    (hthere : leading ≠ [] ∨ type.isError = false) :
    Traces scene (Since scene origin (leading ++ [.Part (.Type type), .Part (.Name name)])) (do
        let value ← readInitialValue read
        expectSemicolon
        return some (.Global ⟨← since start, type, name, value⟩)) (ItemTraced scene origin) := by
  refine (traced_readInitialValue traced_read).bind fun value => Traces.expectSemicolon.bind fun _ =>
    ((traced_variable leading type name value hstart hleading hthere).of_before fun cursor hsince => ?_).bind
    fun _ => .pure fun _ h => .found (h.whole .Global rfl)
  simpa using hsince

theorem traced_readDeclaration (hstarts : startsDeclaration (nextKind origin)) :
    Traces scene (Outset scene origin) readDeclaration (ItemTraced scene origin) := by
  refine Traces.starting fun span hstart => traced_readPromises.bind fun promises =>
    Traces.given fun leading => Traces.knowing (fun _ h => h.1) fun hleading => ?_
  have htype : Traces scene (fun cursor => Since scene origin leading cursor ∧
      (leading ≠ [] ∨ TokenKind.startsType (nextKind cursor.rest) = true)) (read .Type)
      fun type cursor => Since scene origin (leading ++ [.Part (.Type type)]) cursor ∧
        (leading ≠ [] ∨ type.isError = false) := by
    refine (Traces.onward (fun rest => leading ≠ [] ∨ TokenKind.startsType (nextKind rest) = true)
      fun middle _ => traced_read .Type middle).imp fun type cursor hthere => ?_
    obtain ⟨middle, hmiddle, hfilled, hsince, hthere⟩ := hthere
    exact ⟨hfilled.append hsince, hmiddle.imp_right hthere⟩
  refine (htype.of_before fun cursor hhere => ⟨hhere.2.1, ?_⟩).bind fun type =>
    Traces.knowing (fun _ h => h.2) fun hthere => (Traces.name.of_before fun _ h => h.1).bind
    fun found => ?_
  · by_cases hnil : leading = []
    · obtain ⟨hrest, hpure, hnothrow⟩ := hhere.2.2 hnil
      rw [hrest] at hpure hnothrow ⊢
      exact .inr (hstarts.resolve_right fun h => h.elim hpure hnothrow)
    · exact .inl hnil
  · cases found with
    | none =>
        exact (Traces.recoverItem.of_before fun _ h => h.2 rfl).bind fun _ =>
          .pure fun _ h => .given_up h.1 h.2
    | some name =>
        refine Traces.of_before ((Traces.isAt _).bind fun _ => .choose (fun _ => ?_) fun _ => ?_)
          fun cursor h => List.append_assoc leading _ _ ▸ h.1 name rfl
        · exact ((traced_readFunction promises type name hstart hleading hthere).of_before
            fun _ h => h.1).bind fun _ => .pure fun _ => .found
        · exact (traced_readGlobal type name hstart hleading hthere).of_before fun _ h => h.1

theorem traced_readItem (horigin : origin ≠ []) :
    Traces scene (Outset scene origin) readItem (ItemTraced scene origin) := by
  refine Traces.inspect.bind fun next => ?_
  have hdeclaration : ∀ kind : TokenKind, startsDeclaration (some kind) → Traces scene
      (fun cursor => Outset scene origin cursor ∧ nextKind cursor.rest = some kind) readDeclaration
      (ItemTraced scene origin) := by
    refine fun kind hkind => Traces.knowing
      (fun _ h => (h.1.2 ▸ h.2 : nextKind origin = some kind)) fun hnext =>
      (traced_readDeclaration ?_).of_before fun _ h => h.1
    rwa [hnext]
  split
  · refine Traces.knowing (fun cursor h => (?_ : False)) nofun
    obtain ⟨⟨-, hrest⟩, hnext⟩ := h
    obtain ⟨token, rest, rfl⟩ := List.exists_cons_of_ne_nil horigin
    rw [hrest] at hnext
    cases hnext
  · exact traced_readImport
  · exact traced_readAlias
  · exact traced_readClass
  · exact (Traces.begun _).bind fun _ =>
      .pure fun _ h => ⟨⟨_, ⟨rfl, by simp⟩, h⟩, fun hunmoved => absurd hunmoved (h.moved rfl)⟩
  · exact hdeclaration _ (.inl rfl)
  · exact hdeclaration _ (.inr (.inl rfl))
  · exact hdeclaration _ (.inr (.inr rfl))
  · exact hdeclaration _ (.inl rfl)
  · refine Traces.complained (fun _ => rfl) ((Traces.recoverItem.of_before
      fun cursor h => (?_ : Since scene origin [] cursor ∧ _)).bind fun _ => .pure fun _ h => .given_up h.1 h.2)
    exact ⟨(h.imp fun _ h => h.1.since).since, h.1⟩

def Itemised (scene : Scene) (origin : List Token) (items : Array Item) (cursor : Cursor) : Prop :=
  ∃ slots, ItemSlots items.toList slots ∧ Since scene origin slots cursor

-- The item of a round is the next one, and where it took no token one is passed over.
theorem traced_itemFound (items : Array Item) {done : Array Item → Cursor → Prop} {count : Nat}
    {middle : List Token} (hcount : count + middle.length = scene.tokens.length)
    (found : Option Item) (hslots : ItemSlots (items.toList ++ found.toList) slots) :
    Traces scene (fun cursor => Since scene origin slots cursor ∧ cursor.rest <:+ middle ∧
        (cursor.rest = middle → ¬cursor.quiet)) (do
      if (← taken) = count then
        skip
      match found with
      | some item => return .Again (items.push item)
      | none => return .Again items)
      (Round.leaves (Itemised scene origin) done) := by
  cases found with
  | some item =>
      refine traced_skip_unmoved (fun _ => pure (Round.Again (items.push item))) hcount
        (.pure fun cursor hsince => ⟨slots, ?_, hsince⟩)
      rwa [Array.toList_push]
  | none =>
      refine traced_skip_unmoved (fun _ => pure (Round.Again items)) hcount
        (.pure fun cursor hsince => ⟨slots, ?_, hsince⟩)
      simpa using hslots

theorem traced_readItemRound (items : Array Item) :
    Traces scene (Itemised scene origin items) (readItemRound items)
      (Round.leaves (Itemised scene origin)
        fun items cursor => Itemised scene origin items cursor ∧ cursor.rest = []) := by
  refine Traces.atEnd.bind fun _ => .choose (fun hends => .pure fun _ h => ⟨h.1, h.2.mp hends⟩)
    fun hgoes => (Traces.given fun middle => ?_).of_before fun cursor ⟨⟨slots, hslots, hsince⟩, hends⟩ =>
      (⟨cursor.rest, ⟨slots, hslots, hsince, rfl⟩, fun hend => hgoes (hends.mpr hend)⟩ :
        ∃ middle, (∃ slots, ItemSlots items.toList slots ∧ Since scene origin slots cursor ∧
          cursor.rest = middle) ∧ middle ≠ [])
  refine Traces.knowing (fun _ h => h.2) fun hmiddle => Traces.of_before (Traces.given fun slots =>
    Traces.knowing (fun _ h => h.1) fun hslots => ?_) fun _ h => h.1
  refine Traces.taken.bind fun count => Traces.knowing
    (fun _ ⟨⟨_, _, hrest⟩, hcounted⟩ =>
      (hrest ▸ hcounted : count + middle.length = scene.tokens.length)) fun hcount => ?_
  have hfound : Traces scene (fun cursor => Since scene origin slots cursor ∧ cursor.rest = middle)
      readItem fun found cursor => ∃ slots, ItemSlots (items.toList ++ found.toList) slots ∧
        Since scene origin slots cursor ∧ cursor.rest <:+ middle ∧
        (cursor.rest = middle → ¬cursor.quiet) := by
    refine (Traces.onward (· = middle) fun _ h => traced_readItem (h ▸ hmiddle)).imp
      fun found cursor hthere => ?_
    obtain ⟨middle, rfl, hfilled, ⟨more, hmore, hsince⟩, hunmoved⟩ := hthere
    exact ⟨_, hslots.append hmore, hfilled.append hsince, hsince.rest_suffix, hunmoved⟩
  exact (hfound.of_before fun _ h => h.1.2).bind fun found => Traces.given fun more =>
    Traces.knowing (fun _ h => h.1) fun hmore => (traced_itemFound items hcount found hmore).of_before
      fun _ h => h.2

theorem traced_readItems :
    Traces scene (Outset scene origin) readItems fun items cursor =>
      (Phrase.Module items).ReadFrom scene cursor.quiet origin := by
  refine ((Traces.rounds (Itemised scene origin) traced_readItemRound).of_before
    fun cursor h => ⟨[], ⟨rfl, nofun⟩, h.since⟩).bind fun items => .pure fun cursor h => ?_
  obtain ⟨⟨slots, hslots, hsince⟩, hend⟩ := h
  obtain ⟨run, rfl, hfills⟩ := hsince.fills
  rw [hend, List.append_nil]
  exact .Whole (.Module hslots.1 hslots.2) hfills nofun

end Grammar

-- The tokens of a text.
def Scene.ofText (text : List Char) : Scene where
  tokens := lex text
  textEnd := Text.width text
  placed := lex_placed text
  filled token htoken := Nat.le_of_lt ((lex_covers text).1 token htoken).1

-- What is known of a text that was read to its end.
structure Parsed.Traced (text : List Char) (parsed : Parsed) : Prop where
  read : (Phrase.Module parsed.items).ReadFrom (Scene.ofText text) (parsed.diagnostics = #[]) (lex text)
  marked : ∀ diagnostic ∈ parsed.diagnostics, ∀ span ∈ diagnostic.spans, (Scene.ofText text).Marks span
  orderly : ∃ last, Diagnostics.Orderly parsed.diagnostics.toList last

theorem ParseState.start_sound (text : List Char) (fuel : Nat) :
    Parse.Sound (Scene.ofText text) (.start (lex text) fuel) where
  behind := ⟨[], rfl, nofun⟩
  counted := Nat.zero_add _
  fresh := nofun
  silent _ := rfl
  marked := nofun
  orderly _ := ⟨.nil, nofun⟩

theorem parse_traced {text : List Char} {fuel depth : Nat} {parsed : Parsed}
    (hparse : parse text fuel depth = .ok parsed) : parsed.Traced text := by
  unfold parse parseTokens at hparse
  cases hrun : Grammar.readItems ⟨Text.width text, depth⟩ (.start (lex text) fuel) with
  | error reason =>
      rw [hrun] at hparse
      cases hparse
  | ok found =>
      rw [hrun] at hparse
      cases hparse
      obtain ⟨hsound, -, hread⟩ := Grammar.traced_readItems _ _ found.1 found.2
        rfl hrun (ParseState.start_sound text fuel) ⟨List.suffix_rfl, rfl⟩
      exact ⟨hread, hsound.marked, _, hsound.orderly⟩

end EffectLint
