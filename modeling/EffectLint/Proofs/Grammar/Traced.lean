import EffectLint.Proofs.Grammar.Listed
import EffectLint.Proofs.Grammar.Traces

/-!
Reading phrase by phrase. What is read from some place on fills a list of slots, and a phrase is
made of them when its last one is filled.
-/

namespace EffectLint

namespace Parse

variable {scene : Scene}

-- The tokens from one place up to another one fill a list of slots.
structure Filled (scene : Scene) (clean : Prop) (origin : List Token) (slots : List Slot)
    (rest : List Token) : Prop where
  suffix : origin <:+ scene.tokens
  fills : ∃ run, origin = run ++ rest ∧ Fills clean (Phrase.ReadFrom scene clean) slots run

namespace Filled

variable {clean clean' : Prop} {origin middle rest : List Token} {slots slots' : List Slot}

theorem mono (h : Filled scene clean origin slots rest) (hclean : clean' → clean) :
    Filled scene clean' origin slots rest := by
  obtain ⟨run, horigin, hfills⟩ := h.fills
  exact ⟨h.suffix, run, horigin, hfills.mono hclean fun _ _ hread => hread.mono hclean⟩

theorem nothing (hrest : rest <:+ scene.tokens) : Filled scene clean rest [] rest :=
  ⟨hrest, [], rfl, .Nil⟩

theorem append (h : Filled scene clean origin slots middle)
    (h' : Filled scene clean middle slots' rest) : Filled scene clean origin (slots ++ slots') rest := by
  obtain ⟨run, rfl, hfills⟩ := h.fills
  obtain ⟨run', rfl, hfills'⟩ := h'.fills
  exact ⟨h.suffix, run ++ run', by simp, hfills.append hfills'⟩

theorem rest_suffix (h : Filled scene clean origin slots rest) : rest <:+ origin := by
  obtain ⟨run, rfl, -⟩ := h.fills
  exact List.suffix_append run rest

theorem token {slot : Slot} {token : Token} (h : Filled scene clean origin slots (token :: rest))
    (hslot : slot.Takes token) : Filled scene clean origin (slots ++ [slot]) rest :=
  h.append ⟨h.rest_suffix.trans h.suffix, [token], rfl, .Taken hslot .Nil⟩

theorem missed {slot : Slot} (h : Filled scene clean origin slots rest) (hclean : ¬clean)
    (hslot : slot.mayMiss = true) : Filled scene clean origin (slots ++ [slot]) rest :=
  h.append ⟨h.rest_suffix.trans h.suffix, [], rfl, .Missed hclean hslot .Nil⟩

theorem strays (h : Filled scene clean origin slots middle) (hclean : ¬clean)
    (hrest : rest <:+ middle) : Filled scene clean origin slots rest := by
  obtain ⟨run, rfl⟩ := hrest
  have hstrays := h.append ⟨h.rest_suffix.trans h.suffix, run, rfl, Fills.strays hclean run⟩
  rwa [List.append_nil] at hstrays

theorem missing {phrase : Phrase} {span : Span} (h : Filled scene clean origin slots rest)
    (hclean : ¬clean) (hphrase : phrase.missing? = some span) (hspan : scene.Marks span) :
    Filled scene clean origin (slots ++ [.Part phrase]) rest :=
  h.append ⟨h.rest_suffix.trans h.suffix, [], rfl, .one (.Missing hclean hphrase hspan)⟩

-- The range of what was read from some place on, at least one token.
def Spanned (origin rest : List Token) (span : Span) : Prop :=
  ∀ run, origin = run ++ rest → span.Covers run

theorem whole {phrase : Phrase} (h : Filled scene clean origin slots rest)
    (hform : phrase.Form slots) (hspan : ∀ span ∈ phrase.span?, Spanned origin rest span) :
    Filled scene clean origin [.Part phrase] rest := by
  obtain ⟨run, horigin, hfills⟩ := h.fills
  exact ⟨h.suffix, run, horigin, .one (.Whole hform hfills fun span h => hspan span h run horigin)⟩

end Filled

-- Reading stands where it began.
def Outset (scene : Scene) (origin : List Token) (cursor : Cursor) : Prop :=
  origin <:+ scene.tokens ∧ cursor.rest = origin

-- What was read from some place on fills a list of slots.
def Since (scene : Scene) (origin : List Token) (slots : List Slot) (cursor : Cursor) : Prop :=
  Filled scene cursor.quiet origin slots cursor.rest

variable {origin : List Token} {slots slots' : List Slot} {cursor : Cursor}

theorem Outset.since (h : Outset scene origin cursor) : Since scene origin [] cursor := by
  obtain ⟨hsuffix, hrest⟩ := h
  unfold Since
  rw [hrest]
  exact .nothing hsuffix

theorem Past.imp {before before' : Cursor → Prop} {token : Token} (h : Past scene before token cursor)
    (himp : ∀ cursor, before cursor → before' cursor) : Past scene before' token cursor :=
  ⟨himp _ h.1, h.2⟩

theorem Since.token (slot : Slot) {token : Token} (hslot : slot.Takes token)
    (h : Past scene (Since scene origin slots) token cursor) :
    Since scene origin (slots ++ [slot]) cursor :=
  Filled.token h.1 hslot

theorem Past.name {token : Token} (hkind : token.kind = .Identifier)
    (h : Past scene (Since scene origin slots) token cursor) :
    Since scene origin (slots ++ [.Part (.Name ⟨token.text, token.span⟩)]) cursor := by
  refine Filled.append h.1 ⟨h.2.1, [token], rfl, .one (.Whole .Name (.Taken hkind .Nil) ?_)⟩
  rintro span ⟨⟩
  exact Span.covers_one token

-- Where a token had to be taken, reading has moved on.
theorem Since.moved (h : Since scene origin slots cursor)
    (htoken : slots.any Slot.isToken = true) : cursor.rest ≠ origin := by
  obtain ⟨run, horigin, hfills⟩ := h.fills
  intro hrest
  rw [hrest] at horigin
  exact hfills.ne_nil htoken (List.append_left_eq_self.mp horigin.symm)

-- So it has where a part was read that is not missing.
theorem Since.moved_of_part (h : Since scene origin slots cursor) (phrase : Phrase)
    (hpart : phrase ∈ slots.filterMap Slot.phrase?) (hspan : phrase.span?.isSome = true)
    (hthere : phrase.missing? = none) : cursor.rest ≠ origin := by
  obtain ⟨run, horigin, hfills⟩ := h.fills
  intro hrest
  rw [hrest] at horigin
  exact Phrase.filled_of_part hfills hpart hspan (.inr hthere)
    (List.append_left_eq_self.mp horigin.symm)

-- A phrase that has no range of its own.
theorem Since.whole {phrase : Phrase} (h : Since scene origin slots cursor)
    (hform : phrase.Form slots) (hspan : phrase.span? = none) :
    Since scene origin [.Part phrase] cursor :=
  Filled.whole h hform fun span hmem => by simp [hspan] at hmem

theorem Since.missed {slot : Slot} (h : Since scene origin slots cursor) (hnoisy : ¬cursor.quiet)
    (hslot : slot.mayMiss = true) : Since scene origin (slots ++ [slot]) cursor :=
  Filled.missed h hnoisy hslot

theorem Said.since (h : Said (Since scene origin slots) cursor) :
    Since scene origin slots cursor := by
  obtain ⟨hnoisy, earlier, hsince, hrest⟩ := h
  unfold Since at hsince ⊢
  rw [← hrest]
  exact hsince.mono fun h => absurd h hnoisy

-- What stands for a phrase of which no token is there.
theorem Said.missing {phrase : Phrase} {span : Span} (h : Said (Outset scene origin) cursor)
    (hphrase : phrase.missing? = some span) (hspan : scene.Marks span) :
    Since scene origin [.Part phrase] cursor := by
  obtain ⟨hnoisy, earlier, hhere, hrest⟩ := h
  have hsince : Filled scene cursor.quiet origin [] cursor.rest := by
    rw [← hrest]
    exact hhere.since.mono fun h => absurd h hnoisy
  exact hsince.missing hnoisy hphrase hspan

-- Where the next token is, a complaint can be made before another one was made behind it.
theorem Here.allows {diagnostic : Diagnostic} (h : Here scene diagnostic.span cursor)
    (hspans : diagnostic.spans = [diagnostic.span]) : cursor.Allows scene diagnostic := by
  refine ⟨fun span hspan => ?_, Nat.le_of_eq h.start, .inr h.fresh⟩
  rw [hspans] at hspan
  rw [List.mem_singleton.mp hspan]
  exact h.marks

-- So it can about a token that was just taken.
theorem Past.allows {before : Cursor → Prop} {token : Token} {diagnostic : Diagnostic}
    (h : Past scene before token cursor) (hspan : diagnostic.span = token.span)
    (hspans : diagnostic.spans = [diagnostic.span]) : cursor.Allows scene diagnostic := by
  obtain ⟨-, hsuffix, hfresh⟩ := h
  refine ⟨fun span hmem => ?_, ?_, .inr (by rwa [hspan])⟩
  · rw [hspans, hspan] at hmem
    rw [List.mem_singleton.mp hmem]
    exact .of_covers (Span.covers_one token)
      ((List.prefix_append [token] cursor.rest).isInfix.trans hsuffix.isInfix)
  · rw [hspan]
    exact offset_mono hsuffix (List.suffix_cons token cursor.rest)

theorem Said.imp {before before' : Cursor → Prop} (h : Said before cursor)
    (himp : ∀ cursor, before cursor → before' cursor) : Said before' cursor :=
  ⟨h.1, h.2.imp fun _ ⟨hbefore, hrest⟩ => ⟨himp _ hbefore, hrest⟩⟩

namespace Traces

variable {α β : Type} {before : Cursor → Prop} {after : α → Cursor → Prop}

-- What is read from any place on where it can start is read behind what has been read.
theorem onward {body : Parse α} (starts : List Token → Prop) {seen : List Token → α → Cursor → Prop}
    (h : ∀ middle, starts middle → Traces scene (Outset scene middle) body (seen middle)) :
    Traces scene (fun cursor => Since scene origin slots cursor ∧ starts cursor.rest) body
      fun result cursor => ∃ middle, starts middle ∧ Filled scene cursor.quiet origin slots middle ∧
        seen middle result cursor := by
  refine (resume fun earlier hearlier hsuffix => (h earlier.rest hearlier.2).of_before
    fun cursor hcursor => ⟨hsuffix, hcursor ▸ rfl⟩).imp fun result cursor hthere => ?_
  obtain ⟨earlier, hearlier, hquiet, hseen⟩ := hthere
  exact ⟨earlier.rest, hearlier.2, hearlier.1.mono hquiet, hseen⟩

theorem parts_where {body : Parse α} (starts : List Token → Prop) (good : α → List Slot → Prop)
    (h : ∀ origin, starts origin → Traces scene (Outset scene origin) body fun result cursor =>
      ∃ more, good result more ∧ Since scene origin more cursor) :
    Traces scene (fun cursor => Since scene origin slots cursor ∧ starts cursor.rest) body
      fun result cursor => ∃ more, good result more ∧ Since scene origin (slots ++ more) cursor :=
  (onward starts h).imp fun _ _ ⟨_, _, hfilled, more, hgood, hread⟩ => ⟨more, hgood, hfilled.append hread⟩

theorem parts {body : Parse α} {good : α → List Slot → Prop}
    (h : ∀ origin, Traces scene (Outset scene origin) body fun result cursor =>
      ∃ more, good result more ∧ Since scene origin more cursor) :
    Traces scene (Since scene origin slots) body fun result cursor =>
      ∃ more, good result more ∧ Since scene origin (slots ++ more) cursor :=
  (parts_where (fun _ => True) good fun origin _ => h origin).of_before fun _ h => ⟨h, trivial⟩

theorem part_where {body : Parse α} (starts : List Token → Prop) (phrase : α → Phrase)
    (h : ∀ origin, starts origin → Traces scene (Outset scene origin) body fun result =>
      Since scene origin [.Part (phrase result)]) :
    Traces scene (fun cursor => Since scene origin slots cursor ∧ starts cursor.rest) body
      fun result => Since scene origin (slots ++ [.Part (phrase result)]) := by
  refine (parts_where starts (fun result more => more = [.Part (phrase result)])
    fun origin hstarts => (h origin hstarts).imp fun result cursor hthere => ⟨_, rfl, hthere⟩).imp
    fun result cursor hthere => ?_
  obtain ⟨more, rfl, hsince⟩ := hthere
  exact hsince

theorem part {body : Parse α} (phrase : α → Phrase)
    (h : ∀ origin, Traces scene (Outset scene origin) body fun result =>
      Since scene origin [.Part (phrase result)]) :
    Traces scene (Since scene origin slots) body fun result =>
      Since scene origin (slots ++ [.Part (phrase result)]) :=
  (part_where (fun _ => True) phrase fun origin _ => h origin).of_before fun _ h => ⟨h, trivial⟩

theorem opening {next : Span → Parse α}
    (h : ∀ span, scene.Marks span → Traces scene before (next span) after) :
    Traces scene before (Parse.here >>= next) after :=
  here.bind fun span => knowing (fun _ h => h.2.marks) fun hmarks =>
    (h span hmarks).of_before fun _ h => h.1

-- The place where reading begins is the one of the next token.
theorem beginning {next : Span → Parse α}
    (h : ∀ span, scene.Marks span → span.start = scene.offset origin →
      Traces scene (fun cursor => Outset scene origin cursor ∧ Here scene span cursor) (next span)
        after) :
    Traces scene (Outset scene origin) (Parse.here >>= next) after := by
  refine here.bind fun span => knowing (fun _ h => h.2.marks) fun hmarks =>
    knowing (fun cursor hhere => (?_ : span.start = scene.offset origin)) fun hstart =>
    h span hmarks hstart
  rw [hhere.2.start, hhere.1.2]

theorem starting {next : Span → Parse α}
    (h : ∀ span, span.start = scene.offset origin →
      Traces scene (Outset scene origin) (next span) after) :
    Traces scene (Outset scene origin) (Parse.here >>= next) after :=
  beginning fun span _ hstart => (h span hstart).of_before fun _ h => h.1

theorem took (kind : TokenKind) :
    Traces scene (fun cursor => Since scene origin slots cursor ∧ nextKind cursor.rest = some kind)
      Parse.take fun _ => Since scene origin (slots ++ [.Token kind]) := by
  refine (take fun _ hhere => ne_nil_of_nextKind hhere.2).imp fun _ cursor ⟨token, _, hpast⟩ => ?_
  exact Since.token (.Token kind) (Option.some.inj hpast.1.2) (hpast.imp fun _ h => h.1)

theorem skipped (kind : TokenKind) :
    Traces scene (fun cursor => Since scene origin slots cursor ∧ nextKind cursor.rest = some kind)
      Parse.skip fun _ => Since scene origin (slots ++ [.Token kind]) :=
  (took kind).bind fun _ => .pure fun _ h => h

-- The token that something is begun with.
theorem begun (kind : TokenKind) :
    Traces scene (fun cursor => Outset scene origin cursor ∧ nextKind cursor.rest = some kind)
      Parse.skip fun _ => Since scene origin [.Token kind] := by
  have hskip : Traces scene
      (fun cursor => Since scene origin [] cursor ∧ nextKind cursor.rest = some kind)
      Parse.skip fun _ => Since scene origin [.Token kind] := skipped kind
  exact hskip.of_before fun _ h => ⟨h.1.since, h.2⟩

-- A phrase that is written by one token.
theorem leaf {span : Span} {kind : TokenKind} {phrase : Phrase} (hform : phrase.Form [.Token kind])
    (hspan : phrase.span? = some span) :
    Traces scene (fun cursor => (Outset scene origin cursor ∧ Here scene span cursor) ∧
      nextKind cursor.rest = some kind) Parse.skip fun _ => Since scene origin [.Part phrase] := by
  refine (skip fun _ hhere => ne_nil_of_nextKind hhere.2).imp fun _ cursor ⟨token, hpast⟩ => ?_
  obtain ⟨⟨⟨⟨hsuffix, rfl⟩, hhere⟩, hkind⟩, -⟩ := hpast
  refine ⟨hsuffix, [token], rfl, .one (.Whole hform (.Taken (Option.some.inj hkind) .Nil) ?_)⟩
  rw [hspan, ← hhere.next token rfl]
  rintro other ⟨⟩
  exact Span.covers_one token

theorem eat (kind : TokenKind) : Traces scene before (Parse.eat kind) fun found cursor =>
    (found = true → ∃ token, token.kind = kind ∧ Past scene before token cursor) ∧
      (found = false → before cursor ∧ nextKind cursor.rest ≠ some kind) := by
  refine (isAt kind).bind fun found => .choose (fun hfound => ?_) fun hfound => ?_
  · refine (skip fun _ hhere => ne_nil_of_nextKind (hhere.2.mp hfound)).bind fun _ =>
      .pure fun cursor hthere => ⟨fun _ => ?_, nofun⟩
    obtain ⟨token, ⟨hbefore, hnext⟩, hpast⟩ := hthere
    exact ⟨token, Option.some.inj (hnext.mp hfound), hbefore, hpast⟩
  · exact .pure fun cursor hhere => ⟨nofun, fun _ => ⟨hhere.1, fun hnext => hfound (hhere.2.mpr hnext)⟩⟩

theorem eaten {kind : TokenKind} {yes no : Parse α}
    (hyes : Traces scene (Since scene origin (slots ++ [.Token kind])) yes after)
    (hno : Traces scene (fun cursor => Since scene origin slots cursor ∧
      nextKind cursor.rest ≠ some kind) no after) :
    Traces scene (Since scene origin slots) (do if ← Parse.eat kind then yes else no) after := by
  refine (eat kind).bind fun found => .choose (fun hfound => hyes.of_before fun cursor hthere => ?_)
    fun hfound => hno.of_before fun cursor hthere => hthere.2 (Bool.eq_false_iff.mpr hfound)
  obtain ⟨token, hkind, hpast⟩ := hthere.1 hfound
  exact Since.token (.Token kind) hkind hpast

theorem complained {diagnostic : Span → Diagnostic} {next : Unit → Parse α}
    (hspans : ∀ span, (diagnostic span).spans = [span])
    (h : Traces scene (Said before) (next ()) after) :
    Traces scene before (Parse.here >>= fun span => Parse.complain (diagnostic span) >>= next)
      after := by
  refine here.bind fun span => (complain fun cursor hhere => ?_).bind fun _ =>
    h.of_before fun cursor hthere => hthere.imp fun _ h => h.1
  have hspan : (diagnostic span).span = span := (List.cons.inj (hspans span)).1
  refine Here.allows ?_ (by rw [hspans, hspan])
  rw [hspan]
  exact hhere.2

theorem expect (kind : TokenKind) (missing : DiagnosticKind) :
    Traces scene (Since scene origin slots) (Parse.expect kind missing) fun found cursor =>
      Since scene origin (slots ++ [.Expected kind]) cursor ∧ (found = false → ¬cursor.quiet) := by
  refine (eat kind).bind fun found => .choose (fun hfound => ?_) fun hfound => ?_
  · refine .pure fun cursor hthere => ⟨?_, nofun⟩
    obtain ⟨token, hkind, hpast⟩ := hthere.1 hfound
    exact Since.token (.Expected kind) hkind hpast
  · refine complained (fun _ => rfl) (.pure fun cursor hthere => ?_)
    have hsince := (hthere.imp fun _ h => (h.2 (Bool.eq_false_iff.mpr hfound)).1).since
    exact ⟨Since.missed hsince hthere.1 rfl, fun _ => hthere.1⟩

theorem expected (kind : TokenKind) (missing : DiagnosticKind) :
    Traces scene (Since scene origin slots) (Parse.expect kind missing) fun _ =>
      Since scene origin (slots ++ [.Expected kind]) :=
  (expect kind missing).imp fun _ _ h => h.1

theorem close_any {sign : Sign} {missing : DiagnosticKind} {opening : String} {opened : Span}
    (hopened : scene.Marks opened) (hmissing : missing.isPositional = false) :
    Traces scene before (Parse.close sign missing opening opened) fun _ cursor =>
      (∃ token, token.kind = .Sign sign ∧ Past scene before token cursor) ∨ Said before cursor := by
  refine (eat _).bind fun found => .choose (fun hfound => ?_) fun hfound => ?_
  · exact .pure fun cursor hthere => .inl (hthere.1 hfound)
  · refine Traces.opening fun span hspan => (report (by exact hmissing) fun cursor _ => ?_).imp
      fun _ cursor hthere => .inr (hthere.imp fun _ h => (h.2 (Bool.eq_false_iff.mpr hfound)).1)
    exact List.forall_mem_cons.mpr ⟨hspan, List.forall_mem_singleton.mpr hopened⟩

theorem close {sign : Sign} {missing : DiagnosticKind} {opening : String} {opened : Span}
    (hopened : scene.Marks opened) (hmissing : missing.isPositional = false) :
    Traces scene (Since scene origin slots) (Parse.close sign missing opening opened) fun _ =>
      Since scene origin (slots ++ [.Expected (.Sign sign)]) := by
  refine (close_any hopened hmissing).imp fun _ cursor hthere => ?_
  rcases hthere with ⟨token, hkind, hpast⟩ | hsaid
  · exact Since.token (.Expected _) hkind hpast
  · exact hsaid.since.missed hsaid.1 rfl

theorem closeParen {opened : Span} (hopened : scene.Marks opened) :
    Traces scene (Since scene origin slots) (Parse.closeParen opened) fun _ =>
      Since scene origin (slots ++ [.Expected (.Sign .ParenClose)]) :=
  close hopened rfl

-- What is passed over after a complaint fills no slot.
theorem passed : Traces scene (fun cursor => Since scene origin slots cursor ∧ ¬cursor.quiet)
    Parse.skip fun _ cursor => Since scene origin slots cursor ∧ ¬cursor.quiet := by
  have hbefore : ∀ cursor : Cursor, Since scene origin slots cursor ∧ ¬cursor.quiet →
      ((Since scene origin slots cursor ∧ ¬cursor.quiet) ∧ cursor.rest = []) ∨
        ((Since scene origin slots cursor ∧ ¬cursor.quiet) ∧ cursor.rest ≠ []) :=
    fun cursor hhere => (Classical.em (cursor.rest = [])).imp (⟨hhere, ·⟩) (⟨hhere, ·⟩)
  refine (Traces.split ?_ ?_).of_before hbefore
  · exact (skip_end fun _ h => h.2).imp fun _ _ h => h.1
  · refine (skip fun _ h => h.2).imp fun _ cursor hthere => ?_
    obtain ⟨token, ⟨⟨hsince, hnoisy⟩, -⟩, -⟩ := hthere
    exact ⟨Filled.strays hsince hnoisy (List.suffix_cons _ _), hnoisy⟩

theorem recoverStatement :
    Traces scene (fun cursor => Since scene origin slots cursor ∧ ¬cursor.quiet)
      Parse.recoverStatement fun _ cursor => Since scene origin slots cursor ∧ ¬cursor.quiet := by
  refine rounds (fun _ cursor => Since scene origin slots cursor ∧ ¬cursor.quiet) fun _ =>
    inspect.bind fun next => Traces.of_before ?_ fun _ h => h.1
  split
  · exact .pure fun _ h => h
  · exact passed.bind fun _ => .pure fun _ h => h
  · exact .pure fun _ h => h
  · exact passed.bind fun _ => .pure fun _ h => h

theorem recoverItem :
    Traces scene (fun cursor => Since scene origin slots cursor ∧ ¬cursor.quiet)
      Parse.recoverItem fun _ cursor => Since scene origin slots cursor ∧ ¬cursor.quiet := by
  refine rounds (fun _ cursor => Since scene origin slots cursor ∧ ¬cursor.quiet) fun _ =>
    inspect.bind fun next => Traces.of_before ?_ fun _ h => h.1
  split
  · exact .pure fun _ h => h
  · exact passed.bind fun _ => .choose (fun _ => .pure fun _ h => h) fun _ => .pure fun _ h => h

theorem expectSemicolon : Traces scene (Since scene origin slots) Parse.expectSemicolon fun _ =>
    Since scene origin (slots ++ [.Expected (.Sign .Semicolon)]) := by
  refine (eat _).bind fun found => .choose (fun hfound => .pure fun cursor hthere => ?_) fun hfound => ?_
  · obtain ⟨token, hkind, hpast⟩ := hthere.1 hfound
    exact Since.token (.Expected _) hkind hpast
  · refine complained (fun _ => rfl) (recoverStatement.weaken
      (fun cursor hhere => (?_ : Since scene origin slots cursor ∧ _))
      fun _ cursor hthere => hthere.1.missed hthere.2 rfl)
    exact ⟨(hhere.imp fun _ h => (h.2 (Bool.eq_false_iff.mpr hfound)).1).since, hhere.1⟩

theorem expectName : Traces scene before Parse.expectName fun found cursor =>
    (∀ name, found = some name → ∃ token, token.kind = .Identifier ∧
      name = ⟨token.text, token.span⟩ ∧ Past scene before token cursor) ∧
    (found = none → Said (fun cursor => before cursor ∧ nextKind cursor.rest ≠ some .Identifier)
      cursor) := by
  refine (isAt _).bind fun found => .choose (fun hfound => ?_) fun hfound => ?_
  · refine here.bind fun span => (take fun _ hhere => ne_nil_of_nextKind (hhere.1.2.mp hfound)).bind
      fun text => .pure fun cursor hthere => ⟨fun name hname => ?_, nofun⟩
    obtain ⟨token, rfl, ⟨⟨hbefore, hnext⟩, hhere⟩, hpast⟩ := hthere
    refine ⟨token, Option.some.inj (hnext.mp hfound), ?_, hbefore, hpast⟩
    rw [hhere.next token rfl]
    exact (Option.some.inj hname).symm
  · exact complained (fun _ => rfl) (.pure fun cursor hthere => ⟨nofun, fun _ =>
      hthere.imp fun _ h => ⟨h.1, fun hnext => hfound (h.2.mpr hnext)⟩⟩)

theorem name : Traces scene (Since scene origin slots) Parse.expectName fun found cursor =>
    (∀ name, found = some name → Since scene origin (slots ++ [.Part (.Name name)]) cursor) ∧
    (found = none → Since scene origin slots cursor ∧ ¬cursor.quiet) := by
  refine expectName.imp fun found cursor hthere => ⟨fun name hname => ?_, fun hnone => ?_⟩
  · obtain ⟨token, hkind, rfl, hpast⟩ := hthere.1 name hname
    exact hpast.name hkind
  · exact ⟨((hthere.2 hnone).imp fun _ h => h.1).since, (hthere.2 hnone).1⟩

-- A phrase is made of all that was read since it was begun.
theorem made_of {start : Nat} (phrase : Span → Phrase) (hform : ∀ span, (phrase span).Form slots)
    (hspan : ∀ span, (phrase span).span? = some span) (hstart : start = scene.offset origin)
    (hmoved : ∀ cursor, Since scene origin slots cursor → cursor.rest ≠ origin) :
    Traces scene (Since scene origin slots) (Parse.since start) fun span =>
      Since scene origin [.Part (phrase span)] := by
  refine (since start).imp fun span cursor ⟨hsince, _, hcovers⟩ => Filled.whole hsince (hform span) ?_
  rw [hspan]
  rintro other ⟨⟩ run horigin
  refine hcovers run (horigin ▸ hsince.suffix) ?_ (horigin ▸ hstart)
  rintro rfl
  exact hmoved cursor hsince horigin.symm

theorem made {start : Nat} (phrase : Span → Phrase) (hform : ∀ span, (phrase span).Form slots)
    (hspan : ∀ span, (phrase span).span? = some span) (hstart : start = scene.offset origin)
    (htoken : slots.any Slot.isToken = true) :
    Traces scene (Since scene origin slots) (Parse.since start) fun span =>
      Since scene origin [.Part (phrase span)] :=
  made_of phrase hform hspan hstart fun _ hsince => hsince.moved htoken

-- Whatever was read since some place on, its range can be shown.
theorem marked {start : Nat} (hstart : start = scene.offset origin)
    (htoken : slots.any Slot.isToken = true)
    (hbefore : ∀ cursor, before cursor → Since scene origin slots cursor) :
    Traces scene before (Parse.since start) fun span cursor =>
      before cursor ∧ span.start = start ∧ scene.Marks span := by
  refine (since start).imp fun span cursor ⟨hhere, hspan, hcovers⟩ => ⟨hhere, hspan, ?_⟩
  have hsince := hbefore cursor hhere
  obtain ⟨run, horigin, hfills⟩ := hsince.fills
  have hrun : run <:+: scene.tokens :=
    (horigin ▸ List.prefix_append run cursor.rest).isInfix.trans hsince.suffix.isInfix
  exact .of_covers (hcovers run (horigin ▸ hsince.suffix) (hfills.ne_nil htoken) (horigin ▸ hstart))
    hrun

-- Where a phrase cannot be made, what was read since its beginning stands for it.
theorem erred {start : Nat} (hstart : start = scene.offset origin)
    (htoken : slots.any Slot.isToken = true) :
    Traces scene (fun cursor => Since scene origin slots cursor ∧ ¬cursor.quiet) (Parse.since start)
      fun span => Since scene origin [.Part (.Expr (.Error span))] := by
  refine (marked hstart htoken fun _ h => h.1).imp fun span cursor
    ⟨⟨hsince, hnoisy⟩, _, hmarks⟩ => ?_
  exact ((Filled.nothing hsince.suffix).strays hnoisy hsince.rest_suffix).missing hnoisy rfl hmarks

-- A list of phrases, up to what closes it.
theorem listed {item : Parse α} (phrase : α → Phrase)
    (hitem : ∀ origin, Traces scene (Outset scene origin) item fun result =>
      Since scene origin [.Part (phrase result)]) :
    Traces scene (Since scene origin slots) (Parse.rounds #[] (Grammar.listRound item))
      fun found cursor => ∃ listed, Slot.CommaList (found.toList.map phrase) listed ∧
        Since scene origin (slots ++ listed) cursor := by
  have hdone : ∀ (found : Array α) cursor,
      Since scene origin (slots ++ Slot.separated (found.toList.map phrase)) cursor →
      ∃ listed, Slot.CommaList (found.toList.map phrase) listed ∧
        Since scene origin (slots ++ listed) cursor :=
    fun found cursor hsince => ⟨_, .Trailing _, hsince⟩
  refine (rounds (fun found : Array α => Since scene origin
    (slots ++ Slot.separated (found.toList.map phrase))) fun found => ?_).of_before fun cursor hhere => ?_
  · refine (isAt _).bind fun closes => .choose (fun _ => .pure fun cursor h => hdone found cursor h.1)
      fun _ => Traces.of_before ?_ fun _ h => h.1
    refine atEnd.bind fun ends => .choose (fun _ => .pure fun cursor h => hdone found cursor h.1)
      fun _ => Traces.of_before ?_ fun _ h => h.1
    refine (part phrase hitem).bind fun one => .eaten (.pure fun cursor hsince => ?_)
      (.pure fun cursor hhere => ?_)
    · simpa [Round.leaves, Slot.separated] using hsince
    · refine ⟨Slot.separated (found.toList.map phrase) ++ [.Part (phrase one)], ?_, ?_⟩
      · rw [Array.toList_push, List.map_append]
        exact .Plain _ _
      · rw [← List.append_assoc]
        exact hhere.1
  · simpa [Slot.separated] using hhere

end Traces

end Parse

end EffectLint
