import EffectLint.Proofs.Grammar.CleanStatement

/-!
A text that is read without a complaint is made of items that are written of what can be read back.
Its delimiters are balanced and all of its tokens are known, provided that every `tuple` in it is
followed by an opening parenthesis. Nothing looks at that token, so without the proviso a list may
be opened by anything.
-/

namespace EffectLint

namespace Grammar

open Parse

variable {tokens : List Token} {bound : Nat} {stack : List Delimiter} {fact : Prop}

theorem allWritten_someItem {item : Item} (h : item.AllWritten) : ∀ one ∈ some item, one.AllWritten := by
  intro one hmem
  obtain rfl := Option.some.inj hmem
  exact h

theorem clean_readImport :
    Ensures (fun rest => Midway tokens bound stack fact rest ∧ nextKind rest = some (.Word .Import))
      readImport fun item =>
      Midway tokens (bound - 1) stack (fact ∧ ∀ one ∈ item, one.AllWritten) := by
  refine (clean_skip rfl (by simp)).bind fun _ => clean_expectName.bind fun found => ?_
  cases found with
  | none => exact .pure fun _ h => nomatch h.fact.2
  | some name =>
      exact clean_expectSemicolon.bind fun _ => .pure fun _ h => h.mono (by omega) fun hfound =>
        (valid_of_found hfound).imp_right allWritten_someItem

theorem clean_readClass :
    Ensures (fun rest => Midway tokens bound stack fact rest ∧ nextKind rest = some (.Word .Class))
      readClass fun item =>
      Midway tokens (bound - 1) stack (fact ∧ ∀ one ∈ item, one.AllWritten) := by
  refine (clean_skip rfl (by simp)).bind fun _ => clean_expectName.bind fun found => ?_
  cases found with
  | none => exact .pure fun _ h => nomatch h.fact.2
  | some name =>
      exact clean_expectSemicolon.bind fun _ => .pure fun _ h => h.mono (by omega) fun hfound =>
        (valid_of_found hfound).imp_right allWritten_someItem

theorem clean_readAlias :
    Ensures (fun rest => Midway tokens bound stack fact rest ∧ nextKind rest = some (.Word .Alias))
      readAlias fun item =>
      Midway tokens (bound - 1) stack (fact ∧ ∀ one ∈ item, one.AllWritten) := by
  refine (clean_skip rfl (by simp)).bind fun _ => clean_expectName.bind fun found => ?_
  cases found with
  | none => exact .pure fun _ h => nomatch h.fact.2
  | some name =>
      refine (clean_expect _ rfl (by simp) rfl).bind fun _ => (clean_read .Type _ _ _).bind fun target =>
        clean_expectSemicolon.bind fun _ => .pure fun _ h => h.mono (by omega) ?_
      rintro ⟨hfound, htarget⟩
      exact (valid_of_found hfound).imp_right fun hvalid => allWritten_someItem ⟨hvalid, htarget⟩

theorem clean_readFunction (start : Nat) (leading : Promises) (result : TypeTree) (name : Name) :
    Ensures (Midway tokens bound stack
        ((fact ∧ result.WellWritten) ∧ (Lexeme.name name.text).Valid))
      (readFunction start leading result name) fun item =>
      Midway tokens bound stack (fact ∧ item.AllWritten) := by
  refine (clean_readParameters clean_read).bind fun parameters => clean_readPromises.bind
    fun promises => (isAt_unchanged _).bind fun _ => ?_
  have hbehind : ∀ body : Option Block, Ensures (Midway tokens (bound - 1) stack
      ((((fact ∧ result.WellWritten) ∧ (Lexeme.name name.text).Valid) ∧
        ∀ parameter ∈ parameters, parameter.type.WellWritten ∧
          ∀ name ∈ parameter.name, (Lexeme.name name.text).Valid) ∧
        ∀ written ∈ body, ∀ one ∈ written.statements, one.AllWritten)) (do
      return Item.Function ⟨← since start, name, leading.both promises, result, parameters, body⟩)
      fun item => Midway tokens bound stack (fact ∧ item.AllWritten) := by
    refine fun body => (Ensures.since start).bind fun _ => .pure fun _ h => h.mono (Nat.sub_le _ _) ?_
    rintro ⟨⟨⟨⟨hfact, hresult⟩, hname⟩, hparameters⟩, hbody⟩
    exact ⟨hfact, hname, hresult, fun parameter hmem => (hparameters parameter hmem).1,
      fun parameter hmem => (hparameters parameter hmem).2, hbody⟩
  exact .either ((clean_some (clean_readBlock clean_read (read_counted .Statement))).bind hbehind)
    (clean_expectSemicolon.bind fun _ => clean_none.bind hbehind)

theorem clean_readDeclaration :
    Ensures (Midway tokens bound stack fact) readDeclaration fun item =>
      Midway tokens (bound - 1) stack (fact ∧ ∀ one ∈ item, one.AllWritten) := by
  refine Ensures.here.bind fun start => clean_readPromises.bind fun leading =>
    (clean_read .Type _ _ _).bind fun type => clean_expectName.bind fun found => ?_
  cases found with
  | none =>
      exact (stepwise_kept.recoverItem.ensures fun _ h => nomatch h.fact.2).bind fun _ =>
        .pure fun _ (h : False) => h.elim
  | some name =>
      refine Ensures.weaken ?_ (fun _ h => h.mono (Nat.sub_le _ _) valid_of_found) fun _ _ h => h
      refine (isAt_unchanged _).bind fun _ => .either ?_ ?_
      · exact (clean_readFunction start.start leading type name).bind fun _ => .pure fun _ h => h.imp
          fun ⟨hfact, hfunction⟩ => ⟨hfact, allWritten_someItem hfunction⟩
      · refine (clean_readInitialValue clean_read).bind fun value => clean_expectSemicolon.bind
          fun _ => (Ensures.since _).bind fun _ => .pure fun _ h => h.mono (Nat.sub_le _ _) ?_
        rintro ⟨⟨⟨hfact, htype⟩, hname⟩, hvalue⟩
        exact ⟨hfact, allWritten_someItem ⟨htype, hname, hvalue⟩⟩

theorem clean_readItem :
    Ensures (Midway tokens bound stack fact) readItem fun item =>
      Midway tokens (bound - 1) stack (fact ∧ ∀ one ∈ item, one.AllWritten) := by
  have hdeclaration : ∀ next : TokenKind,
      Ensures (fun rest => Midway tokens bound stack fact rest ∧ nextKind rest = some next)
        readDeclaration fun item =>
        Midway tokens (bound - 1) stack (fact ∧ ∀ one ∈ item, one.AllWritten) :=
    fun next => clean_readDeclaration.weaken (fun _ h => h.1) fun _ _ h => h
  refine Ensures.inspect.bind fun next => ?_
  split
  · refine .pure fun rest h => ?_
    obtain ⟨hmidway, hnone⟩ := h
    cases rest with
    | nil => exact ⟨⟨hmidway.fact, nofun⟩, Nat.zero_le _, hmidway.sound, hmidway.closes⟩
    | cons token rest => cases hnone
  · exact clean_readImport
  · exact clean_readAlias
  · exact clean_readClass
  · exact (clean_skip rfl (by simp)).bind fun _ => .pure fun _ h => h.imp fun hfact => ⟨hfact, nofun⟩
  · exact hdeclaration _
  · exact hdeclaration _
  · exact hdeclaration _
  · exact hdeclaration _
  · exact Ensures.here.bind fun _ => (Ensures.complain rfl).bind fun _ =>
      stepwise_kept.recoverItem.bind fun _ => .pure fun _ h => h.elim

theorem clean_readItemRound (items : Array Item) :
    Ensures (Midway tokens bound stack (fact ∧ ∀ one ∈ items.toList, one.AllWritten))
      (readItemRound items)
      (Round.meets
        (fun next => Midway tokens bound stack (fact ∧ ∀ one ∈ next.toList, one.AllWritten))
        fun last rest => Midway tokens bound stack (fact ∧ ∀ one ∈ last.toList, one.AllWritten) rest ∧
          rest = []) := by
  refine Ensures.atEnd.bind fun ends => .choose (fun hends => .pure fun rest h => ?_) fun hmore => ?_
  · obtain ⟨hmidway, rfl⟩ := h
    exact ⟨hmidway, List.isEmpty_iff.mp hends⟩
  refine (clean_taking (stepwise_counted.readItem read_counted) (fun _ => clean_readItem)
    fun found => ?_).weaken (fun rest h => ⟨h.1, fun hnone => hmore (by rw [h.2, hnone]; rfl)⟩)
    fun _ _ h => h
  cases found with
  | none => exact .pure fun _ h => h.imp And.left
  | some item =>
      refine .pure fun _ h => h.imp ?_
      rintro ⟨⟨hfact, hitems⟩, hitem⟩
      refine ⟨hfact, fun one hmem => ?_⟩
      rw [Array.toList_push, List.mem_append, List.mem_singleton] at hmem
      rcases hmem with hmem | rfl
      · exact hitems one hmem
      · exact hitem one rfl

theorem clean_readItems :
    Ensures (Midway tokens bound stack fact) readItems fun items rest =>
      Midway tokens bound stack (fact ∧ ∀ one ∈ items, one.AllWritten) rest ∧ rest = [] := by
  have hrounds : Ensures (Midway tokens bound stack fact) (rounds #[] readItemRound) _ :=
    (Ensures.rounds (fun items => Midway tokens bound stack
      (fact ∧ ∀ one ∈ items.toList, one.AllWritten)) clean_readItemRound).weaken
      (fun _ h => h.imp fun hfact => ⟨hfact, fun _ hmem => nomatch hmem⟩) fun _ _ h => h
  exact hrounds.bind fun items => .pure fun _ h => h

end Grammar

open Grammar

variable {text : List Char} {fuel depth : Nat} {parsed : Parsed}

-- All that is reported while a text is read are errors.
theorem clean_parse (hparse : parse text fuel depth = .ok parsed)
    (hclean : Diagnostics.hasErrors parsed.diagnostics.toList = false) :
    parsed.diagnostics = #[] ∧ (TuplesOpen (lex text) → Closes [] (lex text)) ∧
      ∀ item ∈ parsed.items, item.AllWritten := by
  have hread : Parse.Ensures (Midway (lex text) (lex text).length [] True) readItems _ := clean_readItems
  unfold parse parseTokens at hparse
  cases hrun : readItems ⟨Text.width text, depth⟩ (.start (lex text) fuel) with
  | error reason =>
      rw [hrun] at hparse
      cases hparse
  | ok found =>
      rw [hrun] at hparse
      cases hparse
      obtain ⟨-, hquiet⟩ := hread _ _ found.1 found.2 hrun
      rcases hquiet ⟨rfl, rfl⟩ (Midway.start (lex_sound text)) with
        ⟨diagnostic, hmem, herror⟩ | ⟨hquiet, hmidway, hend⟩
      · exact absurd herror (List.any_eq_false.mp hclean diagnostic hmem.val)
      refine ⟨hquiet.unreported, fun hopen => (hmidway.closes hopen).2 ?_, hmidway.fact.2⟩
      rw [hend]
      exact ⟨nofun, rfl⟩

theorem exists_parse {α : Type} {seen : Parsed → α} {value : α}
    (h : (parse text fuel depth).toOption.map seen = some value) :
    ∃ parsed, parse text fuel depth = .ok parsed ∧ seen parsed = value := by
  cases hparse : parse text fuel depth with
  | error reason =>
      rw [hparse] at h
      cases h
  | ok parsed =>
      rw [hparse] at h
      exact ⟨parsed, rfl, Option.some.inj h⟩

theorem exists_clean_parse
    (h : (parse text fuel depth).toOption.map Parsed.diagnostics = some #[]) :
    ∃ parsed, parse text fuel depth = .ok parsed ∧ parsed.diagnostics = #[] :=
  exists_parse h

-- A text read without a complaint is balanced, where each `tuple` opens its list as it should.
theorem parse_closes (hparse : parse text fuel depth = .ok parsed) (hclean : parsed.diagnostics = #[])
    (hopen : TuplesOpen (lex text)) : Closes [] (lex text) :=
  (clean_parse hparse (by rw [hclean]; rfl)).2.1 hopen

theorem parse_closes_tuple_in_index :
    TuplesOpen (lex "int x = y[tuple(1)];".toList) ∧ Closes [] (lex "int x = y[tuple(1)];".toList) := by
  have hopen : TuplesOpen (lex "int x = y[tuple(1)];".toList) := by decide +kernel
  obtain ⟨parsed, hparse, hclean⟩ : ∃ parsed,
      parse "int x = y[tuple(1)];".toList 100 10 = .ok parsed ∧ parsed.diagnostics = #[] :=
    exists_clean_parse (by decide +kernel)
  exact ⟨hopen, parse_closes hparse hclean hopen⟩

-- Here a list is opened by a bracket and closed by a parenthesis.
theorem parse_accepts_tuple_bracket :
    ∃ parsed, parse "int x = tuple [ 1 );".toList 100 10 = .ok parsed ∧ parsed.diagnostics = #[] ∧
      ¬Closes [] (lex "int x = tuple [ 1 );".toList) := by
  have hstuck : unclosed [] (lex "int x = tuple [ 1 );".toList) = none := by decide +kernel
  obtain ⟨parsed, hparse, hclean⟩ : ∃ parsed,
      parse "int x = tuple [ 1 );".toList 100 10 = .ok parsed ∧ parsed.diagnostics = #[] :=
    exists_clean_parse (by decide +kernel)
  refine ⟨parsed, hparse, hclean, fun hcloses => ?_⟩
  rw [hcloses.closed] at hstuck
  cases hstuck

end EffectLint
