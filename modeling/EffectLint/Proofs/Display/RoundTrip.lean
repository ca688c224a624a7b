import EffectLint.Proofs.Display.Again
import EffectLint.Proofs.Grammar.Budget
import EffectLint.Proofs.Grammar.CleanItem
import EffectLint.Proofs.Grammar.Function
import EffectLint.Proofs.Lowering.Behind
import EffectLint.Proofs.Lowering.Returned
import EffectLint.Proofs.Lowering.Stages

/-!
The text of an expression read and lowered again. It is read without a complaint, and lowering it
where the same scopes are open says nothing and makes a tree like the first one.
-/

namespace EffectLint

open Lower

-- A function that returns what is written.
def returning (text : String) : List Char :=
  ("int f() \x7b return " ++ text ++ "; \x7d").toList

namespace Lexeme

def returningHeading : Grammar.Heading :=
  ⟨.Basic ⟨0, 0⟩ .Integer, "f", [], .none⟩

theorem wellWritten_returningHeading : returningHeading.WellWritten where
  result := .Basic
  name := by decide +kernel
  types := List.forall_mem_nil _
  names := List.forall_mem_nil _

theorem lex_returning {value : Expr} {text : String}
    (h : ∀ after, Stopped after → Writes after value.lexemes text.toList) :
    (lex (returning text)).map Token.lexeme = returningHeading.lexemesReturning value := by
  have hclose : Writes [] [sign .BraceClose] ['\x7d'] := .enclosed (by decide) .Nil
  have hend := @Spells.closed _ _ _ .Semicolon (by decide) hclose.space
  have hreturned := Writes.append (h _ (stopped_cons (by decide))) hend
  have hstatement := Writes.append (.keyword .Return (stopped_cons (by decide))) hreturned.space
  have hblock := @Writes.enclosed _ _ _ .BraceOpen (by decide) hstatement.space
  have hparens := @Spells.closed _ _ _ .ParenOpen (by decide)
    (@Spells.closed _ _ _ .ParenClose (by decide) hblock.space)
  have hname := Writes.append (.name wellWritten_returningHeading.name (stopped_cons (by decide))) hparens
  have hall := Writes.append (.basic .Integer (stopped_cons (by decide))) hname.space
  have hlexemes := lexemes_of_spells hall.spells
  simpa [returning, returningHeading, Grammar.Heading.lexemesReturning, Grammar.Heading.behindName,
    Grammar.returnLexemes, TypeTree.lexemes, TypeTree.parameterLexemes, Promises.lexemes,
    Promises.none, Sign.spelling, Keyword.spelling, BasicType.name] using hlexemes

end Lexeme

namespace Program

variable {program : Program} {scopes : Scopes}

-- The text of a node is read on large enough budgets. What is read is lowered in silence wherever
-- these scopes are open, and the node that comes of it is like the first one.
def ReadsBack (program : Program) (scopes : Scopes) (id : NodeId) : Prop :=
  ∃ need, ∀ fuel depth, need ≤ fuel → need ≤ depth → ∃ declared body span value,
    parse (returning (program.text id)) fuel depth = .ok ⟨[.Function declared], #[]⟩ ∧
      declared.body = some body ∧ body.statements = [.Return span (some value)] ∧
      ∀ later : Program, later.Extends program → ∃ made id', made.Extends later ∧
        made.arena.Alike id id' ∧
        ∀ reporter, statement (returning (program.text id)) (.Return span (some value))
            ⟨later, scopes, reporter⟩ =
          (some (.Return (some id')), ⟨made, scopes, reporter⟩)

theorem Made.readsBack (hsound : program.Sound scopes) {id : NodeId} (h : program.Made scopes id)
    (hapart : program.SignsApart id) : program.ReadsBack scopes id := by
  have hdepth := Nat.lt_succ_self id.index
  have hneat := h.neat hsound.closed (id.index + 1) Level.comma hdepth
  have hwrites := h.writes hsound.closed hapart (id.index + 1) hdepth Level.comma (by decide)
  obtain ⟨need, hparse⟩ := parse_of_lexemes Lexeme.wellWritten_returningHeading hneat
  refine ⟨need, fun fuel depth hfuel hlimit => ?_⟩
  obtain ⟨declared, hread, -, -, -, -, body, hbody, span, value, hstatements, hvalue⟩ :=
    hparse (returning (program.text id)) (Lexeme.lex_returning hwrites) fuel depth hfuel hlimit
  refine ⟨declared, body, span, value, hread, hbody, hstatements, fun later hlater => ?_⟩
  obtain ⟨made, id', hmade, halike, hrun⟩ := h.again hsound (returning (program.text id))
    (id.index + 1) Level.comma value hdepth hvalue later hlater
  refine ⟨made, id', hmade, halike, fun reporter => ?_⟩
  rw [statement, expr?, map_eq_pure_bind, bind_apply, bind_apply, hrun]
  rfl

-- Whatever budgets the text is read on, lowering what is read says nothing.
theorem ReadsBack.silent {id : NodeId} (h : program.ReadsBack scopes id) {fuel depth : Nat}
    {items : List Item} {returned : Returned}
    (hread : Returned.read (returning (program.text id)) fuel depth = some (items, returned))
    (reporter : Reporter) : (statement (returning (program.text id)) returned.statement
      ⟨program, scopes, reporter⟩).2.reporter = reporter := by
  obtain ⟨need, hbudgets⟩ := h
  obtain ⟨hparse, hlast⟩ := Returned.parse_of_read hread
  obtain ⟨⟨place, hbody⟩, hitems⟩ := Returned.exists_of_last? hlast
  -- larger budgets read the same, and on those the text is read back
  have hlarge := parse_steady hparse need (Nat.le_add_right depth need)
  obtain ⟨declared, body, span, value, hsame, hsameBody, hstatements, hagain⟩ :=
    hbudgets (fuel + need) (depth + need) (by omega) (by omega)
  obtain ⟨made, id', -, -, hrun⟩ := hagain program (.refl _)
  have hone : items = [.Function declared] :=
    congrArg Parsed.items (Except.ok.inj (hlarge.symm.trans hsame))
  obtain rfl : declared = returned.declared := by simpa [hone] using hitems
  obtain rfl : body = ⟨place, [returned.statement]⟩ := Option.some.inj (hsameBody.symm.trans hbody)
  have hstatement : returned.statement = .Return span (some value) := by simpa using hstatements
  rw [hstatement, hrun]

-- The tree of a node as its postorder lists it, without declarations and with the signs apart. This
-- can be evaluated.
def PlainTree (program : Program) (root : NodeId) : Prop :=
  root ∈ program.arena.postorder root ∧
    (∀ id ∈ program.arena.postorder root, ∀ operand ∈ program.arena.operands id,
      operand ∈ program.arena.postorder root) ∧
    (∀ id ∈ program.arena.postorder root, (program.arena.kind id).declares = false) ∧
    ∀ id ∈ program.arena.postorder root, (program.arena.kind id).Apart fun level operand =>
      program.textWithin (operand.index + 1) level operand

instance PlainTree.decidable (program : Program) (root : NodeId) :
    Decidable (program.PlainTree root) :=
  inferInstanceAs (Decidable (_ ∧ _ ∧ _ ∧ _))

theorem PlainTree.declares {root id : NodeId} (h : program.PlainTree root)
    (hbelow : program.arena.Below root id) : (program.arena.kind id).declares = false :=
  h.2.2.1 id (Arena.mem_of_below h.2.1 h.1 hbelow)

theorem PlainTree.signsApart {root : NodeId} (h : program.PlainTree root) :
    program.SignsApart root :=
  fun id hbelow => h.2.2.2 id (Arena.mem_of_below h.2.1 h.1 hbelow)

end Program

-- What was open at a point is still open in the program that was made in the end.
theorem Lower.MadeAt.sound_later {source : List Char} {later : Program} {scopes : Scopes} {id : NodeId}
    {part : Expr} {point : LoweringState} (hmade : MadeAt source later id part point)
    (hlater : later.Sound scopes) : later.Sound point.scopes :=
  { hlater with
    named := fun symbol binding hholds => by
      have hgrows := (expr_runs source part hmade.sound).after.grows.trans hmade.grows
      exact hgrows.named (hmade.sound.named symbol binding hholds) }

-- The tree of an expression without declarations and questions, in the program made in the end.
theorem Lower.MadeAt.made {source : List Char} {later : Program} {id : NodeId} {part : Expr}
    {point : LoweringState} (hmade : MadeAt source later id part point) (hasks : ¬part.Asks)
    (hdeclares : ¬part.Declares) : later.Made point.scopes id := by
  obtain ⟨made, answer, told, hgrows, hsound, -, hright, hrun⟩ :=
    expr_stays source hasks hdeclares (fun h : part.AllWritten => h) hmade.sound
  have hstate : expr source part point =
      (answer, ⟨made, point.scopes, point.reporter.after told 0⟩) := hrun point.reporter
  have hsilent := hmade.silent
  have hlater := hmade.grows
  have hid := hmade.node
  rw [hstate] at hsilent hlater hid
  obtain rfl := hid
  have hnode := hright (LoweringState.told_eq_nil_of_silent hsilent) hmade.written
  exact hnode.1.extends hlater hsound

-- Whatever a silently read and lowered body is made of was made of an expression in it, and where
-- that one declares nothing and asks nothing, its text is read back at the point of the expression.
theorem text_reads_back {source : List Char} {fuel depth : Nat} {items : List Item}
    (hparse : parse source fuel depth = .ok ⟨items, #[]⟩) {mode : WarningMode}
    (hsilent : (lower source items (.start mode #[])).reporter.diagnostics = #[]) {id : NodeId}
    (hreaches : (lower source items (.start mode #[])).program.Reaches id)
    (hkind : ((lower source items (.start mode #[])).program.arena.kind id).declares = false)
    (hapart : (lower source items (.start mode #[])).program.SignsApart id) :
    (∃ part point, LowersAt source items (.start mode #[]) part point ∧
      (expr source part point).1 = id) ∧
    ∀ part point, LowersAt source items (.start mode #[]) part point →
      (expr source part point).1 = id → ¬part.Asks → ¬part.Declares →
        (lower source items (.start mode #[])).program.ReadsBack point.scopes id := by
  obtain ⟨-, -, hwritten⟩ := clean_parse hparse rfl
  have hquiet : (lower source items (.start mode #[])).Silent :=
    ⟨(lower_reporter source items mode #[]).1, hsilent⟩
  obtain ⟨part, point, hat, hmade⟩ := exists_lowersAt hwritten hquiet hreaches hkind
  refine ⟨⟨part, point, hat, hmade.node⟩, ?_⟩
  rintro part point hat rfl hasks hdeclares
  have hmade := hat.madeAt hwritten hquiet
  have hsound := hmade.sound_later (lower_sound source items (.start mode #[]))
  exact (hmade.made hasks hdeclares).readsBack hsound hapart

def nestedProduct : List Char :=
  "int y; int f() \x7b return 2 * -(y - 1); \x7d".toList

-- A difference in parentheses behind two operators is read back where it stands.
theorem nestedProduct_reads_back : ∃ items part point program,
    parse nestedProduct 200 20 = .ok ⟨items, #[]⟩ ∧
      LowersAt nestedProduct items (.start .Off #[]) part point ∧
      program = (lower nestedProduct items (.start .Off #[])).program ∧
      program.text (expr nestedProduct part point).1 = "2 * -(y - 1)" ∧
      program.ReadsBack point.scopes (expr nestedProduct part point).1 := by
  have hchecked : (Returned.lowered nestedProduct 200 20 .Off).any fun found =>
      let program := (lower nestedProduct found.1 (.start .Off #[])).program
      let point := found.2.point nestedProduct found.1 (.start .Off #[])
      let id := (expr nestedProduct found.2.value point).1
      .word .Traits ∉ found.2.value.lexemes ∧ .word .Auto ∉ found.2.value.lexemes ∧
        program.PlainTree id ∧ program.text id = "2 * -(y - 1)" := by
    decide +kernel
  obtain ⟨⟨items, returned⟩, hlowered, hholds⟩ := (Option.any_eq_true _ _).mp hchecked
  obtain ⟨htraits, hauto, hplain, htext⟩ := of_decide_eq_true hholds
  obtain ⟨hparse, hsilent, hat, hreaches⟩ := Returned.lower_of_lowered hlowered
  have hasks : ¬returned.value.Asks := fun h => htraits h.mem_lexemes
  have hdeclares : ¬returned.value.Declares := fun h => hauto h.mem_lexemes
  have hback := text_reads_back hparse hsilent hreaches (hplain.declares .refl) hplain.signsApart
  exact ⟨items, _, _, _, hparse, hat, rfl, htext, hback.2 _ _ hat rfl hasks hdeclares⟩

def droppedMessage : List Char :=
  "int g() \x7b return assert(0, auto y = 3) + y; \x7d".toList

-- An assertion of a false literal leaves no trace of its message. What is declared there is not
-- declared in the text, although the tree has no declaration either.
theorem droppedMessage_not_read_back : ∃ items part point program,
    parse droppedMessage 200 20 = .ok ⟨items, #[]⟩ ∧
      (lower droppedMessage items (.start .Off #[])).reporter.diagnostics = #[] ∧
      LowersAt droppedMessage items (.start .Off #[]) part point ∧ ¬part.Asks ∧
      program = (lower droppedMessage items (.start .Off #[])).program ∧
      program.Reaches (expr droppedMessage part point).1 ∧
      (∀ id, program.arena.Below (expr droppedMessage part point).1 id →
        (program.arena.kind id).declares = false) ∧
      program.SignsApart (expr droppedMessage part point).1 ∧
      program.text (expr droppedMessage part point).1 = "assert(0) + y" ∧
      ¬program.ReadsBack point.scopes (expr droppedMessage part point).1 := by
  have hchecked : (Returned.lowered droppedMessage 200 20 .Off).any fun found =>
      let program := (lower droppedMessage found.1 (.start .Off #[])).program
      let point := found.2.point droppedMessage found.1 (.start .Off #[])
      let id := (expr droppedMessage found.2.value point).1
      .word .Traits ∉ found.2.value.lexemes ∧ program.PlainTree id ∧
        program.text id = "assert(0) + y" ∧
        (Returned.read (returning (program.text id)) 200 20).any fun again =>
          (statement (returning (program.text id)) again.2.statement
            ⟨program, point.scopes, .start .Off #[]⟩).2.reporter ≠ .start .Off #[] := by
    decide +kernel
  obtain ⟨⟨items, returned⟩, hlowered, hholds⟩ := (Option.any_eq_true _ _).mp hchecked
  obtain ⟨htraits, hplain, htext, hagain⟩ := of_decide_eq_true hholds
  obtain ⟨hparse, hsilent, hat, hreaches⟩ := Returned.lower_of_lowered hlowered
  obtain ⟨⟨_, again⟩, hread, hsays⟩ := (Option.any_eq_true _ _).mp hagain
  have hasks : ¬returned.value.Asks := fun h => htraits h.mem_lexemes
  exact ⟨items, _, _, _, hparse, hsilent, hat, hasks, rfl, hreaches,
    fun id hbelow => hplain.declares hbelow, hplain.signsApart, htext,
    fun hback => of_decide_eq_true hsays (hback.silent hread _)⟩

end EffectLint
