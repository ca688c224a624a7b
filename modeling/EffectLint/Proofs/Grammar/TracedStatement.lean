import EffectLint.Proofs.Grammar.TracedExpression

/-!
Statements, followed token by token. A block goes on past a statement that takes no token only
where something is wrong.
-/

namespace EffectLint

open Parse

namespace Grammar

variable {scene : Scene} {origin : List Token} {slots : List Slot} {self : Reading} {start : Nat}
  (hself : ReadsTraced scene self)

theorem traced_looksLikeDeclaration {before : Cursor → Prop} :
    Traces scene before looksLikeDeclaration fun found cursor => before cursor ∧
      (found = true → TokenKind.startsType (nextKind cursor.rest) = true) := by
  refine Traces.inspect.bind fun next => ?_
  split
  · exact .pure fun _ h => ⟨h.1, fun _ => by rw [h.2]; rfl⟩
  · exact Traces.beyond.bind fun _ => .pure fun _ h => ⟨h.1.1, fun _ => by rw [h.1.2]; rfl⟩
  · exact .pure fun _ h => ⟨h.1, nofun⟩

theorem missing_of_isError {type : TypeTree} (h : type.isError = false) :
    (Phrase.Type type).missing? = none := by
  cases type with
  | Error => cases h
  | _ => rfl

-- A declaration is read from something where it is promised something or its type is there.
theorem moved_of_declared {leading : List Slot} {type : TypeTree} {cursor : Cursor}
    (h : Since scene origin (leading ++ (.Part (.Type type) :: slots)) cursor)
    (hleading : Slot.Promising leading) (hthere : leading ≠ [] ∨ type.isError = false) :
    cursor.rest ≠ origin := by
  rcases hthere with hsome | htype
  · refine h.moved ?_
    obtain ⟨first, rest, rfl⟩ := List.exists_cons_of_ne_nil hsome
    rcases hleading first List.mem_cons_self with rfl | rfl <;> rfl
  · refine h.moved_of_part (.Type type) ?_ rfl (missing_of_isError htype)
    exact List.mem_filterMap.mpr ⟨_, List.mem_append_right _ List.mem_cons_self, rfl⟩

theorem traced_variable (leading : List Slot) (type : TypeTree) (name : Name) (value : Option Expr)
    (hstart : start = scene.offset origin) (hleading : Slot.Promising leading)
    (hthere : leading ≠ [] ∨ type.isError = false) :
    Traces scene (Since scene origin (leading ++ (.Part (.Type type) :: .Part (.Name name) ::
        (Slot.given (.Sign .Equal) value ++ [.Expected (.Sign .Semicolon)])))) (since start)
      fun span => Since scene origin [.Part (.Variable ⟨span, type, name, value⟩)] :=
  Traces.made_of _ (fun _ => .Variable hleading) (fun _ => rfl) hstart fun _ hsince =>
    moved_of_declared hsince hleading hthere

-- Where a statement is begun and not ended, the text ends. That need not have been said yet.
def Pending (scene : Scene) (origin : List Token) (slots : List Slot) (cursor : Cursor) : Prop :=
  cursor.rest = [] ∧ Filled scene False origin slots cursor.rest

def blockSlots (statements : List Statement) : List Slot :=
  .Token (.Sign .BraceOpen) :: statements.map fun one => .Part (.Statement one)

-- The statements of a block up to here.
def Gathering (scene : Scene) (origin : List Token) (statements : Array Statement)
    (cursor : Cursor) : Prop :=
  Since scene origin (blockSlots statements.toList) cursor ∨
    Pending scene origin (blockSlots statements.toList) cursor

theorem blockSlots_push (statements : Array Statement) (written : Statement) :
    blockSlots statements.toList ++ [.Part (.Statement written)] =
      blockSlots (statements.push written).toList := by
  simp [blockSlots]

-- What is read without a token is not read from a clean text.
theorem noisy_of_unmoved {phrase : Phrase} {cursor : Cursor} (h : Since scene origin [.Part phrase] cursor)
    (hneeds : ∀ run, phrase.ReadFrom scene cursor.quiet run → cursor.quiet → run ≠ [])
    (hunmoved : cursor.rest = origin) : ¬cursor.quiet := by
  intro hquiet
  obtain ⟨run, horigin, hfills⟩ := h.fills
  obtain ⟨piece, hpiece, hread⟩ := hfills.parts phrase List.mem_cons_self
  rw [hunmoved] at horigin
  rw [List.append_left_eq_self.mp horigin.symm] at hpiece
  exact hneeds piece hread hquiet (List.infix_nil.mp hpiece)

theorem traced_expect_there {kind : TokenKind} {missing : DiagnosticKind} :
    Traces scene (fun cursor => Since scene origin slots cursor ∧ nextKind cursor.rest = some kind)
      (expect kind missing) fun _ => Since scene origin (slots ++ [.Token kind]) := by
  refine (Traces.eat kind).bind fun found => .choose (fun hfound => .pure fun cursor hthere => ?_)
    fun hfound => Traces.knowing (fun cursor hthere => (?_ : False)) nofun
  · obtain ⟨token, hkind, hpast⟩ := hthere.1 hfound
    exact Since.token (.Token kind) hkind (hpast.imp fun _ h => h.1)
  · obtain ⟨⟨-, hnext⟩, hother⟩ := hthere.2 (Bool.eq_false_iff.mpr hfound)
    exact hother hnext

-- Where nothing was taken since some place, the next token is passed over.
theorem traced_skip_unmoved {α : Type} {after : α → Cursor → Prop} {count : Nat}
    {middle : List Token} (next : Unit → Parse α)
    (hcount : count + middle.length = scene.tokens.length)
    (hnext : Traces scene (Since scene origin slots) (next ()) after) :
    Traces scene (fun cursor => Since scene origin slots cursor ∧ cursor.rest <:+ middle ∧
        (cursor.rest = middle → ¬cursor.quiet))
      (taken >>= fun now => if now = count then skip >>= next else next ()) after := by
  refine Traces.taken.bind fun now => .choose (fun hnow => ?_) fun _ => hnext.of_before fun _ h => h.1.1
  refine (Traces.passed.of_before fun cursor hhere =>
    (?_ : Since scene origin slots cursor ∧ _)).bind fun _ => hnext.of_before fun _ h => h.1
  obtain ⟨⟨hsince, hsuffix, hnoisy⟩, hcounted⟩ := hhere
  exact ⟨hsince, hnoisy (hsuffix.eq_of_length (by omega))⟩

section

include hself

theorem traced_readInitialValue :
    Traces scene (Since scene origin slots) (readInitialValue self) fun value =>
      Since scene origin (slots ++ Slot.given (.Sign .Equal) value) :=
  .eaten (traced_given hself _) (.pure fun _ h => by simpa [Slot.given] using h.1)

theorem traced_readLocal (hstarts : TokenKind.startsType (nextKind origin) = true) :
    Traces scene (Outset scene origin) (readLocal self)
      fun declared => Since scene origin [.Part (.Variable declared)] := by
  refine Traces.starting fun span hstart => Traces.bind (hself .Type origin) fun type =>
    Traces.knowing (fun _ h => h.2 hstarts) fun htype => Traces.of_before ?_ fun _ h => h.1
  have hbehind : ∀ name, Traces scene
      (Since scene origin [.Part (.Type type), .Part (.Name name)]) (do
        let value ← readInitialValue self
        expectSemicolon
        return (⟨← since span.start, type, name, value⟩ : VariableTree))
      fun declared => Since scene origin [.Part (.Variable declared)] := fun name =>
    (traced_readInitialValue hself).bind fun value => Traces.expectSemicolon.bind fun _ =>
      (traced_variable [] type name value hstart nofun (.inr htype)).bind fun _ =>
      .pure fun _ h => h
  refine Traces.name.bind fun found => ?_
  cases found with
  | some name => exact Traces.bind (.pure fun _ h => h.1 name rfl) hbehind
  | none =>
      refine Traces.opening fun place hplace => Traces.bind (.pure fun cursor h => ?_) hbehind
      exact Filled.missing (h.2 rfl).1 (h.2 rfl).2 rfl hplace

theorem traced_readEvaluate : Traces scene (Outset scene origin) (readEvaluate self)
    fun written => Since scene origin [.Part (.Statement written)] :=
  Traces.bind (hself .Expression origin) fun _ => Traces.expectSemicolon.bind fun _ =>
    .pure fun _ h => h.whole .Evaluate rfl

-- An expression that may be left out before the given token.
theorem traced_optional {α : Type} {after : α → Cursor → Prop} {kind : TokenKind}
    {next : Option Expr → Parse α}
    (hnext : ∀ value : Option Expr, Traces scene
      (Since scene origin (slots ++ value.toList.map fun one => .Part (.Expr one))) (next value) after) :
    Traces scene (Since scene origin slots)
      (do if ← isAt kind then pure none >>= next else some <$> self .Expression >>= next) after := by
  refine (Traces.isAt kind).bind fun _ => .choose (fun _ => ?_) fun _ => ?_
  · refine Traces.bind (.pure fun cursor hhere => ?_) hnext
    simpa using hhere.1
  · rw [map_eq_pure_bind]
    refine (((Traces.part .Expr (hself .Expression)).bind fun value =>
      .pure fun _ h => ?_).bind hnext).of_before fun _ h => h.1
    exact h

omit hself in
-- What is said of a statement that was read.
theorem traced_some {written : Statement} {cursor : Cursor}
    (h : Since scene origin [.Part (.Statement written)] cursor) :
    Nonterminal.Traced scene .Statement origin (some written) cursor :=
  ⟨fun _ hfound => Option.some.inj hfound ▸ h, nofun⟩

-- A statement behind what has been read.
theorem traced_body : Traces scene (Since scene origin slots) (self .Statement) fun found cursor =>
    (∀ written, found = some written →
      Since scene origin (slots ++ [.Part (.Statement written)]) cursor) ∧
    (found = none → cursor.rest = []) :=
  ((Traces.onward (fun _ => True) fun middle _ => hself .Statement middle).of_before
    fun _ h => ⟨h, trivial⟩).imp fun _ _ ⟨_, _, hfilled, hread, hend⟩ =>
    ⟨fun written hfound => hfilled.append (hread written hfound), hend⟩

theorem traced_readBlockRound (statements : Array Statement) :
    Traces scene (Gathering scene origin statements) (readBlockRound self statements)
      (Round.leaves (Gathering scene origin) (Gathering scene origin)) := by
  refine (Traces.isAt _).bind fun _ => .choose (fun _ => .pure fun _ h => h.1) fun _ =>
    Traces.atEnd.bind fun _ => .choose (fun _ => .pure fun _ h => h.1.1) fun hgoes =>
    (Traces.given fun middle => ?_).of_before fun cursor hhere =>
      (?_ : ∃ middle, (Since scene origin (blockSlots statements.toList) cursor ∧
        cursor.rest = middle) ∧ middle ≠ [])
  · refine Traces.knowing (fun _ h => h.2) fun hmiddle => (Traces.taken.bind fun count =>
      Traces.knowing (fun _ ⟨⟨⟨_, hrest⟩, _⟩, hcounted⟩ =>
        (hrest ▸ hcounted : count + middle.length = scene.tokens.length)) fun hcount => ?_)
    refine ((Traces.onward (· = middle) fun _ _ => hself .Statement _).of_before
      fun _ h => h.1.1).bind fun found => ?_
    cases found with
    | some written =>
        have hagain : Traces scene (Since scene origin (blockSlots (statements.push written).toList))
            (pure (Round.Again (statements.push written))) (Round.leaves (Gathering scene origin)
              (Gathering scene origin)) := .pure fun _ => .inl
        refine (traced_skip_unmoved (fun _ => pure (Round.Again _)) hcount hagain).of_before ?_
        rintro cursor ⟨middle, rfl, hfilled, hread, -⟩
        replace hread := hread written rfl
        exact ⟨blockSlots_push statements written ▸ hfilled.append hread, hread.rest_suffix,
          noisy_of_unmoved hread fun _ h hquiet => h.statement_ne_nil hquiet⟩
    | none =>
        have hbehind : Traces scene (Pending scene origin (blockSlots statements.toList))
            (pure (Round.Again statements)) (Round.leaves (Gathering scene origin)
              (Gathering scene origin)) := .pure fun _ => .inr
        refine (Traces.taken.bind fun _ => .choose (fun _ => ?_) fun _ => hbehind.of_before
          fun _ h => h.1).of_before ?_
        · exact (Traces.skip_end fun _ h => h.1.1).bind fun _ => hbehind.of_before fun _ h => h.1
        · rintro cursor ⟨middle, rfl, hfilled, -, hend⟩
          refine ⟨hend rfl, ?_⟩
          rw [hend rfl]
          exact (hfilled.mono nofun).strays id (List.nil_suffix)
  · obtain ⟨⟨hgathering, -⟩, hends⟩ := hhere
    rcases hgathering with hsince | ⟨hend, -⟩
    · exact ⟨cursor.rest, ⟨hsince, rfl⟩, fun hend => hgoes (hends.mpr hend)⟩
    · exact absurd (hends.mpr hend) hgoes

omit hself in
-- Where the closing brace is missing, the end of the text need not have been reported before.
theorem traced_closeBlock {opened : Span} (hopened : scene.Marks opened) (statements : Array Statement) :
    Traces scene (Gathering scene origin statements)
      (close .BraceClose .UnclosedBrace "block starts here" opened)
      fun _ => Since scene origin
        (blockSlots statements.toList ++ [.Expected (.Sign .BraceClose)]) := by
  refine (Traces.close_any hopened rfl).imp fun _ cursor hthere => ?_
  rcases hthere with ⟨token, hkind, hpast⟩ | ⟨hnoisy, earlier, hgathered, hrest⟩
  · have hsince : Past scene (Since scene origin (blockSlots statements.toList)) token cursor := by
      refine ⟨hpast.1.resolve_right fun hpending => ?_, hpast.2⟩
      cases hpending.1
    exact Since.token (.Expected _) hkind hsince
  · have hsince : Since scene origin (blockSlots statements.toList) cursor := by
      unfold Since
      rw [← hrest]
      rcases hgathered with hsince | ⟨-, hfilled⟩
      · exact Filled.mono hsince fun h => absurd h hnoisy
      · exact hfilled.mono hnoisy
    exact hsince.missed hnoisy rfl

theorem traced_readBlock :
    Traces scene (fun cursor => Outset scene origin cursor ∧
        nextKind cursor.rest = some (.Sign .BraceOpen)) (readBlock self)
      fun block => Since scene origin [.Part (.Block block)] := by
  refine Traces.knowing
    (fun _ h => (h.1.2 ▸ h.2 : nextKind origin = some (.Sign .BraceOpen))) fun hnext =>
    Traces.of_before ?_ fun _ h => h.1
  refine Traces.beginning fun opened hopened hstart =>
    (traced_expect_there.of_before fun _ h => ⟨h.1.since, h.1.2 ▸ hnext⟩).bind fun _ =>
    ((Traces.rounds (Gathering scene origin) (traced_readBlockRound hself)).of_before
      fun _ => .inl).bind fun statements => (traced_closeBlock hopened statements).bind fun _ => ?_
  exact (Traces.made (fun span => .Block ⟨span, statements.toList⟩) (fun _ => .Block)
    (fun _ => rfl) hstart rfl).bind fun _ => .pure fun _ h => h

theorem traced_readCondition : Traces scene (Since scene origin slots) (readCondition self)
    fun condition => Since scene origin (slots ++ [.Expected (.Sign .ParenOpen),
      .Part (.Expr condition), .Expected (.Sign .ParenClose)]) := by
  refine Traces.opening fun opened hopened => (Traces.expected _ _).bind fun _ =>
    (Traces.part .Expr (hself .Expression)).bind fun condition =>
    (Traces.closeParen hopened).bind fun _ => .pure fun cursor hsince => ?_
  simpa using hsince

theorem traced_readReturn (hstart : start = scene.offset origin) :
    Traces scene (fun cursor => Outset scene origin cursor ∧
        nextKind cursor.rest = some (.Word .Return)) (readReturn self start)
      fun written => Since scene origin [.Part (.Statement written)] := by
  have hbehind : ∀ value : Option Expr, Traces scene (Since scene origin
      (.Token (.Word .Return) :: value.toList.map fun one => .Part (.Expr one))) (do
        expectSemicolon
        return Statement.Return (← since start) value)
      fun written => Since scene origin [.Part (.Statement written)] := fun value =>
    Traces.expectSemicolon.bind fun _ => (Traces.made
      (fun span => .Statement (.Return span value)) (fun _ => .Return) (fun _ => rfl)
      hstart rfl).bind fun _ => .pure fun _ h => h
  exact (Traces.begun _).bind fun _ =>
    traced_optional hself hbehind

theorem traced_readIf :
    Traces scene (fun cursor => Outset scene origin cursor ∧
        nextKind cursor.rest = some (.Word .If)) (readIf self)
      (Nonterminal.Traced scene .Statement origin) := by
  refine (Traces.begun _).bind fun _ =>
    (traced_readCondition hself).bind fun condition => (traced_body hself).bind fun yes => ?_
  cases yes with
  | none => exact .pure fun _ h => ⟨nofun, fun _ => h.2 rfl⟩
  | some yes =>
      refine Traces.of_before (.eaten ((traced_body hself).bind fun no => ?_) ?_)
        fun _ h => h.1 yes rfl
      · cases no with
        | none => exact .pure fun _ h => ⟨nofun, fun _ => h.2 rfl⟩
        | some no =>
            exact .pure fun _ h => traced_some
              (Since.whole (h.1 no rfl) (@Phrase.Form.If condition yes (some no)) rfl)
      · exact .pure fun _ h => traced_some
          (Since.whole h.1 (@Phrase.Form.If condition yes none) rfl)

theorem traced_readWhile :
    Traces scene (fun cursor => Outset scene origin cursor ∧
        nextKind cursor.rest = some (.Word .While)) (readWhile self)
      (Nonterminal.Traced scene .Statement origin) := by
  refine (Traces.begun _).bind fun _ =>
    (traced_readCondition hself).bind fun condition => (traced_body hself).bind fun body => ?_
  cases body with
  | none => exact .pure fun _ h => ⟨nofun, fun _ => h.2 rfl⟩
  | some body => exact .pure fun _ h => traced_some ((h.1 body rfl).whole .While rfl)

theorem traced_readForFirst : Traces scene (Since scene origin slots) (readForFirst self)
    fun first => Since scene origin (slots ++
      first.elim [.Token (.Sign .Semicolon)] fun one => [.Part (.Statement one)]) := by
  refine .eaten (.pure fun _ h => h) <| traced_looksLikeDeclaration.bind fun found =>
    .choose (fun hfound => ?_) fun _ => ?_
  · refine ((Traces.part_where (fun rest => TokenKind.startsType (nextKind rest) = true)
      (fun declared => .Statement (.Local declared)) fun origin hstarts => ?_).of_before
      fun _ h => ⟨h.1.1, h.2 hfound⟩).bind fun _ => .pure fun _ h => h
    exact (traced_readLocal hself hstarts).imp fun _ _ h => h.whole .Local rfl
  · exact ((Traces.part .Statement fun _ => traced_readEvaluate hself).of_before fun _ h => h.1.1).bind fun _ =>
      .pure fun _ h => h

theorem traced_readFor :
    Traces scene (fun cursor => Outset scene origin cursor ∧
        nextKind cursor.rest = some (.Word .For)) (readFor self)
      (Nonterminal.Traced scene .Statement origin) := by
  refine (Traces.begun _).bind fun _ =>
    Traces.opening fun opened hopened => (Traces.expected _ _).bind fun _ =>
    (traced_readForFirst hself).bind fun first => traced_optional hself fun condition =>
    (Traces.expected _ _).bind fun _ => traced_optional hself fun step =>
    (Traces.closeParen hopened).bind fun _ => (traced_body hself).bind fun body => ?_
  cases body with
  | none => exact .pure fun _ h => ⟨nofun, fun _ => h.2 rfl⟩
  | some body =>
      refine .pure fun _ h => traced_some (Since.whole ?_ .For rfl)
      simpa using h.1 body rfl

theorem traced_readStatementHere : Traces scene (Outset scene origin) (readStatementHere self)
    (Nonterminal.Traced scene .Statement origin) := by
  refine Traces.beginning fun span _ hstart => Traces.inspect.bind fun next => ?_
  have hsome : ∀ {body : Parse Statement} {before : Cursor → Prop},
      Traces scene before body (fun written => Since scene origin [.Part (.Statement written)]) →
      Traces scene before (do return some (← body)) (Nonterminal.Traced scene .Statement origin) :=
    fun h => h.bind fun written => .pure fun _ => traced_some
  split
  · refine .pure fun cursor h => ⟨nofun, fun _ => ?_⟩
    cases hrest : cursor.rest with
    | nil => rfl
    | cons token rest =>
        have hnext := h.2
        rw [hrest] at hnext
        cases hnext
  · exact ((traced_readBlock hself).of_before fun _ h => ⟨h.1.1, h.2⟩).bind fun block =>
      .pure fun _ h => traced_some (h.whole .Nested rfl)
  · exact (Traces.leaf .Empty rfl).bind fun _ => .pure fun _ => traced_some
  · exact hsome ((traced_readReturn hself hstart).of_before fun _ h => ⟨h.1.1, h.2⟩)
  · exact (traced_readIf hself).of_before fun _ h => ⟨h.1.1, h.2⟩
  · exact (traced_readWhile hself).of_before fun _ h => ⟨h.1.1, h.2⟩
  · exact (traced_readFor hself).of_before fun _ h => ⟨h.1.1, h.2⟩
  · refine Traces.of_before (traced_looksLikeDeclaration.bind fun found =>
      .choose (fun hfound => ?_) fun _ => ?_) fun _ h => h.1.1
    · exact Traces.knowing
        (fun _ h => (h.1.2 ▸ h.2 hfound : TokenKind.startsType (nextKind origin) = true)) fun hstarts =>
        ((traced_readLocal hself hstarts).of_before fun _ h => h.1).bind fun declared =>
        .pure fun _ h => traced_some (h.whole .Local rfl)
    · exact hsome ((traced_readEvaluate hself).of_before fun _ h => h.1)

theorem traced_readStatement : Traces scene (Outset scene origin) (readStatement self)
    (Nonterminal.Traced scene .Statement origin) :=
  Traces.enter.bind fun _ => (traced_readStatementHere hself).bind fun _ =>
    Traces.leave.bind fun _ => .pure fun _ h => h

theorem traced_production : ReadsTraced scene (production self)
  | .Expression, _ => traced_readExpression hself
  | .Assignment, _ => traced_readAssignment hself
  | .Conditional, _ => traced_readConditional hself
  | .Binary level, _ => traced_readBinary hself level
  | .Unary, _ => traced_readUnary hself
  | .Type, _ => traced_readType hself
  | .Statement, _ => traced_readStatement hself

omit hself in
theorem traced_readWithin (levels : Nat) : ReadsTraced scene (readWithin levels) := by
  induction levels with
  | zero => exact fun _ _ _ _ _ _ _ hrun => nomatch hrun
  | succ levels ih => exact traced_production ih

omit hself in
theorem traced_read : ReadsTraced scene read := fun nonterminal origin limits state =>
  traced_readWithin (nesting state.fuel) nonterminal origin limits state

end

end Grammar

end EffectLint
