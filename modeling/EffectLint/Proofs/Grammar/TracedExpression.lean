import EffectLint.Proofs.Grammar.CleanExpression
import EffectLint.Proofs.Grammar.TracedType

/-!
Expressions, followed token by token. Where nothing can be made of what was read, its range stands
for the expression.
-/

namespace EffectLint

namespace Parse

namespace Traces

variable {scene : Scene} {origin : List Token} {slots : List Slot} {start : Nat}
  {node : Span → Expr}

theorem expr (hform : ∀ span, (Phrase.Expr (node span)).Form slots)
    (hspan : ∀ span, (node span).span = span) (hstart : start = scene.offset origin)
    (htoken : slots.any Slot.isToken = true) :
    Traces scene (Since scene origin slots) (do return node (← Parse.since start))
      fun whole => Since scene origin [.Part (.Expr whole)] :=
  (made _ hform (fun span => congrArg some (hspan span)) hstart htoken).bind fun _ => .pure fun _ h => h

theorem exprAgain {done : Expr → Cursor → Prop} (hform : ∀ span, (Phrase.Expr (node span)).Form slots)
    (hspan : ∀ span, (node span).span = span) (hstart : start = scene.offset origin)
    (htoken : slots.any Slot.isToken = true) :
    Traces scene (Since scene origin slots) (do return Round.Again (node (← Parse.since start)))
      (Round.leaves (fun whole => Since scene origin [.Part (.Expr whole)]) done) :=
  (made _ hform (fun span => congrArg some (hspan span)) hstart htoken).bind fun _ => .pure fun _ h => h

theorem error (hstart : start = scene.offset origin) (htoken : slots.any Slot.isToken = true) :
    Traces scene (fun cursor => Since scene origin slots cursor ∧ ¬cursor.quiet)
      (do return Expr.Error (← Parse.since start))
      fun whole => Since scene origin [.Part (.Expr whole)] :=
  (erred hstart htoken).bind fun _ => .pure fun _ h => h

end Traces

end Parse

open Parse

namespace Grammar

variable {scene : Scene} {origin : List Token} {slots : List Slot} {self : Reading} {start : Nat}
  (hself : ReadsTraced scene self)

theorem head_of_nextKind {rest : List Token} {kind : TokenKind} (h : nextKind rest = some kind) :
    ∃ token, rest.head? = some token ∧ (Slot.Token kind).Takes token := by
  cases rest with
  | nil => cases h
  | cons token rest => exact ⟨token, rfl, Option.some.inj h⟩

section Arguments

include hself

-- The list behind a token that is there, of the kind that the slot asks for.
theorem traced_readArguments (opening : Slot) :
    Traces scene (fun cursor => Since scene origin slots cursor ∧
        ∃ token, cursor.rest.head? = some token ∧ opening.Takes token) (readArguments self)
      fun arguments cursor => ∃ listed, Slot.CommaList (arguments.map .Expr) listed ∧
        Since scene origin (slots ++ (opening :: (listed ++ [.Expected (.Sign .ParenClose)])))
          cursor := by
  have hskip : Traces scene (fun cursor => Since scene origin slots cursor ∧
      ∃ token, cursor.rest.head? = some token ∧ opening.Takes token) skip
      fun _ => Since scene origin (slots ++ [opening]) := by
    refine (Traces.skip fun cursor hhere hend => ?_).imp fun _ cursor hthere => ?_
    · obtain ⟨-, token, hnext, -⟩ := hhere
      rw [hend] at hnext
      cases hnext
    · obtain ⟨token, hpast⟩ := hthere
      obtain ⟨-, other, ⟨⟩, htakes⟩ := hpast.1
      exact Since.token _ htakes (hpast.imp fun _ h => h.1)
  refine Traces.opening fun opened hopened => hskip.bind fun _ =>
    (Traces.listed .Expr (hself .Assignment)).bind fun arguments =>
    Traces.given fun listed => Traces.knowing (fun _ h => h.1) fun hlisted =>
    ((Traces.closeParen hopened).of_before fun _ h => h.2).bind fun _ => .pure fun cursor hsince =>
    ⟨listed, hlisted, ?_⟩
  simpa using hsince

omit hself in
-- At the end of the text there is no list, which is reported where its end is missed.
theorem traced_readArguments_end :
    Traces scene (fun cursor => Since scene origin slots cursor ∧ cursor.rest = [])
      (readArguments self) fun arguments cursor => arguments = [] ∧
        Since scene origin slots cursor ∧ ¬cursor.quiet := by
  refine Traces.opening fun opened hopened => (Traces.skip_end fun _ h => h.2).bind fun _ => ?_
  have hlist : Traces scene (fun cursor => Since scene origin slots cursor ∧ cursor.rest = [])
      (rounds #[] (listRound (self .Assignment))) fun found cursor => found = #[] ∧
        Since scene origin slots cursor ∧ cursor.rest = [] := by
    refine (Traces.rounds (fun found cursor => found = #[] ∧ Since scene origin slots cursor ∧
      cursor.rest = []) fun found => ?_).of_before fun _ h => ⟨rfl, h⟩
    refine (Traces.isAt _).bind fun closes => .choose (fun _ => .pure fun _ h => h.1) fun _ =>
      Traces.atEnd.bind fun ends => .choose (fun _ => .pure fun _ h => h.1.1) fun hends =>
      Traces.knowing (fun cursor h => (?_ : False)) nofun
    exact hends (h.2.mpr h.1.1.2.2)
  refine hlist.bind fun found => (Traces.close_any hopened rfl).bind fun _ => .pure fun cursor hthere => ?_
  rcases hthere with ⟨token, -, ⟨-, -, hnil⟩, -⟩ | hsaid
  · cases hnil
  · have hsince := (hsaid.imp fun _ h => h.2.1).since
    obtain ⟨hnoisy, earlier, ⟨rfl, -⟩, -⟩ := hsaid
    exact ⟨rfl, hsince, hnoisy⟩

-- Whatever token stands behind the word of a tuple is taken for the opening one.
theorem traced_readElements :
    Traces scene (Since scene origin slots) (readArguments self) fun elements cursor =>
      ∃ listed, Slot.CommaList (elements.map .Expr) listed ∧
        Since scene origin (slots ++ (.Any :: (listed ++ [.Expected (.Sign .ParenClose)]))) cursor := by
  have hend : Traces scene (fun cursor => Since scene origin slots cursor ∧ cursor.rest = [])
      (readArguments self) fun elements cursor => ∃ listed,
        Slot.CommaList (elements.map .Expr) listed ∧
          Since scene origin (slots ++ (.Any :: (listed ++ [.Expected (.Sign .ParenClose)]))) cursor := by
    refine traced_readArguments_end.imp fun elements cursor ⟨hnone, hsince, hnoisy⟩ => ?_
    have hopened : Since scene origin (slots ++ [.Any]) cursor := hsince.missed hnoisy rfl
    have hclosed : Since scene origin (slots ++ [.Any] ++ [.Expected (.Sign .ParenClose)]) cursor :=
      hopened.missed hnoisy rfl
    refine ⟨[], hnone ▸ .Trailing [], ?_⟩
    simpa using hclosed
  refine (hend.split (traced_readArguments hself .Any)).of_before fun cursor hsince => ?_
  cases hrest : cursor.rest with
  | nil => exact .inl ⟨hsince, rfl⟩
  | cons token rest => exact .inr ⟨hsince, token, rfl, trivial⟩

-- A value behind the token that announces it.
theorem traced_given (kind : TokenKind) :
    Traces scene (Since scene origin (slots ++ [.Token kind])) (some <$> self .Assignment)
      fun value => Since scene origin (slots ++ Slot.given kind value) := by
  rw [map_eq_pure_bind]
  refine (Traces.part .Expr (hself .Assignment)).bind fun value =>
    .pure fun cursor hsince => ?_
  simpa [Slot.given] using hsince

end Arguments

section Primary

include hself

theorem traced_readParen {opened : Span} (hopened : scene.Marks opened)
    (hstart : start = scene.offset origin) :
    Traces scene (Since scene origin [.Token (.Sign .ParenOpen)]) (readParen self start opened)
      fun whole => Since scene origin [.Part (.Expr whole)] :=
  (Traces.part .Expr (hself .Expression)).bind fun _ => (Traces.closeParen hopened).bind fun _ =>
    .expr (fun _ => .Paren) (fun _ => rfl) hstart rfl

theorem traced_readAssert (hstart : start = scene.offset origin) :
    Traces scene (Since scene origin [.Token (.Word .Assert)]) (readAssert self start)
      fun whole => Since scene origin [.Part (.Expr whole)] := by
  refine Traces.opening fun opened hopened => (Traces.expected _ _).bind fun _ =>
    (Traces.part .Expr (hself .Assignment)).bind fun condition => ?_
  have hbehind : ∀ message : Option Expr, Traces scene
      (Since scene origin ([.Token (.Word .Assert), .Expected (.Sign .ParenOpen),
        .Part (.Expr condition)] ++ Slot.given (.Sign .Comma) message))
      (do closeParen opened; return Expr.Assert (← since start) condition message)
      fun whole => Since scene origin [.Part (.Expr whole)] := fun message =>
    (Traces.closeParen hopened).bind fun _ => .expr (fun _ => .Assert) (fun _ => rfl) hstart rfl
  exact .eaten ((traced_given hself _).bind hbehind) ((hbehind none).of_before fun _ h => h.1)

theorem traced_readDeclare (hstart : start = scene.offset origin) :
    Traces scene (Since scene origin [.Token (.Word .Auto)]) (readDeclare self start)
      fun whole => Since scene origin [.Part (.Expr whole)] := by
  refine Traces.name.bind fun found => ?_
  cases found with
  | none =>
      exact (Traces.error hstart rfl).of_before fun _ h => h.2 rfl
  | some name =>
      exact ((Traces.expected _ _).of_before fun _ h => h.1 name rfl).bind fun _ =>
        (Traces.part .Expr (hself .Assignment)).bind fun _ =>
        .expr (fun _ => .Declare) (fun _ => rfl) hstart rfl

theorem traced_readTraits (hstart : start = scene.offset origin) :
    Traces scene (Since scene origin [.Token (.Word .Traits)]) (readTraits self start)
      fun whole => Since scene origin [.Part (.Expr whole)] := by
  refine Traces.opening fun opened hopened => (Traces.expected _ _).bind fun _ =>
    Traces.expectName.bind fun trait => ?_
  let begun : Cursor → Prop :=
    Since scene origin [.Token (.Word .Traits), .Expected (.Sign .ParenOpen)]
  -- what comes behind the name of the trait does not depend on how its name was read
  have hbehind : ∀ known : Bool, Traces scene (fun cursor => if known then
        Since scene origin [.Token (.Word .Traits), .Expected (.Sign .ParenOpen),
          .Token .Identifier] cursor
      else begun cursor ∧ ¬cursor.quiet) (do
      let _ ← expect (.Sign .Comma) .UnexpectedToken
      let operand ← self .Assignment
      closeParen opened
      let span ← since start
      return if known then Expr.Compiles span operand else .Error span)
      fun whole => Since scene origin [.Part (.Expr whole)] := by
    intro known
    cases known with
    | true =>
        have hmade : ∀ operand, Traces scene (Since scene origin [.Token (.Word .Traits),
              .Expected (.Sign .ParenOpen), .Token .Identifier, .Expected (.Sign .Comma),
              .Part (.Expr operand), .Expected (.Sign .ParenClose)])
            (do return Expr.Compiles (← since start) operand)
            fun whole => Since scene origin [.Part (.Expr whole)] :=
          fun _ => .expr (fun _ => .Compiles) (fun _ => rfl) hstart rfl
        exact (Traces.expected _ _).bind fun _ => (Traces.part .Expr (hself .Assignment)).bind fun _ =>
          (Traces.closeParen hopened).bind fun _ => hmade _
    | false =>
        exact (Traces.noisy (Traces.expected _ _)).bind fun _ =>
          (Traces.noisy (Traces.part .Expr (hself .Assignment))).bind fun _ =>
          (Traces.noisy (Traces.closeParen hopened)).bind fun _ => .error hstart rfl
  cases trait with
  | none =>
      refine Traces.bind (.pure fun cursor hthere => ?_) hbehind
      exact ⟨((hthere.2 rfl).imp fun _ h => h.1).since, (hthere.2 rfl).1⟩
  | some name =>
      refine .choose (fun _ => Traces.bind (.pure fun cursor hthere => ?_) hbehind) fun _ =>
        (Traces.complain fun cursor hthere => ?_).bind fun _ =>
        Traces.bind (.pure fun cursor hthere => ?_) hbehind
      · obtain ⟨token, hkind, -, hpast⟩ := hthere.1 name rfl
        exact Since.token (.Token .Identifier) hkind hpast
      · obtain ⟨token, -, rfl, hpast⟩ := hthere.1 name rfl
        exact hpast.allows rfl rfl
      · obtain ⟨hnoisy, earlier, hbefore, hrest⟩ := hthere
        obtain ⟨token, -, -, hpast⟩ := hbefore.1 name rfl
        refine ⟨(Filled.mono hpast.1 fun h => absurd h hnoisy).strays hnoisy ?_, hnoisy⟩
        exact hrest ▸ List.suffix_cons token earlier.rest

theorem traced_readPrimary : Traces scene (Outset scene origin) (readPrimary self)
    fun whole => Since scene origin [.Part (.Expr whole)] := by
  refine Traces.beginning fun span hmarks hstart => Traces.inspect.bind fun next => ?_
  have hword : ∀ (kind : TokenKind) {body : Parse Expr},
      Traces scene (Since scene origin [.Token kind]) body
        (fun whole => Since scene origin [.Part (.Expr whole)]) →
      Traces scene (fun cursor => (Outset scene origin cursor ∧ Here scene span cursor) ∧
          nextKind cursor.rest = some kind) (do skip; body)
        fun whole => Since scene origin [.Part (.Expr whole)] := fun kind _ hbody =>
    ((Traces.begun kind).of_before fun _ h => ⟨h.1.1, h.2⟩).bind fun _ => hbody
  have htext : ∀ (kind : TokenKind) {node : String → Span → Expr},
      (∀ text span, (node text span).span = span) →
      (∀ text span, (Phrase.Expr (node text span)).Form [.Token kind]) →
      Traces scene (fun cursor => (Outset scene origin cursor ∧ Here scene span cursor) ∧
          nextKind cursor.rest = some kind)
        (do let text ← take; return node text (← since span.start))
        fun whole => Since scene origin [.Part (.Expr whole)] := fun kind _ hspan hform =>
    ((Traces.took kind).of_before fun _ h => ⟨h.1.1.since, h.2⟩).bind fun text =>
      .expr (hform text) (hspan text) hstart rfl
  have hmissing : ∀ {diagnostic : Diagnostic}, diagnostic.span = span →
      diagnostic.spans = [diagnostic.span] →
      Traces scene (fun cursor => (Outset scene origin cursor ∧ Here scene span cursor) ∧
          nextKind cursor.rest = next) (do complain diagnostic; return Expr.Error span)
        fun whole => Since scene origin [.Part (.Expr whole)] := fun hspan hspans =>
    (Traces.complain fun cursor hhere => Here.allows (hspan ▸ hhere.1.2) hspans).bind fun _ =>
      .pure fun cursor hthere => (hthere.imp fun _ h => h.1.1).missing rfl hmarks
  split
  · exact hmissing rfl rfl
  · exact htext _ (fun _ _ => rfl) fun _ _ => .Identifier
  · have htaken : ∀ {text : String} {cursor : Cursor}, (∃ token, text = token.text ∧
        Past scene (fun cursor => (Outset scene origin cursor ∧ Here scene span cursor) ∧
          nextKind cursor.rest = some .Integer) token cursor) →
        Since scene origin [.Token .Integer] cursor := by
      rintro text cursor ⟨token, -, hpast⟩
      exact Since.token (.Token .Integer) (Option.some.inj hpast.1.2)
        (hpast.imp fun _ h => h.1.1.since)
    refine (Traces.take fun _ hhere => ne_nil_of_nextKind hhere.2).bind fun text => .choose
      (fun _ => (Traces.expr (fun _ => .Integer) (fun _ => rfl) hstart rfl).of_before
        fun _ => htaken) fun _ => (Traces.complain fun cursor hhere => ?_).bind fun _ =>
      (Traces.error hstart rfl).of_before fun _ hthere => ⟨(hthere.imp fun _ => htaken).since, hthere.1⟩
    obtain ⟨token, -, hpast⟩ := hhere
    exact hpast.allows (hpast.1.1.2.next token rfl).symm rfl
  · exact htext _ (fun _ _ => rfl) fun _ _ => .Text
  · exact hword _ (.expr (fun _ => .Boolean) (fun _ => rfl) hstart rfl)
  · exact hword _ (.expr (fun _ => .Boolean) (fun _ => rfl) hstart rfl)
  · exact hword _ (.expr (fun _ => .Null) (fun _ => rfl) hstart rfl)
  · exact hword _ (traced_readParen hself hmarks hstart)
  · exact hword _ ((traced_readElements hself).bind fun elements => Traces.given fun listed =>
      Traces.knowing (fun _ h => h.1) fun hlisted =>
      (Traces.expr (fun _ => .Tuple hlisted) (fun _ => rfl) hstart rfl).of_before fun _ h => h.2)
  · exact hword _ (traced_readAssert hself hstart)
  · exact hword _ (traced_readDeclare hself hstart)
  · exact hword _ (traced_readTraits hself hstart)
  · exact hmissing rfl rfl

-- The list of arguments is all that a call of `remove` adds to the name.
theorem traced_readRemove (container : Expr) (hstart : start = scene.offset origin) :
    Traces scene (fun cursor => Since scene origin
        [.Part (.Expr container), .Token (.Sign .Dot), .Token .Identifier] cursor ∧
        nextKind cursor.rest = some (.Sign .ParenOpen)) (do
      let opened ← here
      let arguments ← readArguments self
      match arguments with
      | [key] => return Expr.Remove (← since start) container key
      | _ =>
          let span ← since opened.start
          complain (.about .WrongArgumentCount span
            ("`remove` takes 1 argument but " ++ toString arguments.length ++ " were given"))
          return .Error (← since start)) fun whole => Since scene origin [.Part (.Expr whole)] := by
  refine Traces.here.bind fun opened => (Traces.resume fun earlier hearlier hsuffix =>
    (traced_readArguments hself (.Token (.Sign .ParenOpen))).of_before fun cursor hcursor =>
      (?_ : Since scene earlier.rest [] cursor ∧ _)).bind fun arguments =>
    Traces.given fun earlier => Traces.knowing (fun _ h => h.1) fun hearlier =>
    Traces.of_before ?_ fun cursor hthere =>
      (?_ : ∃ listed, Slot.CommaList (arguments.map .Expr) listed ∧
        Since scene origin ([.Part (.Expr container), .Token (.Sign .Dot), .Token .Identifier] ++
          (.Token (.Sign .ParenOpen) :: (listed ++ [.Expected (.Sign .ParenClose)]))) cursor ∧
        Since scene earlier.rest (.Token (.Sign .ParenOpen) ::
          (listed ++ [.Expected (.Sign .ParenClose)])) cursor)
  · obtain rfl := hcursor
    exact ⟨.nothing hsuffix, head_of_nextKind hearlier.1.2⟩
  · refine Traces.given fun listed => Traces.knowing (fun _ h => h.1) fun hlisted =>
      Traces.of_before ?_ fun _ h => h.2
    split
    · exact (Traces.expr (fun _ => .Remove hlisted) (fun _ => rfl) hstart rfl).of_before fun _ h => h.1
    · refine (Traces.marked hearlier.2.start rfl fun _ h => h.2).bind fun span =>
        (Traces.complain fun cursor hhere => ?_).bind fun _ =>
        (Traces.error hstart (by rfl)).of_before fun _ hthere =>
          ⟨(hthere.imp fun _ h => h.1.1).since, hthere.1⟩
      obtain ⟨⟨-, hsince⟩, hspan, hmarks⟩ := hhere
      refine ⟨List.forall_mem_singleton.mpr hmarks, ?_, .inl rfl⟩
      show span.start ≤ _
      rw [hspan, hearlier.2.start]
      exact offset_mono hsince.suffix hsince.rest_suffix
  · obtain ⟨-, hquiet, listed, hlisted, hsince⟩ := hthere
    exact ⟨listed, hlisted, (Filled.mono hearlier.1.1 hquiet).append hsince, hsince⟩

theorem traced_readMember (container : Expr) (hstart : start = scene.offset origin) :
    Traces scene (Since scene origin [.Part (.Expr container), .Token (.Sign .Dot)])
      (readMember self start container) fun whole => Since scene origin [.Part (.Expr whole)] := by
  refine Traces.expectName.bind fun found => ?_
  cases found with
  | none =>
      exact (Traces.error hstart rfl).of_before fun _ h =>
        ⟨((h.2 rfl).imp fun _ h => h.1).since, (h.2 rfl).1⟩
  | some name =>
      refine Traces.of_before ?_ fun cursor hthere =>
        (?_ : ∃ token : Token, name.span = token.span ∧
          Past scene (Since scene origin [.Part (.Expr container), .Token (.Sign .Dot)]) token cursor ∧
          Since scene origin [.Part (.Expr container), .Token (.Sign .Dot), .Token .Identifier] cursor)
      · have hother : Traces scene (fun cursor => ∃ token : Token, name.span = token.span ∧
            Past scene (Since scene origin [.Part (.Expr container), .Token (.Sign .Dot)]) token cursor ∧
            Since scene origin [.Part (.Expr container), .Token (.Sign .Dot), .Token .Identifier]
              cursor) (do
            complain (.about .UnexpectedToken name.span
              ("member `" ++ name.text ++ "` is not supported"))
            return Expr.Error (← since start)) fun whole => Since scene origin [.Part (.Expr whole)] := by
          refine (Traces.complain fun cursor hhere => ?_).bind fun _ =>
            (Traces.error hstart rfl).of_before fun _ hthere =>
              ⟨(hthere.imp fun _ ⟨_, _, _, hsince⟩ => hsince).since, hthere.1⟩
          obtain ⟨token, hspan, hpast, -⟩ := hhere
          exact hpast.allows hspan rfl
        refine .choose (fun _ => (Traces.isAt _).bind fun isCall => .choose (fun hcall => ?_) fun _ =>
          hother.of_before fun _ h => h.1) fun _ => hother
        refine (traced_readRemove hself container hstart).of_before fun cursor hhere => ?_
        obtain ⟨⟨_, _, _, hsince⟩, hnext⟩ := hhere
        exact ⟨hsince, hnext.mp hcall⟩
      · obtain ⟨token, hkind, rfl, hpast⟩ := hthere.1 name rfl
        exact ⟨token, rfl, hpast, Since.token (.Token .Identifier) hkind hpast⟩

end Primary

theorem kind_of_leadingOp {kind : TokenKind} {op : LeadingOp} (h : leadingOp? kind = some op) :
    kind = op.lexeme.kind := by
  unfold leadingOp? at h
  split at h <;> cases h <;> rfl

theorem kind_of_assignment {next : Option TokenKind} {op : Option AssignOp}
    (h : assignment? next = some op) : next = some (storeLexeme op).kind := by
  unfold assignment? at h
  split at h <;> cases h <;> rfl

-- Every operator is written by some token.
theorem token_of_connective (op : Connective) {left right : Phrase} :
    (Slot.Part left :: ((op.lexemes.map fun lexeme => .Token lexeme.kind) ++
      [.Part right])).any Slot.isToken = true := by
  rcases op with op | _ | _ | _
  · cases op <;> rfl
  all_goals rfl

theorem traced_readConnective {before : Cursor → Prop} :
    Traces scene before readConnective fun found cursor =>
      before cursor ∧ ∀ op ∈ found, Ahead (op.lexemes.map Lexeme.kind) cursor.rest := by
  refine Traces.look fun limits state found state' _ hrun => ?_
  obtain ⟨⟨fuel, rfl⟩, hahead⟩ := of_readConnective hrun
  exact ⟨⟨fuel, state.depth, rfl⟩, fun _ => hahead⟩

theorem traced_skip_ahead {kind : TokenKind} {kinds : List TokenKind} :
    Traces scene (fun cursor => Since scene origin slots cursor ∧ Ahead (kind :: kinds) cursor.rest)
      skip fun _ cursor =>
        Since scene origin (slots ++ [.Token kind]) cursor ∧ Ahead kinds cursor.rest := by
  refine (Traces.skip fun _ hhere => ne_nil_of_nextKind (ahead_cons.mp hhere.2).1).imp
    fun _ cursor ⟨token, hpast⟩ => ?_
  obtain ⟨hnext, hrest⟩ := ahead_cons.mp hpast.1.2
  exact ⟨Since.token (.Token kind) (Option.some.inj hnext) (hpast.imp fun _ h => h.1), hrest⟩

section Operators

include hself

theorem traced_readAttachment (operand : Expr) (hstart : start = scene.offset origin) :
    Traces scene (Since scene origin [.Part (.Expr operand)]) (readAttachment self start operand)
      (Round.leaves (fun whole => Since scene origin [.Part (.Expr whole)])
        fun whole => Since scene origin [.Part (.Expr whole)]) := by
  refine Traces.inspect.bind fun _ => Traces.of_before ?_ fun _ h => h.1
  refine .choose (fun _ => Traces.enter.bind fun _ => Traces.inspect.bind fun next => ?_)
    fun _ => .pure fun _ h => h
  split
  · refine ((traced_readArguments hself (.Token (.Sign .ParenOpen))).of_before
      fun cursor hhere => ⟨hhere.1, ?_⟩).bind fun arguments => Traces.given fun listed =>
      Traces.knowing (fun _ h => h.1) fun hlisted =>
      (Traces.exprAgain (fun _ => .Call hlisted) (fun _ => rfl) hstart rfl).of_before fun _ h => h.2
    exact head_of_nextKind hhere.2
  · exact Traces.opening fun opened hopened => (Traces.skipped _).bind fun _ =>
      (Traces.part .Expr (hself .Assignment)).bind fun _ => (Traces.close hopened rfl).bind fun _ =>
      .exprAgain (fun _ => .Index) (fun _ => rfl) hstart rfl
  · exact (Traces.skipped _).bind fun _ => .exprAgain (fun _ => .Step) (fun _ => rfl) hstart rfl
  · exact (Traces.skipped _).bind fun _ => .exprAgain (fun _ => .Step) (fun _ => rfl) hstart rfl
  · exact (Traces.skipped _).bind fun _ => (traced_readMember hself operand hstart).bind fun _ =>
      .pure fun _ h => h
  · exact .pure fun _ h => h.1

theorem traced_readAttached : Traces scene (Outset scene origin) (readAttached self)
    fun whole => Since scene origin [.Part (.Expr whole)] :=
  .restoringDepth <| Traces.starting fun _ hstart => (traced_readPrimary hself).bind fun _ =>
    Traces.rounds (fun whole => Since scene origin [.Part (.Expr whole)]) fun operand =>
      traced_readAttachment hself operand hstart

theorem traced_readPower : Traces scene (Outset scene origin) (readPower self)
    fun whole => Since scene origin [.Part (.Expr whole)] :=
  Traces.starting fun _ hstart => (traced_readAttached hself).bind fun _ =>
    .eaten ((Traces.part .Expr (hself .Unary)).bind fun _ =>
      .expr (fun _ => .Binary) (fun _ => rfl) hstart rfl) (.pure fun _ h => h.1)

theorem traced_readCast (hstart : start = scene.offset origin) :
    Traces scene (fun cursor => Outset scene origin cursor ∧
        nextKind cursor.rest = some (.Word .Cast)) (readCast self start)
      fun whole => Since scene origin [.Part (.Expr whole)] :=
  (Traces.begun _).bind fun _ => Traces.opening fun _ hopened => (Traces.expected _ _).bind fun _ =>
    (Traces.part .Type (traced_type hself)).bind fun _ => (Traces.closeParen hopened).bind fun _ =>
    (Traces.part .Expr (hself .Unary)).bind fun _ => .expr (fun _ => .Cast) (fun _ => rfl) hstart rfl

omit hself in
theorem traced_readNew (hstart : start = scene.offset origin) :
    Traces scene (fun cursor => Outset scene origin cursor ∧
        nextKind cursor.rest = some (.Word .New)) (readNew start)
      fun whole => Since scene origin [.Part (.Expr whole)] := by
  refine (Traces.begun _).bind fun _ => .eaten ?anonymous ?named
  case anonymous =>
    exact Traces.opening fun _ hopened => (Traces.expected _ _).bind fun _ =>
      (Traces.close hopened rfl).bind fun _ => .expr (fun _ => .NewAnonymous) (fun _ => rfl) hstart rfl
  case named =>
    refine (Traces.name.of_before fun _ h => h.1).bind fun found => ?_
    cases found with
    | none => exact (Traces.error hstart rfl).of_before fun _ h => h.2 rfl
    | some name =>
        exact (Traces.expr (fun _ => .New) (fun _ => rfl) hstart rfl).of_before fun _ h => h.1 name rfl

theorem traced_readUnary : Traces scene (Outset scene origin) (readUnary self)
    fun whole => Since scene origin [.Part (.Expr whole)] := by
  refine Traces.enter.bind fun _ => Traces.starting fun span hstart =>
    Traces.inspect.bind fun next => ?_
  have hbehind : ∀ unary : Expr, Traces scene (Since scene origin [.Part (.Expr unary)])
      (do leave; return unary) fun whole => Since scene origin [.Part (.Expr whole)] :=
    fun unary => Traces.leave.bind fun _ => .pure fun _ h => h
  split
  · exact (traced_readCast hself hstart).bind hbehind
  · exact (traced_readNew hstart).bind hbehind
  · split
    · next op hop =>
      obtain ⟨kind, hkind, hleading⟩ := Option.bind_eq_some_iff.mp hop
      obtain rfl := kind_of_leadingOp hleading
      refine ((Traces.begun _).of_before fun _ h => ⟨h.1, h.2.trans hkind⟩).bind fun _ =>
        (Traces.part .Expr (hself .Unary)).bind fun operand => ?_
      have hmade : Traces scene (Since scene origin [.Token op.lexeme.kind, .Part (.Expr operand)])
          (do return Expr.Leading (← since span.start) op operand)
          fun whole => Since scene origin [.Part (.Expr whole)] :=
        .expr (fun _ => .Leading) (fun _ => rfl) hstart rfl
      exact hmade.bind hbehind
    · exact ((traced_readPower hself).of_before fun _ h => h.1).bind hbehind

theorem traced_readLink (level : Nat) (left : Expr) (hstart : start = scene.offset origin) :
    Traces scene (Since scene origin [.Part (.Expr left)]) (readLink self level start left)
      (Round.leaves (fun whole => Since scene origin [.Part (.Expr whole)])
        fun whole => Since scene origin [.Part (.Expr whole)]) := by
  refine traced_readConnective.bind fun found => ?_
  cases found with
  | none => exact .pure fun _ h => h.1
  | some op =>
      refine .choose (fun _ => .pure fun _ h => h.1) fun _ => Traces.enter.bind fun _ => ?_
      have hbehind : Traces scene (Since scene origin ([.Part (.Expr left)] ++
          op.lexemes.map fun lexeme => .Token lexeme.kind)) (do
          let right ← self (.Binary (op.level + 1))
          return Round.Again (Expr.Binary (← since start) op left right))
          (Round.leaves (fun whole => Since scene origin [.Part (.Expr whole)])
            fun whole => Since scene origin [.Part (.Expr whole)]) :=
        (Traces.part .Expr (hself (.Binary _))).bind fun _ =>
          .exprAgain (fun _ => .Binary) (fun _ => rfl) hstart (token_of_connective op)
      by_cases hop : op = .Value .NotIdentical
      · subst hop
        refine (traced_skip_ahead.of_before fun _ h => ⟨h.1, h.2 _ rfl⟩).bind fun _ => ?_
        rw [if_pos rfl]
        exact traced_skip_ahead.bind fun _ => hbehind.of_before fun _ h => h.1
      · obtain ⟨kind, hkinds, -⟩ := plain_of_connective hop
        have hslots : (op.lexemes.map fun lexeme => Slot.Token lexeme.kind) = [.Token kind] := by
          simpa using congrArg (List.map Slot.Token) hkinds
        rw [hslots] at hbehind
        refine (traced_skip_ahead.of_before fun _ h => ⟨h.1, hkinds ▸ h.2 op rfl⟩).bind fun _ => ?_
        rw [if_neg hop]
        exact hbehind.of_before fun _ h => h.1

theorem traced_readBinary (level : Nat) : Traces scene (Outset scene origin) (readBinary self level)
    fun whole => Since scene origin [.Part (.Expr whole)] :=
  .restoringDepth <| Traces.starting fun _ hstart => Traces.bind (hself .Unary origin) fun _ =>
    Traces.rounds (fun whole => Since scene origin [.Part (.Expr whole)]) fun left =>
      traced_readLink hself level left hstart

theorem traced_readConditional : Traces scene (Outset scene origin) (readConditional self)
    fun whole => Since scene origin [.Part (.Expr whole)] :=
  Traces.starting fun _ hstart => Traces.bind (hself (.Binary _) origin) fun _ =>
    .eaten (Traces.enter.bind fun _ => (Traces.part .Expr (hself .Expression)).bind fun _ =>
      (Traces.expected _ _).bind fun _ => (Traces.part .Expr (hself .Conditional)).bind fun _ =>
      Traces.leave.bind fun _ => .expr (fun _ => .Conditional) (fun _ => rfl) hstart rfl)
      (.pure fun _ h => h.1)

theorem traced_readAssignment : Traces scene (Outset scene origin) (readAssignment self)
    fun whole => Since scene origin [.Part (.Expr whole)] := by
  refine Traces.starting fun span hstart => Traces.bind (hself .Conditional origin) fun target =>
    Traces.inspect.bind fun next => ?_
  split
  · exact .pure fun _ h => h.1
  · next op hop =>
    exact ((Traces.skipped _).of_before fun _ h =>
      ⟨h.1, h.2.trans (kind_of_assignment hop)⟩).bind fun _ =>
      Traces.enter.bind fun _ => (Traces.part .Expr (hself .Assignment)).bind fun _ =>
      Traces.leave.bind fun _ => .expr (fun _ => .Assign) (fun _ => rfl) hstart rfl

theorem traced_readCommaLink (first : Expr) (hstart : start = scene.offset origin) :
    Traces scene (Since scene origin [.Part (.Expr first)]) (readCommaLink self start first)
      (Round.leaves (fun whole => Since scene origin [.Part (.Expr whole)])
        fun whole => Since scene origin [.Part (.Expr whole)]) :=
  .eaten (Traces.enter.bind fun _ => (Traces.part .Expr (hself .Assignment)).bind fun _ =>
    .exprAgain (fun _ => .Comma) (fun _ => rfl) hstart rfl) (.pure fun _ h => h.1)

theorem traced_readExpression : Traces scene (Outset scene origin) (readExpression self)
    fun whole => Since scene origin [.Part (.Expr whole)] :=
  .restoringDepth <| Traces.starting fun _ hstart => Traces.bind (hself .Assignment origin) fun _ =>
    Traces.rounds (fun whole => Since scene origin [.Part (.Expr whole)]) fun first =>
      traced_readCommaLink hself first hstart

end Operators

end Grammar

end EffectLint
