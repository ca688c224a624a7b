import EffectLint.Proofs.Grammar.Counted
import EffectLint.Proofs.Grammar.RoundTrip
import EffectLint.Proofs.Grammar.Spaced
import Mathlib.Data.List.Forall2

/-!
A text of one function is read as that function, up to places, where each statement of its body is
read whatever comes behind it. The body may be one that returns an expression.
-/

namespace EffectLint

namespace Parse

-- Where a token has been taken, none is passed over.
theorem Reads.taking {α β : Type} {need total : Nat} {body : Parse α} {behind : α → Parse β}
    {before after last : List Token} {good : α → Prop} {goal : β → Prop} (hcounted : Counted body)
    (hbody : Reads need body before after good) (hshorter : after.length < before.length)
    (hneed : need ≤ total)
    (hbehind : ∀ result, good result → Reads (total - need) (behind result) after last goal) :
    Reads total (do
      let count ← taken
      let result ← body
      if (← taken) = count then
        skip
      behind result) before last goal := by
  intro limits state hrest hfuel hdepth
  obtain ⟨result, state', hrun, hgood, hafter, hfuel', hdepth', hsilent⟩ :=
    hbody limits state hrest (by omega) (by omega)
  have hcount := hcounted limits state result state' hrun
  have htaken : state'.taken ≠ state.taken := by
    rw [hrest, hafter] at hcount
    omega
  obtain ⟨result', state'', hrun', hgoal, hlast, hfuel'', hdepth'', hsilent'⟩ :=
    hbehind result hgood limits state' hafter (by omega) (by omega)
  refine ⟨result', state'', ?_, hgoal, hlast, by omega, by omega, hsilent'.trans hsilent⟩
  have hsplit : (do
      let count ← taken
      let result ← body
      if (← taken) = count then
        skip
      behind result : Parse β) limits state =
      (body limits state >>= fun found => (if found.2.taken = state.taken then
        skip >>= fun _ => behind found.1 else behind found.1) limits found.2) := rfl
  rw [hsplit, hrun]
  exact (congrFun (congrFun (if_neg htaken) limits) state').trans hrun'

end Parse

namespace Grammar

open Parse

-- What is read at every depth of nesting that is deep enough is read.
theorem reads_read {need : Nat} {nonterminal : Nonterminal} {before after : List Token}
    {good : nonterminal.Result → Prop}
    (h : ∀ levels, need ≤ levels → Reads need (readWithin levels nonterminal) before after good) :
    Reads need (read nonterminal) before after good := by
  intro limits state hrest hfuel hdepth
  have hlevels : need ≤ nesting state.fuel := by
    unfold nesting
    omega
  exact h _ hlevels limits state hrest hfuel hdepth

-- Pieces of a text that are read as one statement each, whatever comes behind them.
structure ReadEach {α : Type} (need : Nat) (tokens : α → List Token) (good : α → Statement → Prop)
    (pieces : List α) : Prop where
  opens : ∀ piece ∈ pieces,
    ∃ token rest, tokens piece = token :: rest ∧ token.kind ≠ .Sign .BraceClose
  reads : ∀ piece ∈ pieces, ∀ more, Reads need (read .Statement) (tokens piece ++ more) more
    fun found => ∃ statement, found = some statement ∧ good piece statement

section Blocks

variable {α : Type} {need : Nat} {tokens : α → List Token} {good : α → Statement → Prop}
  {pieces : List α} {opening closing : Token} {after : List Token}

-- A round for each of the pieces, and one more for the brace behind them.
theorem ReadEach.repeats (h : ReadEach need tokens good pieces)
    (hclosing : closing.kind = .Sign .BraceClose) (statements : Array Statement) :
    Repeats (pieces.length * (need + 1) + 1) (readBlockRound read) statements
      (pieces.flatMap tokens ++ closing :: after) (closing :: after) fun found =>
        ∃ more, found.toList = statements.toList ++ more ∧ List.Forall₂ good pieces more := by
  induction pieces generalizing statements with
  | nil =>
      have hlast : Reads 1 (readBlockRound read statements) (closing :: after) (closing :: after)
          (· = .Done statements) := by
        refine (reads_isAt _ _).bind (by omega) fun found hfound => ?_
        rw [if_pos (by simp [hfound, nextKind, hclosing])]
        exact .pure rfl
      rw [List.length_nil, Nat.zero_mul, Nat.zero_add]
      exact Repeats.done hlast (by omega) fun result hresult =>
        ⟨statements, hresult, [], (List.append_nil _).symm, .nil⟩
  | cons piece pieces ih =>
      obtain ⟨token, rest, htokens, hkind⟩ := h.opens piece List.mem_cons_self
      have hread := h.reads piece List.mem_cons_self (pieces.flatMap tokens ++ closing :: after)
      have hfirst : Reads (need + 1) (readBlockRound read statements)
          (tokens piece ++ (pieces.flatMap tokens ++ closing :: after))
          (pieces.flatMap tokens ++ closing :: after) fun result =>
            ∃ statement, result = .Again (statements.push statement) ∧ good piece statement := by
        refine (reads_isAt _ _).bind (by omega) fun found hfound => ?_
        rw [if_neg (by simp [hfound, htokens, nextKind, hkind])]
        refine (reads_atEnd _).bind (by omega) fun ends hends => ?_
        rw [if_neg (by simp [hends, htokens])]
        refine .taking (read_counted .Statement) hread
          (by simp only [htokens, List.cons_append, List.length_cons, List.length_append]; omega)
          (by omega) ?_
        rintro _ ⟨statement, rfl, hgood⟩
        exact .pure ⟨statement, rfl, hgood⟩
      have hlater : ReadEach need tokens good pieces :=
        ⟨fun other hmem => h.opens other (List.mem_cons_of_mem _ hmem),
          fun other hmem => h.reads other (List.mem_cons_of_mem _ hmem)⟩
      rw [List.flatMap_cons, List.append_assoc, List.length_cons, Nat.succ_mul]
      refine .again hfirst (by omega) (by omega) ?_
      rintro _ ⟨statement, rfl, hgood⟩
      refine ⟨_, rfl, ((ih hlater _).imp ?_).mono (by omega)⟩
      rintro found ⟨more, hfound, hmore⟩
      refine ⟨statement :: more, ?_, .cons hgood hmore⟩
      rw [hfound, Array.toList_push, List.append_assoc, List.singleton_append]

theorem ReadEach.reads_block (h : ReadEach need tokens good pieces)
    (hopening : opening.kind = .Sign .BraceOpen) (hclosing : closing.kind = .Sign .BraceClose) :
    Reads (pieces.length * (need + 1) + 3) (readBlock read)
      (opening :: (pieces.flatMap tokens ++ closing :: after)) after
      fun block => List.Forall₂ good pieces block.statements := by
  refine (reads_here _).bind (by omega) fun opened _ => (reads_expect _ hopening _).bind (by omega)
    fun _ _ => ?_
  refine (h.repeats hclosing #[]).rounds.bind (by omega) ?_
  rintro statements ⟨more, hstatements, hgood⟩
  rw [List.nil_append] at hstatements
  refine (reads_close _ _ opened hclosing after).bind (by omega) fun _ _ => ?_
  exact (reads_since _ after).bind (by omega) fun _ _ => .pure (hstatements ▸ hgood)

end Blocks

-- The statements of a body that returns the expression.
def Returns (value : Expr) (statements : List Statement) : Prop :=
  ∃ span read, statements = [.Return span (some read)] ∧ read.bare = value.bare

def returnLexemes (value : Expr) : List Lexeme :=
  Lexeme.word .Return :: (value.lexemes ++ [Lexeme.sign .Semicolon])

theorem reads_block {value : Expr} (h : value.Neat) :
    ∃ need, ∀ opening inside closing after, opening.kind = .Sign .BraceOpen →
      closing.kind = .Sign .BraceClose → inside.map Token.lexeme = returnLexemes value →
      Reads need (readBlock read) (opening :: (inside ++ closing :: after)) after
        fun block => Returns value block.statements := by
  obtain ⟨need, hreturn⟩ := reads_Return h
  refine ⟨need + 4, fun opening inside closing after hopening hclosing hinside => ?_⟩
  obtain ⟨word, back, hword, hkind, _⟩ := map_lexeme_cons hinside
  have heach : ReadEach need (fun _ => inside) (fun value statement =>
      ∃ span read, statement = .Return span (some read) ∧ read.bare = value.bare) [value] := by
    constructor
    · exact fun _ _ => ⟨word, back, hword, by simp [hkind, Lexeme.word]⟩
    · intro _ hmem more
      obtain rfl := List.mem_singleton.mp hmem
      refine (hreturn inside more hinside).imp ?_
      rintro _ ⟨span, read, rfl, hread⟩
      exact ⟨_, rfl, span, read, rfl, hread⟩
  have hblock : Reads _ (readBlock read) (opening :: ([value].flatMap (fun _ => inside) ++
      closing :: after)) after _ := heach.reads_block hopening hclosing
  rw [List.flatMap_singleton, List.length_singleton, Nat.one_mul] at hblock
  refine hblock.imp ?_
  rintro ⟨blockSpan, statements⟩ hstatements
  obtain ⟨_, none, ⟨span, read, rfl, hread⟩, hnone, rfl⟩ :=
    List.forall₂_cons_left_iff.mp hstatements
  obtain rfl := List.forall₂_nil_left_iff.mp hnone
  exact ⟨span, read, rfl, hread⟩

-- What stands in front of a body: the type of the result, a name, the parameters and promises.
structure Heading where
  result : TypeTree
  name : String
  parameters : List (Parameter TypeTree)
  promises : Promises

namespace Heading

structure WellWritten (heading : Heading) : Prop where
  result : heading.result.WellWritten
  name : (Lexeme.name heading.name).Valid
  types : ∀ parameter ∈ heading.parameters, parameter.type.WellWritten
  names : ∀ parameter ∈ heading.parameters, ∀ name ∈ parameter.name, (Lexeme.name name.text).Valid

-- `(parameters) promises`
def signature (heading : Heading) : List Lexeme :=
  Lexeme.sign .ParenOpen :: (TypeTree.parameterLexemes heading.parameters ++
    Lexeme.sign .ParenClose :: heading.promises.lexemes)

-- `result name(parameters) promises`
def lexemes (heading : Heading) : List Lexeme :=
  heading.result.lexemes ++ Lexeme.name heading.name :: heading.signature

-- `(parameters) promises { return value; }`
def behindName (heading : Heading) (value : Expr) : List Lexeme :=
  Lexeme.sign .ParenOpen :: (TypeTree.parameterLexemes heading.parameters ++
    Lexeme.sign .ParenClose :: (heading.promises.lexemes ++ Lexeme.sign .BraceOpen ::
      (returnLexemes value ++ [Lexeme.sign .BraceClose])))

-- `result name(parameters) promises { return value; }`
def lexemesReturning (heading : Heading) (value : Expr) : List Lexeme :=
  heading.result.lexemes ++ Lexeme.name heading.name :: heading.behindName value

theorem lexemesReturning_eq (heading : Heading) (value : Expr) :
    heading.lexemesReturning value = heading.lexemes ++ Lexeme.sign .BraceOpen ::
      (returnLexemes value ++ [Lexeme.sign .BraceClose]) := by
  simp [lexemesReturning, behindName, lexemes, signature]

theorem WellWritten.allValid {heading : Heading} (h : heading.WellWritten) {value : Expr}
    (hvalue : value.Neat) : Lexeme.AllValid (heading.lexemesReturning value) := by
  have hparameters : Lexeme.AllValid (TypeTree.parameterLexemes heading.parameters) :=
    TypeTree.allValid_parameterLexemes (fun parameter hmem => (h.types parameter hmem).allValid) h.names
  simp [lexemesReturning, behindName, returnLexemes, h.result.allValid, h.name, hparameters,
    hvalue.allValid]

end Heading

-- A function with the heading and with the statements in its body.
def IsFunctionOf (heading : Heading) (good : List Statement → Prop) (declared : FunctionTree) : Prop :=
  declared.result.bare = heading.result.bare ∧ declared.name.text = heading.name ∧
    TypeTree.bareParameters declared.parameters = TypeTree.bareParameters heading.parameters ∧
    declared.promises = heading.promises ∧ ∃ body, declared.body = some body ∧ good body.statements

theorem IsFunctionOf.imp {heading : Heading} {good good' : List Statement → Prop}
    {declared : FunctionTree} (h : IsFunctionOf heading good declared)
    (hgood : ∀ statements, good statements → good' statements) :
    IsFunctionOf heading good' declared := by
  obtain ⟨hresult, hname, hparameters, hpromises, body, hbody, hstatements⟩ := h
  exact ⟨hresult, hname, hparameters, hpromises, body, hbody, hgood _ hstatements⟩

-- A function with the heading whose body returns the value.
def IsFunction (heading : Heading) (value : Expr) (declared : FunctionTree) : Prop :=
  declared.result.bare = heading.result.bare ∧ declared.name.text = heading.name ∧
    TypeTree.bareParameters declared.parameters = TypeTree.bareParameters heading.parameters ∧
    declared.promises = heading.promises ∧
    ∃ body, declared.body = some body ∧ Returns value body.statements

theorem both_none (promises : Promises) : Promises.none.both promises = promises := by
  simp [Promises.both, Promises.none]

section Bodies

variable {heading : Heading} (hheading : heading.WellWritten)

include hheading

theorem reads_behindName (needBody : Nat) :
    ∃ need, ∀ front body after (good : List Statement → Prop),
      front.map Token.lexeme = heading.signature → nextKind body = some (.Sign .BraceOpen) →
      Reads needBody (readBlock read) body after (fun block => good block.statements) →
      ∀ start result name, result.bare = heading.result.bare → name.text = heading.name →
        Reads need (readFunction start Promises.none result name) (front ++ body) after
          fun item => ∃ declared, item = .Function declared ∧ IsFunctionOf heading good declared := by
  obtain ⟨needTypes, htypes⟩ := exists_readsTypeBy fun parameter hmem =>
    readsType_of_wellWritten (hheading.types parameter hmem)
  have hread : ∀ parameter ∈ heading.parameters, ReadsTypeBy read needTypes parameter.type :=
    fun parameter hmem tokens after htokens hafter => reads_read fun levels hlevels =>
      htypes parameter hmem levels hlevels tokens after htokens hafter
  refine ⟨heading.parameters.length * (needTypes + 6) + needBody + 9, ?_⟩
  intro front body after good hfront hopens hbody start result name hresult hname
  obtain ⟨opening, back, rfl, hopening, _, hback⟩ := map_lexeme_cons hfront
  obtain ⟨listed, back, rfl, hlisted, hback⟩ := map_lexeme_append hback
  obtain ⟨closing, promised, rfl, hclosing, _, hpromised⟩ := map_lexeme_cons hback
  simp only [List.cons_append, List.append_assoc]
  refine (reads_parameters hread hheading.types _ hopening hclosing hlisted).bind (by omega)
    fun parameters hparameters => ?_
  have hends : EndsPromises body := by simp [EndsPromises, hopens]
  refine (reads_promises hpromised hends).bind (by omega) fun promises hpromises => ?_
  refine (reads_isAt _ _).bind (by omega) fun found hfound => ?_
  rw [if_pos (by simp [hfound, hopens]), map_eq_pure_bind, bind_assoc]
  refine hbody.bind (by omega) fun block hgood => ?_
  rw [pure_bind]
  refine (reads_since start after).bind (by omega)
    fun span _ => .pure ⟨_, rfl, hresult, hname, hparameters, ?_⟩
  exact ⟨by rw [hpromises, both_none], block, rfl, hgood⟩

theorem reads_function (needBody : Nat) :
    ∃ need, ∀ front body after (good : List Statement → Prop),
      front.map Token.lexeme = heading.lexemes → nextKind body = some (.Sign .BraceOpen) →
      Reads needBody (readBlock read) body after (fun block => good block.statements) →
      Reads need readItem (front ++ body) after fun item => ∃ declared,
        item = some (.Function declared) ∧ IsFunctionOf heading good declared := by
  obtain ⟨needType, htype⟩ := readsType_of_wellWritten hheading.result
  obtain ⟨needBehind, hbehind⟩ := reads_behindName hheading needBody
  obtain ⟨first, others, hfirst, hstarts⟩ := first_of_wellWritten hheading.result
  refine ⟨needType + needBehind + 8, fun front body after good hfront hopens hbody => ?_⟩
  obtain ⟨typed, back, rfl, htyped, hback⟩ := map_lexeme_append hfront
  obtain ⟨name, signed, rfl, hname, hnameText, hsigned⟩ := map_lexeme_cons hback
  obtain ⟨token, more, htoken, hkind, _⟩ := map_lexeme_cons (htyped.trans hfirst)
  obtain ⟨opening, last, hopened, hopening, _⟩ := map_lexeme_cons hsigned
  have hdeclaration : Reads (needType + needBehind + 7) readDeclaration
      (typed ++ name :: (signed ++ body)) after fun item => ∃ declared,
        item = some (.Function declared) ∧ IsFunctionOf heading good declared := by
    have hunpromised : EndsPromises (typed ++ name :: (signed ++ body)) := by
      rcases hstarts with hstarts | ⟨basic, hstarts⟩ <;>
        simp [EndsPromises, nextKind, htoken, hkind, hstarts]
    refine (reads_here _).bind (by omega) fun start _ => ?_
    refine (@reads_promises .none [] _ rfl hunpromised).bind (by omega) fun leading hleading => ?_
    subst hleading
    have hends : EndsType (name :: (signed ++ body)) := by
      simp [EndsType, nextKind, hname, Lexeme.name]
    refine (reads_read fun levels hlevels => htype levels hlevels typed _ htyped hends).bind (by omega)
      fun result hresult => ?_
    refine (reads_expectName hname _).bind (by omega) ?_
    rintro _ ⟨span, rfl⟩
    refine (reads_isAt _ _).bind (by omega) fun found hfound => ?_
    rw [if_pos (by simp [hfound, nextKind, hopened, hopening, Lexeme.sign])]
    refine (hbehind signed body after good hsigned hopens hbody _ result ⟨name.text, span⟩ hresult
      hnameText).bind (by omega) ?_
    rintro _ ⟨declared, rfl, hdeclared⟩
    exact .pure ⟨declared, rfl, hdeclared⟩
  rw [List.append_assoc, List.cons_append]
  refine (reads_inspect _).bind (by omega) fun next hnext => ?_
  subst hnext
  rcases hstarts with hstarts | ⟨basic, hstarts⟩
  · simp only [htoken, List.cons_append, nextKind, hkind, hstarts]
    rw [← List.cons_append, ← htoken]
    exact hdeclaration
  · simp only [htoken, List.cons_append, nextKind, hkind, hstarts]
    rw [← List.cons_append, ← htoken]
    exact hdeclaration

end Bodies

-- A text with one item in it.
theorem readItems_one {need : Nat} {tokens : List Token} {good : Item → Prop} (hsome : tokens ≠ [])
    (hitem : Reads need readItem tokens [] fun item => ∃ found, item = some found ∧ good found) :
    Reads (need + 2) readItems tokens [] fun items => ∃ item, items = [item] ∧ good item := by
  have hcounted : Counted readItem := stepwise_counted.readItem read_counted
  have hfirst : Reads need (readItemRound #[]) tokens [] fun result =>
      ∃ item, result = .Again #[item] ∧ good item := by
    refine (reads_atEnd _).bind (by omega) fun ends hends => ?_
    rw [if_neg (by simp [hends, hsome])]
    refine .taking hcounted hitem (List.length_pos_iff.mpr hsome) (by omega) ?_
    rintro _ ⟨item, rfl, hgood⟩
    exact .pure ⟨item, rfl, hgood⟩
  have hlast : ∀ items, Reads 1 (readItemRound items) [] [] (· = .Done items) := by
    intro items
    refine (reads_atEnd []).bind (by omega) fun ends hends => ?_
    rw [if_pos (by simp [hends])]
    exact .pure rfl
  have hrounds : Repeats (need + 2) readItemRound #[] tokens []
      fun items => ∃ item, items.toList = [item] ∧ good item := by
    refine .again (hfirst.mono (Nat.le_succ need)) (by omega) (by omega) ?_
    rintro _ ⟨item, rfl, hgood⟩
    refine ⟨_, rfl, (Repeats.done (hlast _) (by omega) fun result hresult => ?_).mono (by omega)⟩
    exact ⟨_, hresult, item, rfl, hgood⟩
  exact hrounds.rounds.bind (by omega) fun items hitems => .pure hitems

end Grammar

-- However a function is written out, it is read on large enough budgets where its body is.
theorem parse_of_body {heading : Grammar.Heading} (hheading : heading.WellWritten) (needBody : Nat) :
    ∃ need, ∀ text front body (good : List Statement → Prop), lex text = front ++ body →
      front.map Token.lexeme = heading.lexemes → Parse.nextKind body = some (.Sign .BraceOpen) →
      Parse.Reads needBody (Grammar.readBlock Grammar.read) body []
        (fun block => good block.statements) →
      ∀ fuel depth, need ≤ fuel → need ≤ depth → ∃ declared,
        parse text fuel depth = .ok ⟨[.Function declared], #[]⟩ ∧
          Grammar.IsFunctionOf heading good declared := by
  obtain ⟨need, hread⟩ := Grammar.reads_function hheading needBody
  refine ⟨need + 2, fun text front body good hlex hfront hopens hbody fuel depth hfuel hdepth => ?_⟩
  have hsome : lex text ≠ [] := by
    rw [hlex]
    intro hnone
    rw [(List.append_eq_nil_iff.mp hnone).2] at hopens
    cases hopens
  have hitem := hread front body [] good hfront hopens hbody
  rw [← hlex] at hitem
  have hitems : Parse.Reads (need + 2) Grammar.readItems (lex text) [] fun items => ∃ item,
      items = [item] ∧ ∃ declared, item = .Function declared ∧
        Grammar.IsFunctionOf heading good declared := by
    refine Grammar.readItems_one hsome (hitem.imp ?_)
    rintro _ ⟨declared, rfl, hdeclared⟩
    exact ⟨_, rfl, declared, rfl, hdeclared⟩
  have hroom : (ParseState.start (lex text) fuel).depth + (need + 2) ≤ depth := by
    simpa [ParseState.start] using hdepth
  obtain ⟨items, state, hrun, ⟨_, rfl, declared, rfl, hdeclared⟩, _, _, _, hsilent⟩ :=
    hitems ⟨Text.width text, depth⟩ (.start (lex text) fuel) rfl hfuel hroom
  refine ⟨declared, ?_, hdeclared⟩
  rw [parse, parseTokens, hrun]
  exact congrArg (fun reported => Except.ok (Parsed.mk [.Function declared] reported)) hsilent

theorem parse_of_lexemes {heading : Grammar.Heading} (hheading : heading.WellWritten) {value : Expr}
    (hvalue : value.Neat) :
    ∃ need, ∀ text, (lex text).map Token.lexeme = heading.lexemesReturning value →
      ∀ fuel depth, need ≤ fuel → need ≤ depth → ∃ declared,
        parse text fuel depth = .ok ⟨[.Function declared], #[]⟩ ∧
          Grammar.IsFunction heading value declared := by
  obtain ⟨needBody, hbody⟩ := Grammar.reads_block hvalue
  obtain ⟨need, hparse⟩ := parse_of_body hheading needBody
  refine ⟨need, fun text hlexemes => ?_⟩
  rw [Grammar.Heading.lexemesReturning_eq] at hlexemes
  obtain ⟨front, back, hlex, hfront, hback⟩ := Grammar.map_lexeme_append hlexemes
  obtain ⟨opening, back, rfl, hopening, _, hback⟩ := Grammar.map_lexeme_cons hback
  obtain ⟨inside, back, rfl, hinside, hback⟩ := Grammar.map_lexeme_append hback
  obtain ⟨closing, back, rfl, hclosing, _, hnil⟩ := Grammar.map_lexeme_cons hback
  obtain rfl := List.map_eq_nil_iff.mp hnil
  exact hparse text front _ _ hlex hfront (congrArg some hopening)
    (hbody opening inside closing [] hopening hclosing hinside)

-- With budgets that are large enough, the text of a function that returns a neat expression is
-- read without a complaint, and what the function returns is that expression.
theorem parse_function_returning {heading : Grammar.Heading} (hheading : heading.WellWritten)
    {value : Expr} (hvalue : value.Neat) :
    ∃ need, ∀ fuel depth, need ≤ fuel → need ≤ depth → ∃ declared,
      parse (Lexeme.spaced (heading.lexemesReturning value)) fuel depth =
          .ok ⟨[.Function declared], #[]⟩ ∧
        Grammar.IsFunction heading value declared := by
  obtain ⟨need, hparse⟩ := parse_of_lexemes hheading hvalue
  exact ⟨need, hparse _ (Lexeme.lex_spaced (hheading.allValid hvalue))⟩

-- The exponent of a power may start with a prefix operator, here in `x ^^ -2`.
theorem parse_power_of_negated :
    ∃ need, ∀ fuel depth, need ≤ fuel → need ≤ depth → ∃ declared,
      parse "int f ( ) { return x ^^ - 2 ; }".toList fuel depth =
          .ok ⟨[.Function declared], #[]⟩ ∧
        Grammar.IsFunction ⟨.Basic ⟨0, 0⟩ .Integer, "f", [], .none⟩
          (.Binary ⟨0, 0⟩ (.Value .Pow) (.Identifier ⟨0, 0⟩ "x")
            (.Leading ⟨0, 0⟩ (.Value .Negate) (.Integer ⟨0, 0⟩ 2))) declared := by
  have hname : (Lexeme.name "x").Valid ∧ (Lexeme.name "f").Valid := by decide +kernel
  have hsmall : 2 < Grammar.integerBound := by decide
  have htwo : (Expr.Integer ⟨0, 0⟩ 2).Neat :=
    .intro hsmall (List.forall_mem_nil _) (List.forall_mem_nil _)
  have hbase : (Expr.Identifier ⟨0, 0⟩ "x").Neat :=
    .intro hname.1 (List.forall_mem_nil _) (List.forall_mem_nil _)
  have hexponent : (Expr.Leading ⟨0, 0⟩ (.Value .Negate) (.Integer ⟨0, 0⟩ 2)).Neat :=
    .intro trivial (by decide) (by simpa [Expr.places] using htwo)
  have hheading : Grammar.Heading.WellWritten ⟨.Basic ⟨0, 0⟩ .Integer, "f", [], .none⟩ :=
    ⟨.Basic, hname.2, List.forall_mem_nil _, List.forall_mem_nil _⟩
  have hvalue : (Expr.Binary ⟨0, 0⟩ (.Value .Pow) (.Identifier ⟨0, 0⟩ "x")
      (.Leading ⟨0, 0⟩ (.Value .Negate) (.Integer ⟨0, 0⟩ 2))).Neat :=
    .intro trivial (by decide) (by simpa [Expr.places] using ⟨hbase, hexponent⟩)
  have htext : Lexeme.spaced (Grammar.Heading.lexemesReturning
      ⟨.Basic ⟨0, 0⟩ .Integer, "f", [], .none⟩ (.Binary ⟨0, 0⟩ (.Value .Pow)
        (.Identifier ⟨0, 0⟩ "x") (.Leading ⟨0, 0⟩ (.Value .Negate) (.Integer ⟨0, 0⟩ 2)))) =
      "int f ( ) { return x ^^ - 2 ; }".toList := by decide +kernel
  rw [← htext]
  exact parse_function_returning hheading hvalue

end EffectLint
