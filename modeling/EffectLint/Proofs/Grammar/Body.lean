import EffectLint.Proofs.Grammar.Function
import EffectLint.Proofs.Grammar.Local

/-!
Declarations as statements. A statement that starts like a type is a local where the look ahead
finds a declaration, and then it declares what a global of the same tokens does. Elsewhere it is
taken for an expression.
-/

namespace EffectLint

open Parse Grammar Lexer

namespace Grammar

section Statements

variable {before after : List Token}

theorem starts_of_declarationFrom (h : declarationFrom before = true) :
    StartsType before := by
  unfold declarationFrom at h
  cases hkind : nextKind before with
  | none =>
      rw [hkind] at h
      cases h
  | some kind =>
      rw [hkind] at h
      cases kind with
      | Basic type => rw [StartsType, hkind]; rfl
      | Identifier => rw [StartsType, hkind]; rfl
      | _ => cases h

theorem looksLikeDeclaration_of_fuel {limits : Limits} {state : ParseState} {fuel : Nat}
    (hfuel : state.fuel = fuel + 1) :
    looksLikeDeclaration limits state = .ok (declarationFrom state.rest, { state with fuel }) := by
  refine (bind_of_ok (inspect_of_fuel hfuel)).trans ?_
  unfold declarationFrom
  cases nextKind state.rest with
  | none => rfl
  | some kind => cases kind <;> rfl

theorem reads_looksLikeDeclaration (before : List Token) :
    Reads 1 looksLikeDeclaration before before (· = declarationFrom before) := by
  rintro limits state rfl hfuel _
  obtain ⟨fuel, hlooks⟩ : ∃ fuel, state.fuel = fuel + 1 := ⟨state.fuel - 1, by omega⟩
  exact ⟨_, _, looksLikeDeclaration_of_fuel hlooks, rfl, rfl, Nat.le_of_eq hlooks,
    Nat.le_add_right _ _, rfl⟩

-- A statement that starts like a type.
def readLocalOrEvaluate (self : Reading) : Parse (Option Statement) := do
  if ← looksLikeDeclaration then
    return some (.Local (← readLocal self))
  else
    return some (← readEvaluate self)

theorem readStatementHere_of_starts {self : Reading} {limits : Limits} {state : ParseState} {fuel : Nat}
    (hstarts : StartsType state.rest) (hfuel : state.fuel = fuel + 1) :
    readStatementHere self limits state = readLocalOrEvaluate self limits { state with fuel } := by
  obtain ⟨token, rest, hrest, htype⟩ := hstarts.exists_cons
  have hnext : nextKind state.rest = some token.kind := congrArg nextKind hrest
  refine (bind_of_ok (here_of_cons hrest)).trans ((bind_of_ok (inspect_of_fuel hfuel)).trans ?_)
  rw [hnext]
  cases hkind : token.kind with
  | Basic type => rfl
  | Identifier => rfl
  | _ =>
      rw [hkind] at htype
      cases htype

-- Where a declaration is seen from its start, the statement is one.
theorem reads_statement_local {need : Nat} {good : VariableTree → Prop}
    (hseen : declarationFrom before = true) (hlocal : ∀ levels, need ≤ levels →
      Reads need (readLocal (readWithin levels)) before after good)
    {levels : Nat} (hlevels : need + 3 ≤ levels) :
    Reads (need + 3) (readWithin levels .Statement) before after fun found =>
      ∃ declared, found = some (.Local declared) ∧ good declared := by
  obtain ⟨levels, rfl⟩ : ∃ fewer, levels = fewer + 1 := ⟨levels - 1, by omega⟩
  have hdeclaration : Reads (need + 1) (readLocalOrEvaluate (readWithin levels)) before after
      fun found => ∃ declared, found = some (.Local declared) ∧ good declared := by
    refine (reads_looksLikeDeclaration before).bind (by omega) fun seen hfound => ?_
    rw [if_pos (hfound.trans hseen)]
    exact (hlocal levels (by omega)).bind (by omega) fun declared hgood =>
      .pure ⟨declared, rfl, hgood⟩
  have hhere : Reads (need + 2) (readStatementHere (readWithin levels)) before after
      fun found => ∃ declared, found = some (.Local declared) ∧ good declared := by
    rintro limits state rfl hfuel hroom
    obtain ⟨fuel, hlooks⟩ : ∃ fuel, state.fuel = fuel + 1 := ⟨state.fuel - 1, by omega⟩
    rw [readStatementHere_of_starts (starts_of_declarationFrom hseen) hlooks]
    obtain ⟨found, last, hrun, hfound, hrest, hleft, hdepth, hsilent⟩ :=
      hdeclaration limits { state with fuel } rfl (show need + 1 ≤ fuel by omega)
        (show state.depth + (need + 1) ≤ limits.depth by omega)
    replace hleft : fuel ≤ last.fuel + (need + 1) := hleft
    exact ⟨found, last, hrun, hfound, hrest, by omega, Nat.le_succ_of_le hdepth, hsilent⟩
  exact (reads_enter _).bind (by omega) fun _ _ => hhere.bind (by omega) fun found hfound =>
    (reads_leave after).bind (by omega) fun _ _ => .pure hfound

theorem evaluate_of_unseen {self : Reading} {limits : Limits} {state last : ParseState}
    {found : Option Statement} (hrun : readLocalOrEvaluate self limits state = .ok (found, last))
    (hunseen : declarationFrom state.rest = false) :
    ∃ value, found = some (.Evaluate value) := by
  obtain ⟨seen, middle, hseen, hchoice⟩ := of_bind hrun
  obtain ⟨_, _, hlook, _⟩ := of_bind hseen
  obtain ⟨fuel, hfuel, _⟩ := of_inspect hlook
  rw [looksLikeDeclaration_of_fuel hfuel, hunseen] at hseen
  cases hseen
  obtain ⟨evaluated, _, hevaluated, hfound⟩ := of_bind hchoice
  cases hfound
  obtain ⟨value, _, _, hended⟩ := of_bind hevaluated
  obtain ⟨_, _, _, hlast⟩ := of_bind hended
  cases hlast
  exact ⟨value, rfl⟩

-- Where none is seen, the statement is an expression, whatever it is read as.
theorem evaluate_of_statement {levels : Nat} {limits : Limits} {state last : ParseState}
    {found : Option Statement} (hstarts : StartsType state.rest)
    (hunseen : declarationFrom state.rest = false)
    (hrun : readWithin levels .Statement limits state = .ok (found, last)) :
    ∃ value, found = some (.Evaluate value) := by
  cases levels with
  | zero => cases hrun
  | succ levels =>
      obtain ⟨_, entered, hentered, hinside⟩ := of_bind hrun
      obtain ⟨_, rfl⟩ := of_enter hentered
      obtain ⟨statement, middle, hstatement, hleft⟩ := of_bind hinside
      cases hleft
      obtain ⟨_, _, hspan, hnext⟩ := of_bind hstatement
      obtain rfl := of_here hspan
      obtain ⟨_, _, hlook, _⟩ := of_bind hnext
      obtain ⟨fuel, hfuel, _⟩ := of_inspect hlook
      have hplain : readStatementHere (readWithin levels) limits
          { state with depth := state.depth + 1 } = _ := readStatementHere_of_starts hstarts hfuel
      exact evaluate_of_unseen (hplain.symm.trans hstatement) hunseen

end Statements

end Grammar

-- The statement declares what the global does: the same type, name and value.
def Declares (declared : VariableTree) (statement : Statement) : Prop :=
  ∃ placed, statement = .Local placed ∧ (Item.Global placed).bare = (Item.Global declared).bare

-- Tokens of a text that are written so are read as the local, whatever follows them there.
def ReadsAsLocal (need : Nat) (lexemes : List Lexeme) (declared : VariableTree) : Prop :=
  ∀ text before tokens behind, lex text = before ++ tokens ++ behind →
    tokens.map Token.lexeme = lexemes → ∀ more levels, need ≤ levels →
    Reads need (readWithin levels .Statement) (tokens ++ more) more fun found =>
      ∃ statement, found = some statement ∧ Declares declared statement

theorem ReadsAsLocal.mono {low high : Nat} {lexemes : List Lexeme} {declared : VariableTree}
    (h : ReadsAsLocal low lexemes declared) (hle : low ≤ high) : ReadsAsLocal high lexemes declared :=
  fun text before tokens behind hlex htokens more levels hlevels =>
    (h text before tokens behind hlex htokens more levels (Nat.le_trans hle hlevels)).mono hle

theorem ReadAlone.reads {lexemes : List Lexeme} {declared : VariableTree}
    (h : ReadAlone lexemes declared) (hforeseen : declared.type.foreseen true = true) :
    ∃ need, ReadsAsLocal need lexemes declared := by
  obtain ⟨low, looks, depth, last, hplaced⟩ := h.placed
  refine ⟨low + (looks + depth + last) + 3, ?_⟩
  rintro text before tokens behind hlex rfl more levels hlevels
  have hseen : declarationFrom (tokens ++ more) = true := (h.seen hlex more).trans hforeseen
  have hlocal : ∀ levels, low + (looks + depth + last) ≤ levels →
      Reads (low + (looks + depth + last)) (readLocal (readWithin levels)) (tokens ++ more) more
      (· = declared.relocate (Relocation.toPart text before.length 0).offset) := by
    intro levels hlevels
    have hreads := reads_of_placed (hplaced text before tokens behind hlex rfl more)
      (starts_of_declarationFrom hseen) (Nat.le_trans (Nat.le_add_right _ _) hlevels)
    exact hreads.mono (Nat.le_add_left _ _)
  refine (reads_statement_local hseen hlocal hlevels).imp ?_
  rintro _ ⟨_, rfl, rfl⟩
  exact ⟨_, rfl, _, rfl, Item.bare_relocate _ (.Global declared)⟩

-- The one global of a text that is read without a complaint.
def silentGlobal? : Except Exhausted Parsed → Option VariableTree
  | .ok ⟨[.Global declared], diagnostics⟩ => if diagnostics.isEmpty then some declared else none
  | _ => none

theorem eq_ok_of_silentGlobal {outcome : Except Exhausted Parsed} {declared : VariableTree}
    (h : silentGlobal? outcome = some declared) : outcome = .ok ⟨[.Global declared], #[]⟩ := by
  unfold silentGlobal? at h
  split at h
  · split at h
    case isTrue hempty =>
      cases h
      rw [Array.isEmpty_iff.mp hempty]
    case isFalse => cases h
  · cases h

theorem exists_silentGlobal {outcome : Except Exhausted Parsed} {foreseen : Bool}
    (h : (silentGlobal? outcome).map (fun declared => declared.type.foreseen true) = some foreseen) :
    ∃ declared, outcome = .ok ⟨[.Global declared], #[]⟩ ∧
      declared.type.foreseen true = foreseen := by
  obtain ⟨declared, hglobal, hforeseen⟩ := Option.map_eq_some_iff.mp h
  exact ⟨declared, eq_ok_of_silentGlobal hglobal, hforeseen⟩

section Globals

variable {text : List Char} {fuel depth : Nat} {declared : VariableTree}

theorem exists_readsAsLocal (hparse : parse text fuel depth = .ok ⟨[.Global declared], #[]⟩)
    (hone : OneDeclaration (lex text)) (hforeseen : declared.type.foreseen true = true) :
    ∃ need, ReadsAsLocal need ((lex text).map Token.lexeme) declared := by
  obtain ⟨alone, halone, rfl⟩ := readAlone_of_parse hone hparse
  have hbare : (Item.Global (alone.relocate (edge text))).bare = (Item.Global alone).bare :=
    Item.bare_relocate _ (.Global alone)
  have hsame : alone.type.foreseen true = true :=
    (TypeTree.foreseen_relocate (edge text) alone.type true).symm.trans hforeseen
  simpa only [ReadsAsLocal, Declares, hbare] using halone.reads hsame

-- With any other type the statement is taken for an expression.
theorem global_read_as_expression (hparse : parse text fuel depth = .ok ⟨[.Global declared], #[]⟩)
    (hone : OneDeclaration (lex text)) (hunforeseen : declared.type.foreseen true = false)
    {whole : List Char} {before tokens more : List Token} (hlex : lex whole = before ++ tokens ++ more)
    (htokens : tokens.map Token.lexeme = (lex text).map Token.lexeme) {levels : Nat} {limits : Limits}
    {state after : ParseState} (hstate : state.rest = tokens ++ more) {found : Option Statement}
    (hrun : readWithin levels .Statement limits state = .ok (found, after)) :
    ∃ value, found = some (.Evaluate value) := by
  obtain ⟨alone, halone, rfl⟩ := readAlone_of_parse hone hparse
  rw [← htokens] at halone
  have hunseen : declarationFrom state.rest = false := by
    rw [hstate, halone.seen hlex more, ← TypeTree.foreseen_relocate (edge text)]
    exact hunforeseen
  exact evaluate_of_statement (hstate ▸ hone.starts.of_lexemes htokens more) hunseen hrun

end Globals

section Bodies

variable {heading : Heading} {globals : List (List Char × VariableTree)}

def writtenGlobals (globals : List (List Char × VariableTree)) : List Lexeme :=
  globals.flatMap fun global => (lex global.1).map Token.lexeme

-- Tokens that are written like the globals come apart into the tokens of each.
theorem tokens_of_writtenGlobals {inside : List Token}
    (hinside : inside.map Token.lexeme = writtenGlobals globals) :
    ∃ pieces : List (List Token × List Char × VariableTree), pieces.map Prod.snd = globals ∧
      inside = pieces.flatMap Prod.fst ∧
      ∀ piece ∈ pieces, piece.1.map Token.lexeme = (lex piece.2.1).map Token.lexeme := by
  induction globals generalizing inside with
  | nil =>
      obtain rfl := List.map_eq_nil_iff.mp hinside
      exact ⟨[], rfl, rfl, List.forall_mem_nil _⟩
  | cons global globals ih =>
      obtain ⟨tokens, rest, rfl, htokens, hrest⟩ := map_lexeme_append hinside
      obtain ⟨pieces, rfl, rfl, hpieces⟩ := ih hrest
      exact ⟨(tokens, global) :: pieces, rfl, rfl, List.forall_mem_cons.mpr ⟨htokens, hpieces⟩⟩

theorem readEach_of_globals {need : Nat} {text : List Char} {before behind : List Token}
    {pieces : List (List Token × List Char × VariableTree)}
    (hlex : lex text = before ++ pieces.flatMap Prod.fst ++ behind)
    (hpieces : ∀ piece ∈ pieces, piece.1.map Token.lexeme = (lex piece.2.1).map Token.lexeme)
    (hstarts : ∀ piece ∈ pieces, StartsType (lex piece.2.1))
    (hreads : ∀ piece ∈ pieces,
      ReadsAsLocal need ((lex piece.2.1).map Token.lexeme) piece.2.2) :
    ReadEach need Prod.fst (fun piece => Declares piece.2.2) pieces where
  opens piece hmem := by
    have hopens := (hstarts piece hmem).of_lexemes (hpieces piece hmem) []
    rw [List.append_nil] at hopens
    obtain ⟨token, rest, htokens, hopens⟩ := hopens.exists_cons
    refine ⟨token, rest, htokens, fun hclose => ?_⟩
    rw [hclose] at hopens
    cases hopens
  reads piece hmem more := by
    obtain ⟨earlier, later, hsplit⟩ := List.append_of_mem hmem
    have hplace : lex text = (before ++ earlier.flatMap Prod.fst) ++ piece.1 ++
        (later.flatMap Prod.fst ++ behind) := by
      rw [hlex, hsplit]
      simp
    exact reads_read fun levels =>
      hreads piece hmem text _ piece.1 _ hplace (hpieces piece hmem) more levels

-- In the body of a function any number of globals are read as locals.
theorem parse_body_of_globals (hheading : heading.WellWritten)
    (hglobals : ∀ global ∈ globals,
      (∃ fuel depth, parse global.1 fuel depth = .ok ⟨[.Global global.2], #[]⟩) ∧
        OneDeclaration (lex global.1) ∧ global.2.type.foreseen true = true) :
    ∃ need, ∀ text, (lex text).map Token.lexeme = heading.lexemes ++ Lexeme.sign .BraceOpen ::
        (writtenGlobals globals ++ [Lexeme.sign .BraceClose]) →
      ∀ fuel depth, need ≤ fuel → need ≤ depth → ∃ function,
        parse text fuel depth = .ok ⟨[.Function function], #[]⟩ ∧
          IsFunctionOf heading (List.Forall₂ (fun global => Declares global.2) globals) function := by
  have hcommon : ∃ need, ∀ global ∈ globals,
      ReadsAsLocal need ((lex global.1).map Token.lexeme) global.2 := by
    refine exists_common (fun hle h => h.mono hle) fun global hmem => ?_
    obtain ⟨⟨fuel, depth, hparse⟩, hone, hforeseen⟩ := hglobals global hmem
    exact exists_readsAsLocal hparse hone hforeseen
  obtain ⟨needEach, hreads⟩ := hcommon
  obtain ⟨need, hparse⟩ := parse_of_body hheading (globals.length * (needEach + 1) + 3)
  refine ⟨need, fun text hlexemes => ?_⟩
  obtain ⟨front, back, hlex, hfront, hback⟩ := map_lexeme_append hlexemes
  obtain ⟨opening, back, rfl, hopening, _, hback⟩ := map_lexeme_cons hback
  obtain ⟨inside, back, rfl, hinside, hback⟩ := map_lexeme_append hback
  obtain ⟨closing, back, rfl, hclosing, _, hnil⟩ := map_lexeme_cons hback
  obtain rfl := List.map_eq_nil_iff.mp hnil
  obtain ⟨pieces, rfl, rfl, hpieces⟩ := tokens_of_writtenGlobals hinside
  have hplace : lex text = (front ++ [opening]) ++ pieces.flatMap Prod.fst ++ [closing] := by
    rw [hlex]
    simp
  have heach : ReadEach needEach Prod.fst (fun piece => Declares piece.2.2) pieces := by
    refine readEach_of_globals hplace hpieces (fun piece hmem => ?_) fun piece hmem =>
      hreads piece.2 (List.mem_map_of_mem hmem)
    obtain ⟨_, hone, _⟩ := hglobals piece.2 (List.mem_map_of_mem hmem)
    exact hone.starts
  rw [List.length_map] at hparse
  refine hparse text front _ _ hlex hfront (congrArg some hopening)
    ((heach.reads_block hopening hclosing).imp fun block hblock => ?_)
  exact List.forall₂_map_left_iff.mpr hblock

end Bodies

section Declared

variable {text : List Char} {fuel depth : Nat} {declared : VariableTree}

-- A function that has the tokens alone in its body declares the local there and nothing else.
def IsBodyOf (heading : Heading) (lexemes : List Lexeme) (declared : VariableTree) : Prop :=
  ∃ need, ∀ whole, (lex whole).map Token.lexeme =
      heading.lexemes ++ Lexeme.sign .BraceOpen :: (lexemes ++ [Lexeme.sign .BraceClose]) →
    ∀ fuel depth, need ≤ fuel → need ≤ depth → ∃ function,
      parse whole fuel depth = .ok ⟨[.Function function], #[]⟩ ∧
        IsFunctionOf heading (∃ statement, · = [statement] ∧ Declares declared statement) function

-- A global is read as a local of the same type, name and value wherever its tokens are read as a
-- statement: in any text, whatever was read before them and whatever comes behind, at any depth.
-- Its type has to start with a basic one, or to have nothing but single tokens as keys in front of
-- the first `function` or `delegate`.
theorem global_read_as_local (hparse : parse text fuel depth = .ok ⟨[.Global declared], #[]⟩)
    (hone : OneDeclaration (lex text)) (hforeseen : declared.type.foreseen true = true) :
    (∃ need, ReadsAsLocal need ((lex text).map Token.lexeme) declared) ∧
      ∀ heading : Heading, heading.WellWritten →
        IsBodyOf heading ((lex text).map Token.lexeme) declared := by
  refine ⟨exists_readsAsLocal hparse hone hforeseen, fun heading hheading => ?_⟩
  obtain ⟨need, hbody⟩ := @parse_body_of_globals heading [(text, declared)] hheading
    (List.forall_mem_singleton.mpr ⟨⟨fuel, depth, hparse⟩, hone, hforeseen⟩)
  refine ⟨need, fun whole hwhole fuel depth hfuel hdepth => ?_⟩
  rw [← List.append_nil ((lex text).map Token.lexeme)] at hwhole
  obtain ⟨function, hfunction, hheaded⟩ := hbody whole hwhole fuel depth hfuel hdepth
  refine ⟨function, hfunction, hheaded.imp fun statements hstatements => ?_⟩
  obtain ⟨statement, rest, hdeclares, hrest, rfl⟩ := List.forall₂_cons_left_iff.mp hstatements
  cases hrest
  exact ⟨statement, rfl, hdeclares⟩

-- The key of the map is a single token, and that of the map in its arguments need not be one.
theorem map_of_names_read_as_local :
    ∃ declared, parse "V[K] delegate(V[K*]) x = new class {};".toList 100 10 =
          .ok ⟨[.Global declared], #[]⟩ ∧
      OneDeclaration (lex "V[K] delegate(V[K*]) x = new class {};".toList) ∧
      declared.type.foreseen true = true ∧
      (∃ need, ReadsAsLocal need
        ((lex "V[K] delegate(V[K*]) x = new class {};".toList).map Token.lexeme) declared) ∧
      ∀ heading : Heading, heading.WellWritten → IsBodyOf heading
        ((lex "V[K] delegate(V[K*]) x = new class {};".toList).map Token.lexeme) declared := by
  have hone : OneDeclaration (lex "V[K] delegate(V[K*]) x = new class {};".toList) :=
    ⟨by decide +kernel, by decide +kernel⟩
  obtain ⟨declared, hparse, hforeseen⟩ := exists_silentGlobal (by decide +kernel :
    (silentGlobal? (parse "V[K] delegate(V[K*]) x = new class {};".toList 100 10)).map
      (fun declared => declared.type.foreseen true) = some true)
  exact ⟨declared, hparse, hone, hforeseen, global_read_as_local hparse hone hforeseen⟩

-- A key that is a pointer is taken for a product that has no second factor, on any budgets.
theorem map_of_pointers_not_local :
    (∃ declared, parse "A[B*] x;".toList 100 10 = .ok ⟨[.Global declared], #[]⟩) ∧
      OneDeclaration (lex "A[B*] x;".toList) ∧
      ∀ fuel depth parsed, parse "void f() { A[B*] x; }".toList fuel depth = .ok parsed →
        parsed.diagnostics.size = 2 := by
  refine ⟨?_, ⟨by decide +kernel, by decide +kernel⟩, ?_⟩
  · obtain ⟨declared, hparse, _⟩ := exists_silentGlobal (by decide +kernel :
      (silentGlobal? (parse "A[B*] x;".toList 100 10)).map
        (fun declared => declared.type.foreseen true) = some false)
    exact ⟨declared, hparse⟩
  · intro fuel depth parsed hparse
    have hsize : (parse "void f() { A[B*] x; }".toList 100 10).toOption.map
        (fun parsed => parsed.diagnostics.size) = some 2 := by decide +kernel
    cases hrun : parse "void f() { A[B*] x; }".toList 100 10 with
    | error reason =>
        rw [hrun] at hsize
        cases hsize
    | ok known =>
        rw [hrun] at hsize
        rw [parse_unique hparse hrun]
        exact Option.some.inj hsize

end Declared

end EffectLint
