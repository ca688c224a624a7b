import EffectLint.Proofs.Grammar.Calm
import EffectLint.Proofs.Grammar.Declaration
import EffectLint.Proofs.Grammar.SameTokens

/-!
A declaration inside a body. Where the look ahead comes to its end, the tokens of a global are read
as a local of the same type, name and value, whatever stands around them.
-/

namespace EffectLint

open Parse Grammar Lexer

namespace Grammar

section BaseTypes

variable {limits : Limits} {state : ParseState} {token : Token} {rest : List Token} {fuel : Nat}

theorem here_of_cons (hrest : state.rest = token :: rest) :
    here limits state = .ok (token.span, state) := by
  unfold here
  rw [hrest]

theorem readBaseType_basic {type : BasicType} (hrest : state.rest = token :: rest)
    (hkind : token.kind = .Basic type) (hfuel : state.fuel = fuel + 1) :
    readBaseType limits state = .ok (.Basic token.span type, { state with
      rest, fuel, taken := state.taken + 1, lastEnd := token.span.stop }) := by
  have hnext : nextKind state.rest = some (.Basic type) := by rw [hrest, nextKind, hkind]
  calc
    readBaseType limits state = _ := bind_of_ok (here_of_cons hrest)
    _ = _ := bind_of_ok (inspect_of_fuel hfuel)
    _ = (skip >>= fun _ => pure (.Basic token.span type)) limits { state with fuel } := by rw [hnext]
    _ = _ := bind_of_ok (bind_of_ok (take_of_cons hrest))
    _ = _ := rfl

theorem expectName_of_cons (hrest : state.rest = token :: rest) (hkind : token.kind = .Identifier)
    (hfuel : state.fuel = fuel + 1) :
    expectName limits state = .ok (some ⟨token.text, token.span⟩, { state with
      rest, fuel, taken := state.taken + 1, lastEnd := token.span.stop }) := by
  have hat : isAt .Identifier limits state = .ok (true, { state with fuel }) := by
    refine (bind_of_ok (inspect_of_fuel hfuel)).trans ?_
    rw [hrest, nextKind, hkind]
    rfl
  calc
    expectName limits state = _ := bind_of_ok hat
    _ = _ := bind_of_ok (here_of_cons hrest)
    _ = _ := bind_of_ok (take_of_cons hrest)
    _ = _ := rfl

theorem readBaseType_named (hrest : state.rest = token :: rest) (hkind : token.kind = .Identifier)
    (hfuel : state.fuel = fuel + 2) :
    readBaseType limits state = .ok (.Named token.span ⟨token.text, token.span⟩, { state with
      rest, fuel, taken := state.taken + 1, lastEnd := token.span.stop }) := by
  have hnext : nextKind state.rest = some .Identifier := by rw [hrest, nextKind, hkind]
  have hname : expectName limits { state with fuel := fuel + 1 } = _ :=
    expectName_of_cons hrest hkind rfl
  refine (bind_of_ok (here_of_cons hrest)).trans ((bind_of_ok (inspect_of_fuel hfuel)).trans ?_)
  rw [hnext]
  exact bind_of_ok hname

theorem here_forgets {span : Span} (h : here limits state = .ok (span, state)) (lastEnd : Nat) :
    here limits { state with lastEnd } = .ok (span, { state with lastEnd }) := by
  unfold here at h ⊢
  cases hrest : state.rest <;> simp only [hrest] at h ⊢ <;> cases h <;> rfl

-- Where the token before it ended is forgotten with the first token of a type.
theorem readBaseType_forgets {base : TypeTree} {after : ParseState}
    (hstarts : StartsType state.rest)
    (hrun : readBaseType limits state = .ok (base, after)) (lastEnd : Nat) :
    readBaseType limits { state with lastEnd } = .ok (base, after) := by
  obtain ⟨token, rest, hrest, htype⟩ := hstarts.exists_cons
  obtain ⟨start, first, hhere, hbase⟩ := of_bind hrun
  obtain rfl := of_here hhere
  obtain ⟨next, second, hnext, hbase⟩ := of_bind hbase
  obtain ⟨fuel, hfuel, rfl, rfl⟩ := of_inspect hnext
  cases hfirst : token.kind with
  | Basic type =>
      rw [readBaseType_basic hrest hfirst hfuel] at hrun
      calc
        readBaseType limits { first with lastEnd } = _ := readBaseType_basic hrest hfirst hfuel
        _ = _ := hrun
  | Identifier =>
      rw [hrest, nextKind, hfirst] at hbase
      obtain ⟨name, third, hname, _⟩ := of_bind hbase
      obtain ⟨isNamed, fourth, hat, _⟩ := of_bind hname
      obtain ⟨left, hleft, _⟩ := of_isAt hat
      have hlooks : first.fuel = left + 2 := hfuel.trans (congrArg (· + 1) hleft)
      rw [readBaseType_named hrest hfirst hlooks] at hrun
      calc
        readBaseType limits { first with lastEnd } = _ := readBaseType_named hrest hfirst hlooks
        _ = _ := hrun
  | _ =>
      rw [hfirst] at htype
      cases htype

theorem readLocal_forgets {levels : Nat} {declared : VariableTree} {after : ParseState}
    (hstarts : StartsType state.rest)
    (hrun : readLocal (readWithin levels) limits state = .ok (declared, after)) (lastEnd : Nat) :
    readLocal (readWithin levels) limits { state with lastEnd } = .ok (declared, after) := by
  obtain ⟨start, first, hstart, htyped⟩ := of_bind hrun
  obtain rfl := of_here hstart
  obtain ⟨type, second, htype, hbehind⟩ := of_bind htyped
  refine (bind_of_ok (here_forgets hstart lastEnd)).trans ((bind_of_ok ?_).trans hbehind)
  cases levels with
  | zero => cases htype
  | succ levels =>
      obtain ⟨begin, third, hbegin, hsuffixed⟩ := of_bind htype
      obtain rfl := of_here hbegin
      obtain ⟨base, fourth, hbase, hsuffixes⟩ := of_bind hsuffixed
      exact (bind_of_ok (here_forgets hbegin lastEnd)).trans
        ((bind_of_ok (readBaseType_forgets hstarts hbase lastEnd)).trans hsuffixes)

end BaseTypes

theorem finishes_readLocal {before : List Token → Prop} (levels : Nat) :
    Finishes before (readLocal (readWithin levels)) := by
  have steps := climbing_plain
  have hvalue := plain_readInitialValue (readWithin_plain levels)
  have hbehind : ∀ (start : Nat) (type : TypeTree) (name : Name), Finishes Anywhere (do
      let value ← readInitialValue (readWithin levels)
      expectSemicolon
      return (⟨← since start, type, name, value⟩ : VariableTree)) := fun start type name =>
    .plain hvalue fun value => finishes_expectSemicolon.idle fun _ => idle_since _ _
  have hnameless : ∀ (start : Nat) (type : TypeTree), Candid (do
      let span ← here
      let value ← readInitialValue (readWithin levels)
      expectSemicolon
      return (⟨← since start, type, ⟨"", span⟩, value⟩ : VariableTree)) := fun start type =>
    stepwise_candid.here.bind fun span => (hbehind start type ⟨"", span⟩).ensures
  exact .plain steps.here fun start => .plain (readWithin_plain levels .Type) fun type =>
    .named (fun name => hbehind start.start type name)
      ((hnameless start.start type).impossible fun _ => id)

end Grammar

-- From numbered tokens to some of those of a text, of which others have been taken before.
def Relocation.toPart (text : List Char) (skipped passed : Nat) : Relocation where
  offset number := edge text (2 * skipped + number)
  starts number := ∃ index, skipped + index ≤ (lex text).length ∧ number = 2 * index
  monotone h := edge_mono text (Nat.add_le_add_left h _)
  apart := by
    rintro _ _ ⟨one, hone, rfl⟩ ⟨other, hother, rfl⟩ heq
    rw [← Nat.mul_add, ← Nat.mul_add] at heq
    have hsame := (Relocation.toText text).apart ⟨_, hone, rfl⟩ ⟨_, hother, rfl⟩ heq
    omega
  passed := passed

theorem numbered_toPart {text : List Char} {before tokens more : List Token}
    (hlex : lex text = before ++ tokens ++ more) (passed : Nat) :
    (numbered (tokens.map Token.lexeme)).map
      (Token.relocate (Relocation.toPart text before.length passed).offset) = tokens := by
  apply List.ext_getElem?
  intro index
  simp only [numbered, List.getElem?_map, List.getElem?_mapIdx, Option.map_map]
  cases htoken : tokens[index]? with
  | none => rfl
  | some token =>
      have hindex : (lex text)[before.length + index]? = some token := by
        have hlt : index < tokens.length := (List.getElem?_eq_some_iff.mp htoken).1
        rw [hlex, List.append_assoc, List.getElem?_append_right (Nat.le_add_right _ _),
          Nat.add_sub_cancel_left, List.getElem?_append_left hlt, htoken]
      have hspan : (⟨edge text (2 * before.length + 2 * index),
          edge text (2 * before.length + (2 * index + 1))⟩ : Span) = token.span := by
        rw [← Nat.add_assoc, ← Nat.mul_add, edge_start hindex, edge_stop hindex]
      simp only [Option.map_some, Function.comp_apply, Token.relocate, Span.relocate,
        Relocation.toPart, hspan]
      rfl

theorem moved_numbered {text : List Char} {before tokens more : List Token}
    (hlex : lex text = before ++ tokens ++ more) (looks depth taken : Nat) :
    (Relocation.toPart text before.length taken).Moved ⟨2 * tokens.length, depth⟩
      ⟨edge text (2 * before.length + 2 * tokens.length), depth⟩
      (.start (numbered (tokens.map Token.lexeme)) looks)
      ⟨tokens, taken, 0, looks, 0, none, #[]⟩ where
  textEnd := rfl
  marksEnd := ⟨tokens.length, by simp [hlex], rfl⟩
  limit := rfl
  rest := (numbered_toPart hlex taken).symm
  marks := by
    intro token htoken
    obtain ⟨index, hindex, rfl⟩ := List.mem_mapIdx.mp htoken
    rw [List.length_map] at hindex
    refine ⟨index, ?_, rfl⟩
    simp only [hlex, List.length_append]
    omega
  taken := (Nat.zero_add taken).symm
  lastEnd start := by simp [ParseState.start]
  fuel := rfl
  depth := rfl
  complained := nofun
  lastComplaint := rfl
  diagnostics := Array.map_empty.symm

-- The lexemes by themselves are read as a local, to their end and without a complaint.
def ReadAlone (lexemes : List Lexeme) (declared : VariableTree) : Prop :=
  ∃ levels looks depth after,
    readLocal (readWithin levels) ⟨2 * lexemes.length, depth⟩ (.start (numbered lexemes) looks) =
        .ok (declared, after) ∧
      after.rest = [] ∧ after.diagnostics = #[]

theorem nextKind_relocate (offset : Nat → Nat) (tokens : List Token) :
    nextKind (tokens.map (Token.relocate offset)) = nextKind tokens := by
  cases tokens <;> rfl

theorem StartsType.of_lexemes {tokens tokens' : List Token} (h : StartsType tokens')
    (hlexemes : tokens.map Token.lexeme = tokens'.map Token.lexeme) (more : List Token) :
    StartsType (tokens ++ more) := by
  obtain ⟨_, _, rfl, hstarts⟩ := h.exists_cons
  obtain ⟨_, _, rfl, hfirst, _⟩ := map_lexeme_cons hlexemes
  exact show TokenKind.startsType (some _) = true from hfirst ▸ hstarts

theorem OneDeclaration.of_relocate {offset : Nat → Nat} {tokens : List Token}
    (h : OneDeclaration (tokens.map (Token.relocate offset))) : OneDeclaration tokens where
  starts := (congrArg TokenKind.startsType (nextKind_relocate offset tokens)).symm.trans h.starts
  ends token htoken := h.ends (token.relocate offset) (by
    rw [← List.map_dropLast]
    exact List.mem_map_of_mem htoken)

-- A text whose one item is a global is read alone as a local, and its places are put in later.
theorem readAlone_of_parse {text : List Char} {fuel depth : Nat} {declared : VariableTree}
    (hone : OneDeclaration (lex text))
    (hparse : parse text fuel depth = .ok ⟨[.Global declared], #[]⟩) :
    ∃ bare, ReadAlone ((lex text).map Token.lexeme) bare ∧ declared = bare.relocate (edge text) := by
  rw [parse_numbered] at hparse
  cases hnumbered : parseTokens (numbered ((lex text).map Token.lexeme)) (2 * (lex text).length)
      fuel depth with
  | error reason =>
      rw [hnumbered] at hparse
      cases hparse
  | ok parsed =>
      rw [hnumbered] at hparse
      obtain ⟨hitems, hdiagnostics⟩ := Parsed.mk.inj (Except.ok.inj hparse)
      obtain ⟨item, hitem, hrelocated⟩ := List.map_eq_singleton_iff.mp hitems
      have hsilent : parsed.diagnostics = #[] := Array.map_eq_empty_iff.mp hdiagnostics
      cases item with
      | Global bare =>
          refine ⟨bare, ?_, (Item.Global.inj hrelocated).symm⟩
          rw [← numbered_relocate text] at hone
          have hglobal : parsed = ⟨[.Global bare], #[]⟩ := by rw [← hitem, ← hsilent]
          rw [hglobal] at hnumbered
          obtain ⟨levels, looks, after, hrun, hrest, hnothing⟩ :=
            local_of_parseTokens hone.of_relocate hnumbered
          rw [← List.length_map Token.lexeme] at hrun
          exact ⟨levels, looks, depth, after, hrun, hrest, hnothing⟩
      | _ => cases hrelocated

namespace ReadAlone

variable {lexemes : List Lexeme} {declared : VariableTree}

theorem hasStop (h : ReadAlone lexemes declared) : HasStop (numbered lexemes) := by
  obtain ⟨levels, looks, depth, after, hrun, hrest, hsilent⟩ := h
  have hends : Finishes Anywhere (readLocal (readWithin levels)) := finishes_readLocal levels
  obtain ⟨⟨front, hstop, hfront⟩, _⟩ :=
    hends.ends _ _ _ _ ⟨rfl, rfl⟩ trivial hrun (not_noisy_of_nothing hsilent)
  rw [hrest, List.append_nil] at hfront
  exact show HasStop (ParseState.start (numbered lexemes) looks).rest from hfront ▸ hstop

theorem foreseen (h : ReadAlone lexemes declared) :
    declarationFrom (numbered lexemes) = declared.type.foreseen true := by
  obtain ⟨levels, looks, depth, after, hrun, _, hsilent⟩ := h
  rcases (foresees_readLocal levels _ _ _ _ _ hrun).2 ⟨rfl, rfl⟩ rfl with hloud | ⟨_, hseen⟩
  · exact absurd hloud (not_noisy_of_nothing hsilent)
  · exact hseen

-- Wherever the tokens stand, the type decides whether a declaration is seen there.
theorem seen {text : List Char} {before tokens behind : List Token}
    (h : ReadAlone (tokens.map Token.lexeme) declared)
    (hlex : lex text = before ++ tokens ++ behind) (more : List Token) :
    declarationFrom (tokens ++ more) = declared.type.foreseen true := by
  have hmoved := numbered_toPart hlex 0
  have hsame := sameAhead_relocate (Relocation.toPart text before.length 0).offset
    (numbered (tokens.map Token.lexeme))
  have hstop : HasStop tokens := by
    obtain ⟨token, hmem, hstops⟩ := h.hasStop
    rw [← hmoved]
    exact ⟨_, List.mem_map_of_mem hmem, hstops⟩
  rw [hmoved] at hsame
  calc
    declarationFrom (tokens ++ more) = declarationFrom tokens :=
      (declarationFrom_same (.append hstop more)).symm
    _ = declarationFrom (numbered (tokens.map Token.lexeme)) := (declarationFrom_same hsame).symm
    _ = declared.type.foreseen true := h.foreseen

-- Where the tokens stand in a text they are read in the same way, whatever follows them there.
theorem placed (h : ReadAlone lexemes declared) :
    ∃ levels looks depth last, ∀ text before tokens behind,
      lex text = before ++ tokens ++ behind → tokens.map Token.lexeme = lexemes →
      ∀ more textEnd taken, ∃ after, readLocal (readWithin levels) ⟨textEnd, depth⟩
          ⟨tokens ++ more, taken, 0, looks, 0, none, #[]⟩ =
          .ok (declared.relocate (Relocation.toPart text before.length 0).offset, after) ∧
        after.rest = more ∧ after.diagnostics = #[] ∧ after.depth = last := by
  obtain ⟨levels, looks, depth, after, hrun, hrest, hsilent⟩ := h
  refine ⟨levels, looks, depth, after.depth, ?_⟩
  rintro text before tokens behind hlex rfl more textEnd taken
  rw [List.length_map] at hrun
  have hmoves : Moves (Relocation.toPart text before.length taken) (readLocal (readWithin levels))
      (readLocal (readWithin levels)) := moves_readLocal (moves_readWithin levels)
  obtain ⟨_, moved, hmoved, hafter⟩ :=
    (hmoves _ _ _ _ (moved_numbered hlex looks depth taken)).2 _ _ hrun
  have hnothing : moved.diagnostics = #[] := by rw [hafter.diagnostics, hsilent, Array.map_empty]
  have hdone : moved.rest = [] := by rw [hafter.rest, hrest, List.map_nil]
  have hends : Finishes Anywhere (readLocal (readWithin levels)) := finishes_readLocal levels
  obtain ⟨_, hfollowed⟩ :=
    hends.ends _ _ _ _ ⟨rfl, rfl⟩ trivial hmoved (not_noisy_of_nothing hnothing)
  exact ⟨_, hfollowed textEnd more, congrArg (· ++ more) hdone, hnothing, hafter.depth⟩

end ReadAlone

-- What is read at the start of a text without a complaint is read deeper inside and on larger
-- budgets too, whatever was said before.
theorem reads_of_placed {low looks depth last : Nat} {tokens more : List Token}
    {declared : VariableTree}
    (hplaced : ∀ textEnd taken, ∃ after, readLocal (readWithin low) ⟨textEnd, depth⟩
        ⟨tokens, taken, 0, looks, 0, none, #[]⟩ = .ok (declared, after) ∧
      after.rest = more ∧ after.diagnostics = #[] ∧ after.depth = last)
    (hstarts : StartsType tokens) {levels : Nat} (hlevels : low ≤ levels) :
    Reads (looks + depth + last) (readLocal (readWithin levels)) tokens more (· = declared) := by
  rintro limits ⟨rest, taken, lastEnd, fuel, outer, lastComplaint, diagnostics⟩ hstate hfuel hroom
  obtain rfl : rest = tokens := hstate
  replace hfuel : looks + depth + last ≤ fuel := hfuel
  replace hroom : outer + (looks + depth + last) ≤ limits.depth := hroom
  obtain ⟨after, hrun, hrest, hnothing, hlast⟩ := hplaced limits.textEnd taken
  have hcalm : Calm outer (readLocal (readWithin low)) :=
    @Nearsighted.readLocal _ (stepwise_calm outer).toNearsighted _ (readWithin low)
      (readWithin_calm outer low)
  obtain ⟨depth', hdepth', hamid⟩ := hcalm.amid _ _ _ _ ⟨rfl, rfl⟩ hrun
    (not_noisy_of_nothing hnothing) (depth + outer) outer lastComplaint diagnostics (Nat.le_refl _)
    (Nat.le_add_left _ _)
  have hforgets := readLocal_forgets hstarts hamid lastEnd
  have hsteady : Steady (readLocal (readWithin low)) (readLocal (readWithin levels)) :=
    stepwise_steady.readLocal fun nonterminal => readWithin_steady hlevels nonterminal
  have hmore : readLocal (readWithin levels) limits
      ⟨rest, taken, lastEnd, looks + (fuel - looks), outer, lastComplaint, diagnostics⟩ = _ :=
    hsteady _ _ _ _ hforgets (fuel - looks) limits.depth (show depth + outer ≤ limits.depth by omega)
  rw [Nat.add_sub_cancel' (by omega : looks ≤ fuel)] at hmore
  refine ⟨_, _, hmore, rfl, hrest, ?_, ?_, rfl⟩
  · show fuel ≤ after.fuel + (fuel - looks) + (looks + depth + last)
    omega
  · show depth' ≤ outer + (looks + depth + last)
    omega

end EffectLint
