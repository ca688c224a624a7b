import EffectLint.Proofs.Grammar.Concatenated
import EffectLint.Proofs.Grammar.Foreseen
import EffectLint.Proofs.Grammar.PlacedType

/-!
A text that is one declaration. The tokens that a global is read from are read as a local in the
same way: what is looked for in a global alone is not there, and costs nothing but fuel.
-/

namespace EffectLint

open Parse Grammar

abbrev StartsType (tokens : List Token) : Prop :=
  TokenKind.startsType (nextKind tokens) = true

theorem StartsType.exists_cons {tokens : List Token} (h : StartsType tokens) :
    ∃ token rest, tokens = token :: rest ∧ TokenKind.startsType (some token.kind) = true := by
  cases tokens with
  | nil => cases h
  | cons token rest => exact ⟨token, rest, rfl, h⟩

-- The tokens start like a type, and there is no semicolon among them but the last one.
structure OneDeclaration (tokens : List Token) : Prop where
  starts : StartsType tokens
  ends : ∀ token ∈ tokens.dropLast, token.kind ≠ .Sign .Semicolon

namespace Parse

variable {limits : Limits} {state after : ParseState}

theorem of_here {span : Span} (hrun : here limits state = .ok (span, after)) : after = state := by
  unfold here at hrun
  split at hrun <;> cases hrun <;> rfl

theorem of_isAt {kind : TokenKind} {found : Bool}
    (hrun : isAt kind limits state = .ok (found, after)) :
    ∃ fuel, state.fuel = fuel + 1 ∧ found = (nextKind state.rest == some kind) ∧
      after = { state with fuel } := by
  obtain ⟨next, middle, hnext, hlast⟩ := of_bind hrun
  obtain ⟨fuel, hfuel, rfl, rfl⟩ := of_inspect hnext
  cases hlast
  exact ⟨fuel, hfuel, rfl, rfl⟩

theorem of_eat_other {kind : TokenKind} {found : Bool}
    (hrun : eat kind limits state = .ok (found, after)) (hother : nextKind state.rest ≠ some kind) :
    ∃ fuel, state.fuel = fuel + 1 ∧ found = false ∧ after = { state with fuel } := by
  obtain ⟨isNext, middle, hnext, hlast⟩ := of_bind hrun
  obtain ⟨fuel, hfuel, rfl, rfl⟩ := of_isAt hnext
  rw [if_neg (by simpa using hother)] at hlast
  cases hlast
  exact ⟨fuel, hfuel, rfl, rfl⟩

-- What is left is the end of what was there.
theorem Plain.within {α : Type} {body : Parse α} (h : Plain body) (tokens : List Token) :
    Ensures (· <:+ tokens) body fun _ => (· <:+ tokens) := by
  intro limits state result after hrun
  obtain ⟨hkept, hquiet⟩ := h.candid limits state result after hrun
  refine ⟨hkept, fun hstate hrest => (hquiet hstate trivial).imp_right fun ⟨hafter, _⟩ => ?_⟩
  exact ⟨hafter, (h.extended limits state result after hrun).1.trans hrest⟩

theorem ensures_eat (kind : TokenKind) (tokens : List Token) :
    Ensures (· <:+ tokens) (eat kind) fun found rest =>
      if found = true then ∃ token, token.kind = kind ∧ token :: rest <:+ tokens
      else rest <:+ tokens := by
  refine (Ensures.isAt kind).bind fun found => ?_
  cases found with
  | true =>
      have hskip : Ensures (fun rest => rest <:+ tokens ∧ nextKind rest = some kind) skip
          fun _ rest => ∃ token, token.kind = kind ∧ token :: rest <:+ tokens :=
        .skip (fun token _ h => ⟨token, Option.some.inj h.2, h.1⟩) fun h => nomatch h.2
      exact hskip.bind fun _ => .pure fun _ h => h
  | false => exact .pure fun _ h => h

-- Without a complaint the semicolon that is expected is there.
theorem ensures_expectSemicolon (tokens : List Token) :
    Ensures (· <:+ tokens) expectSemicolon fun _ rest =>
      ∃ token, token.kind = .Sign .Semicolon ∧ token :: rest <:+ tokens := by
  refine (ensures_eat _ tokens).bind fun found => ?_
  cases found with
  | true => exact .pure fun _ h => h
  | false =>
      have hsaid : Ensures (· <:+ tokens) (do
          complain (.plain .ExpectedSemicolon (← here))
          recoverStatement) fun _ _ => False :=
        Ensures.here.bind fun _ => (Ensures.complain rfl).bind fun _ =>
          stepwise_kept.recoverStatement.ensures fun _ => id
      exact hsaid.weaken (fun _ h => h) fun _ _ h => h.elim

end Parse

namespace Grammar

variable {limits : Limits} {state after : ParseState}

-- In front of a type there are no promises.
theorem of_readPromises {promises : Promises} (hstarts : StartsType state.rest)
    (hrun : readPromises limits state = .ok (promises, after)) :
    ∃ fuel, state.fuel = fuel + 2 ∧ after = { state with fuel } := by
  have hother : ∀ keyword, nextKind state.rest ≠ some (.Word keyword) := by
    intro keyword hword
    rw [StartsType, hword] at hstarts
    cases hstarts
  obtain ⟨round, middle, hround, hlast⟩ := of_bind hrun
  obtain ⟨isPure, first, hpure, hround⟩ := of_bind hround
  obtain ⟨fuel, hfuel, rfl, rfl⟩ := of_eat_other hpure (hother .Pure)
  obtain ⟨isNothrow, second, hnothrow, hround⟩ := of_bind hround
  obtain ⟨left, hleft, rfl, rfl⟩ := of_eat_other hnothrow (hother .Nothrow)
  cases hround
  cases hlast
  exact ⟨left, hfuel.trans (congrArg (· + 1) hleft), rfl⟩

theorem of_readFunction {start : Nat} {leading : Promises} {result : TypeTree} {name : Name}
    {item : Item}
    (hrun : readFunction start leading result name limits state = .ok (item, after)) :
    ∃ declared, item = .Function declared := by
  obtain ⟨parameters, _, _, hrun⟩ := of_bind hrun
  obtain ⟨promises, _, _, hrun⟩ := of_bind hrun
  obtain ⟨isBody, _, _, hrun⟩ := of_bind hrun
  split at hrun
  · obtain ⟨body, _, _, hrun⟩ := of_bind hrun
    cases hrun
    exact ⟨_, rfl⟩
  · obtain ⟨_, _, _, hrun⟩ := of_bind hrun
    cases hrun
    exact ⟨_, rfl⟩

-- An initial value is one nonterminal at most, so it is read with some number of levels.
theorem readInitialValue_within {value : Option Expr}
    (hrun : readInitialValue read limits state = .ok (value, after)) :
    ∃ levels, readInitialValue (readWithin levels) limits state = .ok (value, after) := by
  obtain ⟨found, middle, hfound, hlast⟩ := of_bind hrun
  refine ⟨nesting middle.fuel, (bind_of_ok hfound).trans ?_⟩
  cases found with
  | true =>
      rw [if_pos rfl, map_eq_pure_bind] at hlast ⊢
      obtain ⟨result, last, hvalue, hsome⟩ := of_bind hlast
      have hwithin : readWithin (nesting middle.fuel) .Assignment limits middle =
          .ok (result, last) := hvalue
      exact (bind_of_ok hwithin).trans hsome
  | false =>
      rw [if_neg Bool.false_ne_true] at hlast ⊢
      exact hlast

theorem readLocal_of_readDeclaration {declared : VariableTree}
    (hstarts : StartsType state.rest)
    (hrun : readDeclaration limits state = .ok (some (.Global declared), after)) :
    ∃ levels, readLocal (readWithin levels) limits state =
      .ok (declared, { after with fuel := after.fuel + 3 }) := by
  have steps := stepwise_steady
  obtain ⟨start, first, hhere, hpromised⟩ := of_bind hrun
  obtain rfl := of_here hhere
  obtain ⟨leading, second, hleading, htyped⟩ := of_bind hpromised
  obtain ⟨fuel, hfuel, rfl⟩ := of_readPromises hstarts hleading
  obtain ⟨type, third, htype, hnamed⟩ := of_bind htyped
  obtain ⟨found, fourth, hname, hbehind⟩ := of_bind hnamed
  cases found with
  | none =>
      obtain ⟨_, _, _, hnone⟩ := of_bind hbehind
      cases hnone
  | some name =>
      obtain ⟨isCall, fifth, hcall, hkind⟩ := of_bind hbehind
      obtain ⟨fuel', hfuel', -, rfl⟩ := of_isAt hcall
      cases isCall with
      | true =>
          obtain ⟨item, last, hfunction, hitem⟩ := of_bind hkind
          obtain ⟨function, rfl⟩ := of_readFunction hfunction
          cases hitem
      | false =>
          obtain ⟨value, sixth, hvalue, hended⟩ := of_bind hkind
          obtain ⟨_, last, hsemicolon, hlast⟩ := of_bind hended
          cases hlast
          obtain ⟨low, hvalue⟩ := readInitialValue_within hvalue
          have hvalued : Steady (readInitialValue (readWithin low))
              (readInitialValue (readWithin (max (nesting fuel) low))) :=
            steps.readInitialValue fun nonterminal =>
              readWithin_steady (Nat.le_max_right _ _) nonterminal
          have htyped := readWithin_steady (Nat.le_max_left (nesting fuel) low) .Type
          have hsame : { first with fuel := fuel + 2 } = first := by rw [← hfuel]
          have hsame' :
              { fourth with fuel := fuel' + 3 } = { fourth with fuel := fourth.fuel + 2 } := by
            rw [hfuel']
          -- two looks are made up for before the type, and the one at a parenthesis behind the name
          have htype' := htyped _ _ _ _ htype 2 limits.depth (Nat.le_refl _)
          have hname' := steps.expectName _ _ _ _ hname 2 limits.depth (Nat.le_refl _)
          have hvalue' := hvalued _ _ _ _ hvalue 3 limits.depth (Nat.le_refl _)
          have hended := steps.expectSemicolon _ _ _ _ hsemicolon 3 limits.depth (Nat.le_refl _)
          rw [hsame] at htype'
          rw [hsame'] at hvalue'
          refine ⟨max (nesting fuel) low, ?_⟩
          calc
            readLocal (readWithin (max (nesting fuel) low)) limits first = _ := bind_of_ok hhere
            _ = _ := bind_of_ok htype'
            _ = _ := bind_of_ok hname'
            _ = _ := bind_of_ok rfl
            _ = _ := bind_of_ok hvalue'
            _ = _ := bind_of_ok hended
            _ = _ := rfl

theorem of_readItem {item : Option Item} (hstarts : StartsType state.rest)
    (hrun : readItem limits state = .ok (item, after)) :
    ∃ fuel, readDeclaration limits { state with fuel } = .ok (item, after) := by
  obtain ⟨next, middle, hnext, hitem⟩ := of_bind hrun
  obtain ⟨fuel, _, rfl, rfl⟩ := of_inspect hnext
  refine ⟨fuel, ?_⟩
  cases hkind : nextKind state.rest with
  | none =>
      rw [StartsType, hkind] at hstarts
      cases hstarts
  | some kind =>
      rw [hkind] at hitem
      cases kind with
      | Basic type => exact hitem
      | Identifier => exact hitem
      | _ =>
          rw [StartsType, hkind] at hstarts
          cases hstarts

-- A declaration that is read without a complaint has a name and is an item.
theorem isSome_readDeclaration :
    Ensures Anywhere readDeclaration fun found _ => found.isSome = true := by
  have steps := stepwise_candid
  have hvalue : Candid (readInitialValue read) :=
    @Nearsighted.readInitialValue _ steps.toNearsighted read read read_candid
  refine steps.here.bind fun start => steps.readPromises.bind fun leading =>
    (read_candid .Type).bind fun type => Ensures.expectName.bind fun found => ?_
  cases found with
  | none =>
      have hkept : Kept (recoverItem >>= fun _ => pure (none : Option Item)) :=
        stepwise_kept.recoverItem.bind fun _ => stepwise_kept.pure _
      exact hkept.ensures fun _ h => nomatch h.1
  | some name =>
      have hfunction := steps.readFunction read_candid start.start leading type name
      refine ((steps.isAt _).weaken (fun _ _ => trivial) fun _ _ h => h).bind fun isCall => .either
        (hfunction.bind fun item => .pure fun _ _ => rfl)
        (hvalue.bind fun value => steps.expectSemicolon.bind fun _ => (steps.since _).bind fun _ =>
          .pure fun _ _ => rfl)

theorem prefix_of_readItemRounds {items found : Array Item} (bound : Nat)
    (hrun : roundsAtMost readItemRound bound items limits state = .ok (found, after)) :
    items.toList <+: found.toList := by
  induction bound generalizing items state with
  | zero => cases hrun
  | succ bound ih =>
      by_cases hrest : state.rest = []
      · rw [roundsAtMost_done (readItemRound_done hrest)] at hrun
        cases hrun
        exact List.prefix_rfl
      · cases hitem : takeItem limits state with
        | error reason =>
            rw [roundsAtMost_error (readItemRound_error hrest hitem)] at hrun
            cases hrun
        | ok item =>
            rw [roundsAtMost_again (readItemRound_again hrest hitem)] at hrun
            refine List.IsPrefix.trans ?_ (ih hrun)
            cases item.1 with
            | none => exact List.prefix_rfl
            | some item => exact Array.toList_push ▸ List.prefix_append _ _

end Grammar

-- A declaration that is read without a complaint ends with a semicolon.
theorem Grammar.ensures_readLocal (levels : Nat) (tokens : List Token) :
    Ensures (· <:+ tokens) (readLocal (readWithin levels)) fun _ rest =>
      ∃ token, token.kind = .Sign .Semicolon ∧ token :: rest <:+ tokens := by
  have steps := climbing_plain
  have hvalue := plain_readInitialValue (readWithin_plain levels)
  have hbehind : ∀ (start : Nat) (type : TypeTree) (name : Name), Ensures (· <:+ tokens) (do
      let value ← readInitialValue (readWithin levels)
      expectSemicolon
      return (⟨← since start, type, name, value⟩ : VariableTree)) fun _ rest =>
        ∃ token, token.kind = .Sign .Semicolon ∧ token :: rest <:+ tokens := by
    intro start type name
    refine (hvalue.within tokens).bind fun value => (ensures_expectSemicolon tokens).bind fun _ => ?_
    exact (Ensures.since start).bind fun _ => .pure fun _ h => h
  refine (steps.here.within tokens).bind fun start =>
    ((readWithin_plain levels .Type).within tokens).bind fun type =>
    (steps.expectName.within tokens).bind fun found => ?_
  cases found with
  | some name => exact hbehind start.start type name
  | none => exact (steps.here.within tokens).bind fun span => hbehind start.start type ⟨"", span⟩

-- The one item of the text is read by one declaration, which takes all of the tokens.
theorem local_of_parseTokens {tokens : List Token} {textEnd fuel depth : Nat}
    {declared : VariableTree} (hone : OneDeclaration tokens)
    (hparse : parseTokens tokens textEnd fuel depth = .ok ⟨[.Global declared], #[]⟩) :
    ∃ levels looks after, readLocal (readWithin levels) ⟨textEnd, depth⟩ (.start tokens looks) =
      .ok (declared, after) ∧ after.rest = [] ∧ after.diagnostics = #[] := by
  obtain ⟨found, last, hrun, hparsed⟩ := rounds_of_parseTokens hparse
  obtain ⟨hfound, hsilent⟩ := Parsed.mk.inj hparsed
  have hrest : (ParseState.start tokens fuel).rest ≠ [] := by
    obtain ⟨_, _, rfl, _⟩ := hone.starts.exists_cons
    exact List.cons_ne_nil _ _
  have hquiet : Quiet (.start tokens fuel) := ⟨rfl, rfl⟩
  cases hitem : takeItem ⟨textEnd, depth⟩ (.start tokens fuel) with
  | error reason =>
      rw [roundsAtMost_error (readItemRound_error hrest hitem)] at hrun
      cases hrun
  | ok item =>
      obtain ⟨item, after⟩ := item
      rw [roundsAtMost_again (readItemRound_again hrest hitem)] at hrun
      have hnoisy : ¬Noisy after := fun h =>
        not_noisy_of_nothing hsilent.symm ((kept_readItemRounds fuel _ _ _ _ _ hrun).1 h)
      obtain ⟨hread, _⟩ := readItem_of_takeItem hrest hquiet hitem hnoisy
      obtain ⟨hquiet', _⟩ := takeItem_followed hrest hquiet hitem hnoisy
      obtain ⟨looks, hdeclaration⟩ := of_readItem hone.starts hread
      have hsome : item.isSome = true :=
        ((isSome_readDeclaration _ _ _ _ hdeclaration).2 ⟨rfl, rfl⟩ trivial).elim
          (fun hloud => absurd hloud hnoisy) And.right
      obtain ⟨item, rfl⟩ := Option.isSome_iff_exists.mp hsome
      obtain rfl : item = .Global declared := by
        have hfirst : [item] <+: found.toList := prefix_of_readItemRounds fuel hrun
        rw [← hfound] at hfirst
        exact (List.cons_prefix_cons.mp hfirst).1
      obtain ⟨levels, hlocal⟩ := readLocal_of_readDeclaration hone.starts hdeclaration
      refine ⟨levels, looks, _, hlocal, ?_, hquiet'.unreported⟩
      obtain ⟨token, hkind, front, hfront⟩ : ∃ token, token.kind = .Sign .Semicolon ∧
          token :: after.rest <:+ tokens :=
        ((ensures_readLocal levels tokens _ _ _ _ hlocal).2 ⟨rfl, rfl⟩ List.suffix_rfl).elim
          (fun hloud => absurd hloud hnoisy) And.right
      by_contra hleft
      refine hone.ends token ?_ hkind
      rw [← hfront, List.append_cons, List.dropLast_append_of_ne_nil hleft]
      exact List.mem_append_left _ (List.mem_append_right _ (List.mem_singleton_self token))

end EffectLint
