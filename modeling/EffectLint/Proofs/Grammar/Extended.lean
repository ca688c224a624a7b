import EffectLint.Grammar.Statement
import EffectLint.Proofs.Grammar.Stepwise

/-!
Reading in front of more tokens. What is read up to somewhere in front of a semicolon or a closing
brace does not depend on what comes behind that token. Looks further ahead than the next token go by
the kinds of the tokens and never past such a one, so tokens that are alike up to there are seen
alike.
-/

namespace EffectLint

def TokenKind.stops (kind : TokenKind) : Bool :=
  kind == .Sign .Semicolon || kind == .Sign .BraceClose

def HasStop (tokens : List Token) : Prop :=
  ∃ token ∈ tokens, token.kind.stops = true

namespace HasStop

variable {token : Token} {tokens tokens' : List Token}

theorem mono (h : HasStop tokens) (hsub : tokens ⊆ tokens') : HasStop tokens' := by
  obtain ⟨token, hmem, hstops⟩ := h
  exact ⟨token, hsub hmem, hstops⟩

theorem exists_cons (h : HasStop tokens) : ∃ token rest, tokens = token :: rest := by
  obtain ⟨token, hmem, _⟩ := h
  exact List.exists_cons_of_ne_nil (List.ne_nil_of_mem hmem)

theorem tail (h : HasStop (token :: tokens)) (htoken : token.kind.stops = false) : HasStop tokens := by
  obtain ⟨other, hmem, hstops⟩ := h
  rcases List.mem_cons.mp hmem with rfl | hmem
  · rw [htoken] at hstops
    cases hstops
  · exact ⟨other, hmem, hstops⟩

end HasStop

-- Tokens of the same kinds, up to a stop if there is one.
inductive SameAhead : List Token → List Token → Prop where
  | nil : SameAhead [] []
  | cons {token token' : Token} {rest rest' : List Token} (hkind : token.kind = token'.kind)
      (hrest : token.kind.stops = false → SameAhead rest rest') :
      SameAhead (token :: rest) (token' :: rest')

namespace SameAhead

variable {tokens tokens' : List Token}

theorem symm (h : SameAhead tokens tokens') : SameAhead tokens' tokens := by
  induction h with
  | nil => exact .nil
  | cons hkind _ ih => exact .cons hkind.symm fun hstops => ih (hkind ▸ hstops)

-- What stands behind a stop does not count.
theorem append (h : HasStop tokens) (more : List Token) : SameAhead tokens (tokens ++ more) := by
  induction tokens with
  | nil =>
      obtain ⟨_, _, hcons⟩ := h.exists_cons
      cases hcons
  | cons token rest ih => exact .cons rfl fun hstops => ih (h.tail hstops)

theorem head (h : SameAhead tokens tokens') :
    tokens.head?.map Token.kind = tokens'.head?.map Token.kind := by
  cases h with
  | nil => rfl
  | cons hkind _ => exact congrArg some hkind

theorem split {kind : TokenKind} {span : Span} {text : String} {rest : List Token}
    (h : SameAhead (⟨kind, span, text⟩ :: rest) tokens') :
    ∃ span' text' rest', tokens' = ⟨kind, span', text'⟩ :: rest' ∧
      (kind.stops = false → SameAhead rest rest') := by
  cases h with
  | @cons _ token' _ rest' hkind hrest =>
      obtain ⟨kind', span', text'⟩ := token'
      obtain rfl : kind = kind' := hkind
      exact ⟨span', text', rest', rfl, hrest⟩

end SameAhead

namespace Grammar

theorem declarationAhead_of_same (tokens : List Token) : ∀ tokens', SameAhead tokens tokens' →
    declarationAhead tokens = true → declarationAhead tokens' = true := by
  fun_induction declarationAhead tokens with
  | case1 _ _ rest ih =>
      intro tokens' h hahead
      obtain ⟨_, _, rest', rfl, hrest⟩ := h.split
      exact ih rest' (hrest rfl) hahead
  | case2 =>
      intro tokens' h _
      obtain ⟨_, _, _, rfl, _⟩ := h.split
      rfl
  | case3 =>
      intro tokens' h _
      obtain ⟨_, _, _, rfl, _⟩ := h.split
      rfl
  | case4 _ _ _ _ rest ih =>
      intro tokens' h hahead
      obtain ⟨_, _, _, rfl, hmore⟩ := h.split
      obtain ⟨_, _, rest', rfl, hrest⟩ := (hmore rfl).split
      exact ih rest' (hrest rfl) hahead
  | case5 _ _ _ _ _ _ rest ih =>
      intro tokens' h hahead
      obtain ⟨_, _, _, rfl, hname⟩ := h.split
      obtain ⟨_, _, _, rfl, hmore⟩ := (hname rfl).split
      obtain ⟨_, _, rest', rfl, hrest⟩ := (hmore rfl).split
      exact ih rest' (hrest rfl) hahead
  | case6 _ _ _ _ _ _ _ rest ih =>
      intro tokens' h hahead
      obtain ⟨_, _, _, rfl, hbasic⟩ := h.split
      obtain ⟨_, _, _, rfl, hmore⟩ := (hbasic rfl).split
      obtain ⟨_, _, rest', rfl, hrest⟩ := (hmore rfl).split
      exact ih rest' (hrest rfl) hahead
  | case7 =>
      intro tokens' h _
      obtain ⟨_, _, _, rfl, hmore⟩ := h.split
      obtain ⟨_, _, _, rfl, _⟩ := (hmore rfl).split
      rfl
  | case8 =>
      intro tokens' h _
      obtain ⟨_, _, _, rfl, hmore⟩ := h.split
      obtain ⟨_, _, _, rfl, _⟩ := (hmore rfl).split
      rfl
  | case9 => nofun

theorem declarationAhead_same {tokens tokens' : List Token} (h : SameAhead tokens tokens') :
    declarationAhead tokens = declarationAhead tokens' :=
  Bool.eq_iff_iff.mpr ⟨declarationAhead_of_same _ _ h, declarationAhead_of_same _ _ h.symm⟩

end Grammar

def ParseState.followedBy (state : ParseState) (more : List Token) : ParseState :=
  { state with rest := state.rest ++ more }

def Limits.until (limits : Limits) (textEnd : Nat) : Limits :=
  ⟨textEnd, limits.depth⟩

namespace Parse

theorem nextKind_followedBy {state : ParseState} (h : HasStop state.rest) (more : List Token) :
    nextKind (state.followedBy more).rest = nextKind state.rest := by
  obtain ⟨token, rest, hrest⟩ := h.exists_cons
  simp only [ParseState.followedBy, hrest, List.cons_append, nextKind]

theorem inspect_followedBy {state : ParseState} {fuel : Nat} (hfuel : state.fuel = fuel + 1)
    (h : HasStop state.rest) (limits : Limits) (textEnd : Nat) (more : List Token) :
    inspect (limits.until textEnd) (state.followedBy more) =
      .ok (nextKind state.rest, { state with fuel }.followedBy more) := by
  have hfuel' : (state.followedBy more).fuel = fuel + 1 := hfuel
  rw [inspect_of_fuel hfuel', nextKind_followedBy h]
  rfl

-- Tokens are only taken off the front, and more of them behind a stop that is left change nothing.
def Extends {α : Type} (body : Parse α) : Prop :=
  ∀ limits state result after, body limits state = .ok (result, after) →
    after.rest <:+ state.rest ∧ (HasStop after.rest → ∀ textEnd more,
      body (limits.until textEnd) (state.followedBy more) = .ok (result, after.followedBy more))

namespace Extends

variable {α β σ : Type}

theorem pure (result : α) : Extends (Pure.pure result) := by
  intro limits state found after hrun
  cases hrun
  exact ⟨List.suffix_rfl, fun _ _ _ => rfl⟩

theorem bind {first : Parse α} {next : α → Parse β} (hfirst : Extends first)
    (hnext : ∀ found, Extends (next found)) : Extends (first >>= next) := by
  intro limits state result after hrun
  obtain ⟨found, middle, hfound, hrest⟩ := of_bind hrun
  obtain ⟨hsuffix, hextends⟩ := hfirst limits state found middle hfound
  obtain ⟨hsuffix', hextends'⟩ := hnext found limits middle result after hrest
  refine ⟨hsuffix'.trans hsuffix, fun hstop textEnd more => ?_⟩
  rw [bind_of_ok (hextends (hstop.mono hsuffix'.subset) textEnd more)]
  exact hextends' hstop textEnd more

-- What only looks at tokens up to a stop.
theorem look {body : Parse α} (found : Limits → ParseState → α)
    (hrun : ∀ limits state, body limits state = .ok (found limits state, state))
    (hsame : ∀ limits state textEnd more, HasStop state.rest →
      found (limits.until textEnd) (state.followedBy more) = found limits state) : Extends body := by
  intro limits state result after hresult
  rw [hrun] at hresult
  cases hresult
  refine ⟨List.suffix_rfl, fun hstop textEnd more => ?_⟩
  rw [hrun, hsame limits state textEnd more hstop]

theorem here : Extends here := by
  apply look fun limits state => (state.rest.head?.map Token.span).getD (Span.emptyAt limits.textEnd)
  · intro limits state
    unfold Parse.here
    cases state.rest <;> rfl
  · intro limits state textEnd more hstop
    obtain ⟨token, rest, hrest⟩ := hstop.exists_cons
    simp only [ParseState.followedBy, hrest, List.cons_append, List.head?_cons, Option.map_some,
      Option.getD_some]

theorem since (start : Nat) : Extends (since start) :=
  look (fun _ state => ⟨start, max state.lastEnd start⟩) (fun _ _ => rfl) fun _ _ _ _ _ => rfl

theorem taken : Extends taken :=
  look (fun _ state => state.taken) (fun _ _ => rfl) fun _ _ _ _ _ => rfl

theorem atEnd : Extends atEnd := by
  apply look (fun _ state => state.rest.isEmpty) (fun _ _ => rfl)
  intro limits state textEnd more hstop
  obtain ⟨token, rest, hrest⟩ := hstop.exists_cons
  simp only [ParseState.followedBy, hrest, List.cons_append, List.isEmpty_cons]

theorem inspect : Extends inspect := by
  intro limits state result after hrun
  obtain ⟨fuel, hfuel, rfl, rfl⟩ := of_inspect hrun
  refine ⟨List.suffix_rfl, fun hstop textEnd more => ?_⟩
  exact inspect_followedBy hfuel hstop limits textEnd more

theorem take : Extends take := by
  intro limits state result after hrun
  rcases of_take hrun with ⟨hrest, rfl, rfl⟩ | ⟨token, rest, hrest, rfl, rfl⟩
  · refine ⟨List.suffix_rfl, fun hstop => ?_⟩
    obtain ⟨_, _, hcons⟩ := hstop.exists_cons
    rw [hrest] at hcons
    cases hcons
  · refine ⟨hrest ▸ List.suffix_cons token rest, fun _ textEnd more => ?_⟩
    have hmore : (state.followedBy more).rest = token :: (rest ++ more) := by
      rw [ParseState.followedBy, hrest, List.cons_append]
    rw [take_of_cons hmore]
    rfl

theorem complain (diagnostic : Diagnostic) : Extends (complain diagnostic) := by
  intro limits state result after hrun
  rcases of_complain hrun with ⟨hsame, rfl⟩ | ⟨hother, rfl⟩
  · exact ⟨List.suffix_rfl, fun _ textEnd more => if_pos hsame⟩
  · exact ⟨List.suffix_rfl, fun _ textEnd more => if_neg hother⟩

theorem report (diagnostic : Diagnostic) : Extends (report diagnostic) := by
  intro limits state result after hrun
  cases hrun
  exact ⟨List.suffix_rfl, fun _ _ _ => rfl⟩

theorem enter : Extends enter := by
  intro limits state result after hrun
  obtain ⟨hroom, rfl⟩ := of_enter hrun
  exact ⟨List.suffix_rfl, fun _ textEnd more => if_neg (Nat.not_le_of_lt hroom)⟩

theorem leave : Extends leave := by
  intro limits state result after hrun
  cases hrun
  exact ⟨List.suffix_rfl, fun _ _ _ => rfl⟩

theorem restoringDepth {body : Parse α} (h : Extends body) : Extends (restoringDepth body) := by
  intro limits state result after hrun
  obtain ⟨middle, hbody, rfl⟩ := of_restoringDepth hrun
  obtain ⟨hsuffix, hextends⟩ := h limits state result middle hbody
  refine ⟨hsuffix, fun hstop textEnd more => ?_⟩
  rw [restoringDepth_of_ok (hextends hstop textEnd more)]
  rfl

theorem rounds (first : σ) {round : σ → Parse (Round σ α)} (hround : ∀ state, Extends (round state)) :
    Extends (rounds first round) := by
  have hrounds : ∀ bound first, Extends (roundsAtMost round bound first) := by
    intro bound
    induction bound with
    | zero => exact fun first _ _ _ _ hrun => nomatch hrun
    | succ bound ih =>
        intro first
        refine (hround first).bind fun found => ?_
        cases found with
        | Again next => exact ih next
        | Done result => exact .pure result
  exact fun limits state => hrounds (state.fuel + 1) first limits state

end Extends

-- The same where the next token has the given kind.
def ExtendsAt {α : Type} (next : Option TokenKind) (body : Parse α) : Prop :=
  ∀ limits state result after, nextKind state.rest = next → body limits state = .ok (result, after) →
    after.rest <:+ state.rest ∧ (HasStop after.rest → ∀ textEnd more,
      body (limits.until textEnd) (state.followedBy more) = .ok (result, after.followedBy more))

theorem Extends.at {α : Type} {body : Parse α} (h : Extends body) (next : Option TokenKind) :
    ExtendsAt next body :=
  fun limits state result after _ => h limits state result after

theorem ExtendsAt.inspect {α : Type} {next : Option TokenKind → Parse α}
    (hnext : ∀ found, ExtendsAt found (next found)) : Extends (Parse.inspect >>= next) := by
  intro limits state result after hrun
  obtain ⟨found, middle, hfound, hrest⟩ := of_bind hrun
  obtain ⟨fuel, hfuel, rfl, rfl⟩ := of_inspect hfound
  obtain ⟨hsuffix, hextends⟩ := hnext _ limits { state with fuel } result after rfl hrest
  refine ⟨hsuffix, fun hstop textEnd more => ?_⟩
  rw [bind_of_ok (inspect_followedBy hfuel (hstop.mono hsuffix.subset) limits textEnd more)]
  exact hextends hstop textEnd more

-- Behind a token that is no stop, what is seen up to a stop does not change.
theorem ExtendsAt.beyond {α : Type} {kind : TokenKind} {seen : List Token → α}
    (hkind : kind.stops = false)
    (hseen : ∀ tokens tokens', SameAhead tokens tokens' → seen tokens = seen tokens') :
    ExtendsAt (some kind) (Parse.beyond >>= fun tokens => Pure.pure (seen tokens)) := by
  intro limits state result after hnext hrun
  cases hrun
  refine ⟨List.suffix_rfl, fun hstop textEnd more => ?_⟩
  obtain ⟨token, rest, hrest⟩ := hstop.exists_cons
  rw [hrest] at hnext hstop
  obtain rfl : token.kind = kind := Option.some.inj hnext
  have hsame := hseen _ _ (SameAhead.append (hstop.tail hkind) more)
  show Except.ok (seen (state.rest ++ more).tail, _) = Except.ok (seen state.rest.tail, _)
  rw [hrest, List.cons_append, List.tail_cons, List.tail_cons, ← hsame]

theorem extends_readConnective : Extends Grammar.readConnective := by
  apply ExtendsAt.inspect
  intro next
  split
  case h_4 =>
    have hbranch : ∀ tokens : List Token,
        (if tokens.head?.map Token.kind == some (.Word .Is) then
          pure (some (.Value .NotIdentical)) else pure none : Parse (Option Connective)) =
        pure (if tokens.head?.map Token.kind == some (.Word .Is) then
          some (.Value .NotIdentical) else none) :=
      fun tokens => (apply_ite pure _ _ _).symm
    simp only [hbranch]
    refine .beyond rfl fun tokens tokens' hsame => ?_
    rw [hsame.head]
  all_goals exact (Extends.pure _).at _

theorem extends_looksLikeDeclaration : Extends Grammar.looksLikeDeclaration := by
  apply ExtendsAt.inspect
  intro next
  split
  · exact (Extends.pure _).at _
  · exact .beyond rfl fun _ _ => Grammar.declarationAhead_same
  · exact (Extends.pure _).at _

theorem climbing_extends : Climbing (fun {_} body _ => Extends body) where
  pure := .pure
  bind := .bind
  here := .here
  since := .since
  atEnd := .atEnd
  taken := .taken
  inspect := .inspect
  take := .take
  report diagnostic _ := .report diagnostic
  complain diagnostic _ := .complain diagnostic
  enter := .enter
  leave := .leave
  restoringDepth := .restoringDepth
  rounds first _ _ := .rounds first
  readConnective := extends_readConnective
  looksLikeDeclaration := extends_looksLikeDeclaration

end Parse

open Parse

theorem Grammar.readWithin_extends (levels : Nat) (nonterminal : Nonterminal) :
    Extends (Grammar.readWithin levels nonterminal) :=
  climbing_extends.readWithin (fun _ _ _ _ _ hrun => nomatch hrun) (Nat.le_refl levels) nonterminal

theorem Grammar.read_extends (nonterminal : Nonterminal) : Extends (Grammar.read nonterminal) :=
  fun limits state =>
    Grammar.readWithin_extends (Grammar.nesting state.fuel) nonterminal limits state

end EffectLint
