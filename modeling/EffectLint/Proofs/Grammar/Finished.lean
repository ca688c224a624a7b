import EffectLint.Proofs.Grammar.Clean
import EffectLint.Proofs.Grammar.Counted
import EffectLint.Proofs.Grammar.Extended

/-!
Items that are read without a complaint. Each ends behind a semicolon or a closing brace of its
own, so what comes behind it plays no part in how it is read.
-/

namespace EffectLint

namespace Parse

def Anywhere : List Token → Prop :=
  fun _ => True

def Candid {α : Type} (body : Parse α) : Prop :=
  Ensures Anywhere body fun _ => Anywhere

-- Steps that extend and keep silent about nothing.
structure Plain {α : Type} (body : Parse α) : Prop where
  extended : Extends body
  candid : Candid body

-- Without a complaint the last token taken is a stop, and tokens behind it change nothing.
structure Finishes {α : Type} (before : List Token → Prop) (body : Parse α) : Prop where
  ensures : Ensures before body fun _ => Anywhere
  ends : ∀ limits state result after, Quiet state → before state.rest →
    body limits state = .ok (result, after) → ¬Noisy after →
      (∃ front, HasStop front ∧ state.rest = front ++ after.rest) ∧ ∀ textEnd more,
        body (limits.until textEnd) (state.followedBy more) = .ok (result, after.followedBy more)

-- What leaves the state alone and does not go by the tokens.
def Idle {α : Type} (body : Parse α) : Prop :=
  ∀ limits state, ∃ result, body limits state = .ok (result, state) ∧ ∀ textEnd more,
    body (limits.until textEnd) (state.followedBy more) = .ok (result, state.followedBy more)

theorem Candid.rounds {σ α : Type} (first : σ) {round : σ → Parse (Round σ α)}
    (hround : ∀ state, Candid (round state)) : Candid (rounds first round) :=
  Ensures.rounds (fun _ => Anywhere) fun state =>
    (hround state).weaken (fun _ h => h) fun found _ _ => by cases found <;> trivial

theorem stepwise_candid : Stepwise (fun {_} body _ => Candid body) where
  pure _ := .pure fun _ h => h
  bind hfirst hnext := hfirst.bind hnext
  glance _ := .unchanged fun _ _ => ⟨_, rfl⟩
  inspect := Ensures.inspect.weaken (fun _ h => h) fun _ _ h => h.1
  take := .take (fun _ _ h => h) fun h => h
  report _ herror := (Ensures.report herror).weaken (fun _ h => h) fun _ _ h => h.elim
  complain _ herror := (Ensures.complain herror).weaken (fun _ h => h) fun _ _ h => h.elim
  enter := .enter
  leave := .leave
  restoringDepth h := h.restoringDepth
  rounds first _ _ hround := .rounds first hround

theorem climbing_plain : Climbing (fun {_} body _ => Plain body) where
  pure result := ⟨.pure result, .pure fun _ h => h⟩
  bind hfirst hnext := ⟨hfirst.extended.bind fun found => (hnext found).extended,
    hfirst.candid.bind fun found => (hnext found).candid⟩
  here := ⟨.here, stepwise_candid.here⟩
  since start := ⟨.since start, stepwise_candid.since start⟩
  atEnd := ⟨.atEnd, stepwise_candid.atEnd⟩
  taken := ⟨.taken, stepwise_candid.taken⟩
  inspect := ⟨.inspect, stepwise_candid.inspect⟩
  take := ⟨.take, stepwise_candid.take⟩
  report _ herror := ⟨.report _, stepwise_candid.report _ herror⟩
  complain _ herror := ⟨.complain _, stepwise_candid.complain _ herror⟩
  enter := ⟨.enter, .enter⟩
  leave := ⟨.leave, .leave⟩
  restoringDepth h := ⟨h.extended.restoringDepth, h.candid.restoringDepth⟩
  rounds first _ _ hround := ⟨.rounds first fun state => (hround state).extended,
    .rounds first fun state => (hround state).candid⟩
  readConnective := ⟨extends_readConnective, stepwise_candid.readConnective⟩
  looksLikeDeclaration := ⟨extends_looksLikeDeclaration, stepwise_candid.looksLikeDeclaration⟩

theorem idle_pure {α : Type} (result : α) : Idle (pure result) :=
  fun _ _ => ⟨result, rfl, fun _ _ => rfl⟩

theorem idle_since {α : Type} (start : Nat) (node : Span → α) :
    Idle (do return node (← since start)) :=
  fun _ state => ⟨node ⟨start, max state.lastEnd start⟩, rfl, fun _ _ => rfl⟩

namespace Finishes

variable {α β : Type} {before : List Token → Prop}

-- What is in front reaches up to the stop of what comes behind.
theorem bind {mid : α → List Token → Prop} {first : Parse α} {next : α → Parse β}
    (hfirst : Extends first) (hmid : Ensures before first mid)
    (hnext : ∀ found, Finishes (mid found) (next found)) : Finishes before (first >>= next) := by
  refine ⟨hmid.bind fun found => (hnext found).ensures, ?_⟩
  intro limits state result after hquiet hbefore hrun hnoisy
  obtain ⟨found, middle, hfound, hlast⟩ := of_bind hrun
  have hkept := (hnext found).ensures limits middle result after hlast
  rcases (hmid limits state found middle hfound).2 hquiet hbefore with hloud | ⟨hquiet', hmiddle⟩
  · exact absurd (hkept.1 hloud) hnoisy
  · obtain ⟨⟨front, hstop, hrest⟩, hmore⟩ :=
      (hnext found).ends limits middle result after hquiet' hmiddle hlast hnoisy
    obtain ⟨⟨skipped, hskipped⟩, hextends⟩ := hfirst limits state found middle hfound
    refine ⟨⟨skipped ++ front, hstop.mono (List.subset_append_right _ _), ?_⟩, ?_⟩
    · rw [List.append_assoc, ← hrest, hskipped]
    · intro textEnd more
      have hleft : HasStop middle.rest := by
        rw [hrest]
        exact hstop.mono (List.subset_append_left _ _)
      rw [bind_of_ok (hextends hleft textEnd more)]
      exact hmore textEnd more

theorem plain {first : Parse α} {next : α → Parse β} (hfirst : Plain first)
    (hnext : ∀ found, Finishes Anywhere (next found)) : Finishes before (first >>= next) :=
  bind hfirst.extended (hfirst.candid.weaken (fun _ _ => trivial) fun _ _ h => h) hnext

theorem idle {body : Parse α} {next : α → Parse β} (hbody : Finishes before body)
    (hnext : ∀ found, Idle (next found)) : Finishes before (body >>= next) := by
  have hstill : ∀ found, Ensures Anywhere (next found) fun _ => Anywhere := fun found =>
    .unchanged fun limits state => (hnext found limits state).imp fun _ h => h.1
  refine ⟨hbody.ensures.bind hstill, ?_⟩
  intro limits state result after hquiet hbefore hrun hnoisy
  obtain ⟨found, middle, hfound, hnext'⟩ := of_bind hrun
  obtain ⟨last, hlast, hmore⟩ := hnext found limits middle
  rw [hlast] at hnext'
  cases hnext'
  obtain ⟨hends, hextends⟩ := hbody.ends limits state found after hquiet hbefore hfound hnoisy
  refine ⟨hends, fun textEnd more => ?_⟩
  rw [bind_of_ok (hextends textEnd more)]
  exact hmore textEnd more

-- Nothing is claimed where there is a complaint.
theorem complaining {body : Parse α} (h : Ensures before body fun _ _ => False) :
    Finishes before body := by
  refine ⟨h.weaken (fun _ h => h) fun _ _ h => h.elim, ?_⟩
  intro limits state result after hquiet hbefore hrun hnoisy
  rcases (h limits state result after hrun).2 hquiet hbefore with hloud | ⟨_, hfalse⟩
  · exact absurd hloud hnoisy
  · exact hfalse.elim

theorem weaken {before' : List Token → Prop} {body : Parse α} (h : Finishes before body)
    (hbefore : ∀ rest, before' rest → before rest) : Finishes before' body :=
  ⟨h.ensures.weaken hbefore fun _ _ h => h, fun limits state result after hquiet hrest =>
    h.ends limits state result after hquiet (hbefore _ hrest)⟩

theorem impossible {body : Parse α} (h : Kept body) (hbefore : ∀ rest, ¬before rest) :
    Finishes before body :=
  complaining (h.ensures hbefore)

theorem choose {condition : Prop} [Decidable condition] {yes no : Parse α}
    (hyes : condition → Finishes before yes) (hno : ¬condition → Finishes before no) :
    Finishes before (if condition then yes else no) := by
  by_cases h : condition
  · rw [if_pos h]
    exact hyes h
  · rw [if_neg h]
    exact hno h

theorem skip {kind : TokenKind} (hkind : kind.stops = true) :
    Finishes (fun rest => nextKind rest = some kind) skip := by
  refine ⟨.skip (fun _ _ _ => trivial) fun _ => trivial, ?_⟩
  intro limits state result after _ hnext hrun _
  have hrest : ∃ token rest, state.rest = token :: rest ∧ token.kind = kind := by
    cases hrest : state.rest with
    | nil =>
        rw [hrest] at hnext
        cases hnext
    | cons token rest =>
        rw [hrest] at hnext
        exact ⟨token, rest, rfl, Option.some.inj hnext⟩
  obtain ⟨token, rest, hrest, rfl⟩ := hrest
  have hskip : ∀ limits state rest, ParseState.rest state = token :: rest →
      Parse.skip limits state =
        .ok ((), { state with rest, taken := state.taken + 1, lastEnd := token.span.stop }) := by
    intro limits state rest hrest
    exact bind_of_ok (take_of_cons hrest)
  rw [hskip limits state rest hrest] at hrun
  cases hrun
  refine ⟨⟨[token], ⟨token, List.mem_singleton_self _, hkind⟩, hrest⟩, fun textEnd more => ?_⟩
  have hmore : (state.followedBy more).rest = token :: (rest ++ more) := by
    simp only [ParseState.followedBy, hrest, List.cons_append]
  rw [hskip _ _ _ hmore]
  rfl

-- A stop is taken, or it is missing and that is said.
theorem eaten {kind : TokenKind} (hkind : kind.stops = true) {yes no : Parse α} (hyes : Idle yes)
    (hno : Ensures Anywhere no fun _ _ => False) :
    Finishes before (do if ← eat kind then yes else no) := by
  have heat : (do if ← eat kind then yes else no : Parse α) = (do
      if ← isAt kind then
        Parse.skip
        yes
      else
        no) := by
    simp only [eat, bind_assoc]
    congr 1
    funext found
    cases found <;> simp
  rw [heat]
  have hat : Extends (isAt kind) := (climbing_plain.isAt kind).extended
  refine bind hat (Ensures.isAt kind) fun found => ?_
  cases found with
  | true =>
      have hskip : Finishes (fun rest => nextKind rest = some kind) (Parse.skip >>= fun _ => yes) :=
        (skip hkind).idle fun _ => hyes
      exact hskip.weaken fun _ h => h.2
  | false => exact complaining (hno.weaken (fun _ _ => trivial) fun _ _ h => h)

-- A name is taken, or it is missing and that is said.
theorem named {next : Option Name → Parse α} (hsome : ∀ name, Finishes Anywhere (next (some name)))
    (hnone : Kept (next none)) : Finishes before (expectName >>= next) := by
  have hname : Ensures before expectName fun found _ => found.isSome = true := by
    apply (Ensures.isAt _).bind
    intro _
    refine .either (Ensures.here.bind fun span => ?_)
      (Ensures.here.bind fun _ => (Ensures.complain rfl).bind fun _ => .pure fun _ h => h.elim)
    exact (stepwise_candid.take.weaken (fun _ _ => trivial) fun _ _ h => h).bind fun _ =>
      .pure fun _ _ => rfl
  refine bind climbing_plain.expectName.extended hname fun found => ?_
  cases found with
  | some name => exact (hsome name).weaken fun _ _ => trivial
  | none => exact impossible hnone fun _ => nofun

end Finishes

end Parse

namespace Grammar

open Parse

variable {before : List Token → Prop}

theorem readWithin_candid (levels : Nat) (nonterminal : Nonterminal) :
    Candid (readWithin levels nonterminal) :=
  stepwise_candid.readWithin (fun _ _ _ _ _ hrun => nomatch hrun) (Nat.le_refl levels) nonterminal

theorem read_candid (nonterminal : Nonterminal) : Candid (read nonterminal) :=
  fun limits state => readWithin_candid (nesting state.fuel) nonterminal limits state

theorem readWithin_plain (levels : Nat) (nonterminal : Nonterminal) :
    Plain (readWithin levels nonterminal) :=
  ⟨readWithin_extends levels nonterminal, readWithin_candid levels nonterminal⟩

theorem read_plain (nonterminal : Nonterminal) : Plain (read nonterminal) :=
  ⟨read_extends nonterminal, read_candid nonterminal⟩

theorem plain_readInitialValue {self : Reading} (hself : ∀ nonterminal, Plain (self nonterminal)) :
    Plain (readInitialValue self) :=
  @Nearsighted.readInitialValue _ climbing_plain.toNearsighted self self hself

theorem finishes_expectSemicolon : Finishes before expectSemicolon :=
  .eaten rfl (idle_pure ()) (Ensures.here.bind fun _ => (Ensures.complain rfl).bind fun _ =>
    stepwise_kept.recoverStatement.ensures fun _ => id)

theorem finishes_closeBrace (opening : String) (opened : Span) :
    Finishes before (close .BraceClose .UnclosedBrace opening opened) :=
  .eaten rfl (idle_pure ()) (Ensures.here.bind fun _ => Ensures.report rfl)

theorem finishes_readBlock : Finishes before (readBlock read) := by
  have steps := climbing_plain
  have hround : ∀ statements, Plain (readBlockRound read statements) := fun statements =>
    @Nearsighted.readBlockRound _ steps.toNearsighted read read read_plain statements
  have hrounds : Plain (rounds #[] (readBlockRound read)) :=
    @Nearsighted.rounds _ steps.toNearsighted _ _ #[] _ (readBlockRound read) hround
  exact .plain steps.here fun opened => .plain (steps.expect _ _ rfl) fun _ => .plain hrounds
    fun statements => (finishes_closeBrace _ opened).idle fun _ => idle_since _ _

theorem finishes_readImport : Finishes before readImport :=
  .plain climbing_plain.skip fun _ => .named
    (fun _ => finishes_expectSemicolon.idle fun _ => idle_pure _) (stepwise_kept.pure _)

theorem finishes_readClass : Finishes before readClass :=
  .plain climbing_plain.skip fun _ => .named
    (fun _ => finishes_expectSemicolon.idle fun _ => idle_pure _) (stepwise_kept.pure _)

theorem finishes_readAlias : Finishes before readAlias :=
  .plain climbing_plain.skip fun _ => .named (fun _ => .plain (climbing_plain.expect _ _ rfl) fun _ =>
    .plain (read_plain .Type) fun _ => finishes_expectSemicolon.idle fun _ => idle_pure _)
    (stepwise_kept.pure _)

theorem finishes_readFunction (start : Nat) (leading : Promises) (result : TypeTree) (name : Name) :
    Finishes before (readFunction start leading result name) := by
  have steps := climbing_plain
  have hparameters : Plain (readParameters read) :=
    @Nearsighted.readParameters _ steps.toNearsighted read read (read_plain .Type)
  refine .plain hparameters fun parameters => .plain steps.readPromises fun promises =>
    .plain (steps.isAt _) fun _ => .choose (fun _ => ?_) fun _ => ?_
  · simp only [map_eq_pure_bind, bind_assoc, pure_bind]
    exact finishes_readBlock.idle fun _ => idle_since _ _
  · simp only [pure_bind]
    exact finishes_expectSemicolon.idle fun _ => idle_since _ _

theorem finishes_readDeclaration : Finishes before readDeclaration := by
  have steps := climbing_plain
  refine .plain steps.here fun span => .plain steps.readPromises fun leading =>
    .plain (read_plain .Type) fun type => .named (fun name => ?_)
      (stepwise_kept.recoverItem.bind fun _ => stepwise_kept.pure _)
  exact .plain (steps.isAt _) fun _ => .choose
    (fun _ => (finishes_readFunction _ leading type name).idle fun _ => idle_pure _)
    fun _ => .plain (plain_readInitialValue read_plain) fun _ =>
      finishes_expectSemicolon.idle fun _ => idle_since _ _

-- Where the text goes on, so does the item.
theorem finishes_readItem : Finishes (· ≠ []) readItem := by
  refine .bind Extends.inspect Ensures.inspect fun next => ?_
  split
  · refine .impossible (stepwise_kept.pure _) fun rest h => h.1 ?_
    cases rest with
    | nil => rfl
    | cons token rest => cases h.2
  · exact finishes_readImport
  · exact finishes_readAlias
  · exact finishes_readClass
  · have hskip : Finishes (fun rest => nextKind rest = some (.Sign .Semicolon)) (do
        skip
        return (none : Option Item)) := (Finishes.skip rfl).idle fun _ => idle_pure _
    exact hskip.weaken fun _ h => h.2
  · exact finishes_readDeclaration
  · exact finishes_readDeclaration
  · exact finishes_readDeclaration
  · exact finishes_readDeclaration
  · exact .complaining (Ensures.here.bind fun _ => (Ensures.complain rfl).bind fun _ =>
      (stepwise_kept.recoverItem.ensures fun _ => id).bind fun _ => .pure fun _ h => h)

end Grammar

end EffectLint
