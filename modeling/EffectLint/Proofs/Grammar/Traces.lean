import EffectLint.Proofs.Grammar.Derived

/-!
Following a reading with everything that it says. The tokens that it takes and the place of its
last complaint are known at every step, so that its ranges are those of tokens, and so that no
complaint comes before an earlier one unless it is about the arguments of a call.
-/

namespace EffectLint

-- Every kind that is reported at the place of a token, however often that place is reached.
def DiagnosticKind.isPositional : DiagnosticKind → Bool
  | .UnclosedParen | .UnclosedBrace | .UnclosedBracket => false
  | _ => true

namespace Diagnostic

-- All the ranges that are shown for a diagnostic.
def spans (diagnostic : Diagnostic) : List Span :=
  diagnostic.span :: diagnostic.related.map Related.span

end Diagnostic

namespace Diagnostics

-- Where the diagnostics about a place start.
def positions (diagnostics : List Diagnostic) : List Nat :=
  (diagnostics.filter (·.kind.isPositional)).map (·.span.start)

-- The places go up to the last one that was complained about. A wrong number of arguments is
-- complained about at the place where they began, and then nothing is known any more.
def Orderly (diagnostics : List Diagnostic) (lastComplaint : Option Nat) : Prop :=
  (∀ diagnostic ∈ diagnostics, diagnostic.kind ≠ .WrongArgumentCount) →
    (positions diagnostics).Pairwise (· < ·) ∧
      ∀ position ∈ positions diagnostics, ∃ last, lastComplaint = some last ∧ position ≤ last

theorem Orderly.complain {diagnostics : List Diagnostic} {lastComplaint : Option Nat}
    {diagnostic : Diagnostic} (h : Orderly diagnostics lastComplaint)
    (hlate : diagnostic.kind = .WrongArgumentCount ∨
      ∀ last, lastComplaint = some last → last ≤ diagnostic.span.start)
    (hnew : lastComplaint ≠ some diagnostic.span.start) :
    Orderly (diagnostics ++ [diagnostic]) (some diagnostic.span.start) := by
  intro hright
  obtain ⟨hrights, hkind⟩ := List.forall_mem_append.mp hright
  obtain ⟨hsorted, hbounded⟩ := h hrights
  replace hlate := hlate.resolve_left (hkind diagnostic List.mem_cons_self)
  have hbelow : ∀ position ∈ positions diagnostics, position < diagnostic.span.start := by
    intro position hposition
    obtain ⟨last, rfl, hle⟩ := hbounded position hposition
    have hle' := hlate last rfl
    have hne : last ≠ diagnostic.span.start := fun heq => hnew (congrArg some heq)
    omega
  have hposition : positions (diagnostics ++ [diagnostic]) = positions diagnostics ++
      positions [diagnostic] := by simp [positions]
  have hone : ∀ position ∈ positions [diagnostic], position = diagnostic.span.start := by
    intro position hposition
    obtain ⟨other, hother, rfl⟩ := List.mem_map.mp hposition
    rw [List.mem_singleton.mp (List.mem_filter.mp hother).1]
  rw [hposition]
  refine ⟨List.pairwise_append.mpr ⟨hsorted, ?_, fun position hposition other hother => ?_⟩, ?_⟩
  · unfold positions
    cases hpositional : diagnostic.kind.isPositional <;> simp [hpositional]
  · rw [hone other hother]
    exact hbelow position hposition
  · intro position hposition
    rcases List.mem_append.mp hposition with hposition | hposition
    · exact ⟨_, rfl, Nat.le_of_lt (hbelow position hposition)⟩
    · exact ⟨_, rfl, Nat.le_of_eq (hone position hposition)⟩

theorem Orderly.report {diagnostics : List Diagnostic} {lastComplaint : Option Nat}
    {diagnostic : Diagnostic} (h : Orderly diagnostics lastComplaint)
    (hkind : diagnostic.kind.isPositional = false) :
    Orderly (diagnostics ++ [diagnostic]) lastComplaint := by
  intro hright
  have hsame : positions (diagnostics ++ [diagnostic]) = positions diagnostics := by
    simp [positions, hkind]
  rw [hsame]
  exact h (List.forall_mem_append.mp hright).1

end Diagnostics

namespace Parse

-- What is followed of a reading at each of its steps.
structure Cursor where
  rest : List Token
  lastComplaint : Option Nat
  -- whether nothing has been said yet
  quiet : Prop

end Parse

def ParseState.cursor (state : ParseState) : Parse.Cursor :=
  ⟨state.rest, state.lastComplaint, state.diagnostics = #[]⟩

namespace Parse

variable {scene : Scene}

-- No place behind the given one was complained about yet.
def Cursor.Fresh (cursor : Cursor) (place : Nat) : Prop :=
  ∀ last, cursor.lastComplaint = some last → last ≤ place

structure Sound (scene : Scene) (state : ParseState) : Prop where
  behind : ∃ front, scene.tokens = front ++ state.rest ∧
    ∀ last, front.getLast? = some last → state.lastEnd = last.span.stop
  counted : state.taken + state.rest.length = scene.tokens.length
  fresh : state.cursor.Fresh (scene.offset state.rest)
  silent : state.diagnostics = #[] → state.lastComplaint = none
  marked : ∀ diagnostic ∈ state.diagnostics, ∀ span ∈ diagnostic.spans, scene.Marks span
  orderly : Diagnostics.Orderly state.diagnostics.toList state.lastComplaint

theorem Sound.suffix {state : ParseState} (h : Sound scene state) :
    state.rest <:+ scene.tokens := by
  obtain ⟨front, htokens, -⟩ := h.behind
  exact ⟨front, htokens.symm⟩

-- What a computation leads to from a place of which something is known.
def Traces {α : Type} (scene : Scene) (before : Cursor → Prop) (body : Parse α)
    (after : α → Cursor → Prop) : Prop :=
  ∀ limits state result state', limits.textEnd = scene.textEnd →
    body limits state = .ok (result, state') → Sound scene state → before state.cursor →
      Sound scene state' ∧ (state'.cursor.quiet → state.cursor.quiet) ∧ after result state'.cursor

-- What holds behind a round, whether it is the last one or not.
def Round.leaves {σ α : Type} (again : σ → Cursor → Prop) (done : α → Cursor → Prop) :
    Round σ α → Cursor → Prop
  | .Again next => again next
  | .Done last => done last

theorem placed_of_suffix {textEnd : Nat} {tokens rest : List Token} (h : Placed textEnd tokens)
    (hsuffix : rest <:+ tokens) : Placed textEnd rest := by
  obtain ⟨front, rfl⟩ := hsuffix
  induction front with
  | nil => exact h
  | cons token front ih => exact ih h.2

-- The place of the next token, or of the end of the text, only moves on.
theorem offset_mono {origin rest : List Token} (horigin : origin <:+ scene.tokens)
    (hrest : rest <:+ origin) : scene.offset origin ≤ scene.offset rest := by
  have hplaced := placed_of_suffix scene.placed horigin
  obtain ⟨front, rfl⟩ := hrest
  clear horigin
  induction front with
  | nil => exact Nat.le_refl _
  | cons token front ih => exact Nat.le_trans (Nat.le_of_lt hplaced.1) (ih hplaced.2)

-- Where a diagnostic may be reported, and where a complaint may be made.
structure Cursor.Allows (scene : Scene) (cursor : Cursor) (diagnostic : Diagnostic) : Prop where
  marked : ∀ span ∈ diagnostic.spans, scene.Marks span
  behind : diagnostic.span.start ≤ scene.offset cursor.rest
  late : diagnostic.kind = .WrongArgumentCount ∨ cursor.Fresh diagnostic.span.start

-- A place with the given token just taken, and nothing complained about behind its start.
def Past (scene : Scene) (before : Cursor → Prop) (token : Token) (cursor : Cursor) : Prop :=
  before { cursor with rest := token :: cursor.rest } ∧
    token :: cursor.rest <:+ scene.tokens ∧ cursor.Fresh token.span.start

-- The range of the next token, or an empty one at the end of the text.
structure Here (scene : Scene) (span : Span) (cursor : Cursor) : Prop where
  marks : scene.Marks span
  start : span.start = scene.offset cursor.rest
  fresh : cursor.Fresh span.start
  next : ∀ token, cursor.rest.head? = some token → token.span = span

theorem ne_nil_of_nextKind {rest : List Token} {kind : TokenKind} (h : nextKind rest = some kind) :
    rest ≠ [] := by
  rintro rfl
  cases h

-- Something has been said, and reading still stands at the same place.
def Said (before : Cursor → Prop) (cursor : Cursor) : Prop :=
  ¬cursor.quiet ∧ ∃ earlier, before earlier ∧ earlier.rest = cursor.rest

namespace Traces

variable {α β σ : Type} {before : Cursor → Prop} {body : Parse α} {after : α → Cursor → Prop}

theorem weaken {before' : Cursor → Prop} {after' : α → Cursor → Prop}
    (h : Traces scene before body after) (hbefore : ∀ cursor, before' cursor → before cursor)
    (hafter : ∀ result cursor, after result cursor → after' result cursor) :
    Traces scene before' body after' := by
  intro limits state result state' hlimits hrun hsound hhere
  obtain ⟨hsound', hquiet, hthere⟩ := h limits state result state' hlimits hrun hsound (hbefore _ hhere)
  exact ⟨hsound', hquiet, hafter _ _ hthere⟩

theorem imp {after' : α → Cursor → Prop} (h : Traces scene before body after)
    (hafter : ∀ result cursor, after result cursor → after' result cursor) :
    Traces scene before body after' :=
  h.weaken (fun _ h => h) hafter

theorem of_before {before' : Cursor → Prop} (h : Traces scene before body after)
    (hbefore : ∀ cursor, before' cursor → before cursor) : Traces scene before' body after :=
  h.weaken hbefore fun _ _ h => h

theorem pure {result : α} (h : ∀ cursor, before cursor → after result cursor) :
    Traces scene before (Pure.pure result) after := by
  intro limits state found state' _ hrun hsound hhere
  cases hrun
  exact ⟨hsound, id, h _ hhere⟩

theorem bind {next : α → Parse β} {last : β → Cursor → Prop}
    (hbody : Traces scene before body after)
    (hnext : ∀ found, Traces scene (after found) (next found) last) :
    Traces scene before (body >>= next) last := by
  intro limits state result state' hlimits hrun hsound hhere
  obtain ⟨found, middle, hfound, hlast⟩ := of_bind hrun
  obtain ⟨hsound', hquiet, hthere⟩ := hbody limits state found middle hlimits hfound hsound hhere
  obtain ⟨hsound'', hquiet', hend⟩ :=
    hnext found limits middle result state' hlimits hlast hsound' hthere
  exact ⟨hsound'', fun h => hquiet (hquiet' h), hend⟩

-- What does not depend on the place can be used from here on.
theorem knowing {fact : Prop} (hfact : ∀ cursor, before cursor → fact)
    (h : fact → Traces scene before body after) : Traces scene before body after :=
  fun limits state result state' hlimits hrun hsound hhere =>
    h (hfact _ hhere) limits state result state' hlimits hrun hsound hhere

theorem given {ι : Type} {before : ι → Cursor → Prop}
    (h : ∀ one, Traces scene (before one) body after) :
    Traces scene (fun cursor => ∃ one, before one cursor) body after :=
  fun limits state result state' hlimits hrun hsound ⟨one, hhere⟩ =>
    h one limits state result state' hlimits hrun hsound hhere

theorem split {left right : Cursor → Prop} (hleft : Traces scene left body after)
    (hright : Traces scene right body after) :
    Traces scene (fun cursor => left cursor ∨ right cursor) body after := by
  intro limits state result state' hlimits hrun hsound hhere
  rcases hhere with hhere | hhere
  · exact hleft limits state result state' hlimits hrun hsound hhere
  · exact hright limits state result state' hlimits hrun hsound hhere

theorem choose {condition : Prop} [Decidable condition] {yes no : Parse α}
    (hyes : condition → Traces scene before yes after)
    (hno : ¬condition → Traces scene before no after) :
    Traces scene before (if condition then yes else no) after := by
  by_cases h : condition
  · rw [if_pos h]
    exact hyes h
  · rw [if_neg h]
    exact hno h

-- What has been said is not taken back.
theorem noisy (h : Traces scene before body after) :
    Traces scene (fun cursor => before cursor ∧ ¬cursor.quiet) body
      fun result cursor => after result cursor ∧ ¬cursor.quiet := by
  intro limits state result state' hlimits hrun hsound hhere
  obtain ⟨hsound', hquiet, hthere⟩ := h limits state result state' hlimits hrun hsound hhere.1
  exact ⟨hsound', hquiet, hthere, fun h => hhere.2 (hquiet h)⟩

-- What is known from any place on is known from this one on.
theorem resume {seen : Cursor → α → Cursor → Prop}
    (h : ∀ earlier : Cursor, before earlier → earlier.rest <:+ scene.tokens →
      Traces scene (· = earlier) body (seen earlier)) :
    Traces scene before body fun result cursor =>
      ∃ earlier, before earlier ∧ (cursor.quiet → earlier.quiet) ∧ seen earlier result cursor := by
  intro limits state result state' hlimits hrun hsound hhere
  obtain ⟨hsound', hquiet, hthere⟩ :=
    h state.cursor hhere hsound.suffix limits state result state' hlimits hrun hsound rfl
  exact ⟨hsound', hquiet, state.cursor, hhere, hquiet, hthere⟩

-- What spends a budget at most leaves everything else as it is.
theorem look {good : α → Cursor → Prop}
    (h : ∀ limits state result state', limits.textEnd = scene.textEnd →
      body limits state = .ok (result, state') →
      (∃ fuel depth, state' = { state with fuel, depth }) ∧
        (Sound scene state → good result state.cursor)) :
    Traces scene before body fun result cursor => before cursor ∧ good result cursor := by
  intro limits state result state' hlimits hrun hsound hhere
  obtain ⟨⟨fuel, depth, rfl⟩, hgood⟩ := h limits state result state' hlimits hrun
  have hcursor : ({ state with fuel, depth } : ParseState).cursor = state.cursor := rfl
  exact ⟨⟨hsound.behind, hsound.counted, hsound.fresh, hsound.silent, hsound.marked,
    hsound.orderly⟩, id, hhere, hgood hsound⟩

theorem still (h : ∀ limits state result state', body limits state = .ok (result, state') →
    ∃ fuel depth, state' = { state with fuel, depth }) :
    Traces scene before body fun _ => before := by
  have hlook : Traces scene before body fun _ cursor => before cursor ∧ True :=
    look fun limits state result state' _ hrun =>
      ⟨h limits state result state' hrun, fun _ => trivial⟩
  exact hlook.imp fun _ _ h => h.1

theorem enter : Traces scene before enter fun _ => before := by
  refine still fun _ state _ _ hrun => ?_
  obtain ⟨_, rfl⟩ := of_enter hrun
  exact ⟨state.fuel, _, rfl⟩

theorem leave : Traces scene before leave fun _ => before :=
  still fun _ state _ _ hrun => by cases hrun; exact ⟨state.fuel, _, rfl⟩

theorem here : Traces scene before here fun span cursor => before cursor ∧ Here scene span cursor := by
  refine look fun limits ⟨rest, taken, lastEnd, fuel, depth, last, diagnostics⟩ span state' hlimits
    hrun => ?_
  cases rest with
  | nil =>
      cases hrun
      exact ⟨⟨fuel, depth, rfl⟩, fun hsound => ⟨.inr (by rw [hlimits]), hlimits,
        hlimits ▸ hsound.fresh, nofun⟩⟩
  | cons token rest =>
      cases hrun
      refine ⟨⟨fuel, depth, rfl⟩, fun hsound => ⟨.of_covers (Span.covers_one token) ?_, rfl,
        hsound.fresh, fun _ h => congrArg Token.span (Option.some.inj h).symm⟩⟩
      exact (List.prefix_append [token] rest).isInfix.trans hsound.suffix.isInfix

-- A range from some token on covers all that was taken since.
theorem since (start : Nat) : Traces scene before (since start) fun span cursor => before cursor ∧
    span.start = start ∧ ∀ run, run ++ cursor.rest <:+ scene.tokens → run ≠ [] →
      start = scene.offset (run ++ cursor.rest) → span.Covers run := by
  refine look fun limits state span state' _ hrun => ?_
  cases hrun
  refine ⟨⟨state.fuel, state.depth, rfl⟩, fun hsound => ⟨rfl, fun run hsuffix hrun hstart => ?_⟩⟩
  obtain ⟨init, last, rfl⟩ : ∃ init last, run = init ++ [last] :=
    ⟨_, _, (List.dropLast_concat_getLast hrun).symm⟩
  obtain ⟨first, hfirst⟩ : ∃ first, (init ++ [last]).head? = some first := by
    cases init <;> exact ⟨_, rfl⟩
  have hend : state.lastEnd = last.span.stop := by
    obtain ⟨front, hfront⟩ := hsuffix
    obtain ⟨front', htokens, hlast⟩ := hsound.behind
    obtain rfl : front' = front ++ (init ++ [last]) := by
      refine (List.append_left_inj state.rest).mp ?_
      rw [← htokens, ← hfront, List.append_assoc front]
      rfl
    exact hlast last (by simp)
  have hle : start ≤ last.span.start := by
    rw [hstart]
    have hlast : last :: state.rest <:+ init ++ [last] ++ state.rest := ⟨init, by simp⟩
    exact offset_mono hsuffix hlast
  have hle' : last.span.start ≤ last.span.stop :=
    scene.filled last (hsuffix.subset (by simp))
  refine ⟨first, last, hfirst, List.getLast?_concat, ?_⟩
  have hstart' : start = first.span.start := by
    rw [hstart]
    cases init <;> cases hfirst <;> rfl
  have hmax : max state.lastEnd start = last.span.stop := by omega
  rw [hmax, hstart']

theorem inspect :
    Traces scene before inspect fun next cursor => before cursor ∧ nextKind cursor.rest = next := by
  refine look fun limits state next state' _ hrun => ?_
  obtain ⟨fuel, -, rfl, rfl⟩ := of_inspect hrun
  exact ⟨⟨fuel, state.depth, rfl⟩, fun _ => rfl⟩

theorem isAt (kind : TokenKind) : Traces scene before (isAt kind) fun found cursor =>
    before cursor ∧ (found = true ↔ nextKind cursor.rest = some kind) :=
  inspect.bind fun next => .pure fun cursor ⟨hhere, hnext⟩ => ⟨hhere, by rw [hnext, beq_iff_eq]⟩

theorem atEnd : Traces scene before atEnd fun found cursor =>
    before cursor ∧ (found = true ↔ cursor.rest = []) := by
  refine look fun limits state found state' _ hrun => ?_
  cases hrun
  exact ⟨⟨state.fuel, state.depth, rfl⟩, fun _ => List.isEmpty_iff⟩

theorem taken : Traces scene before taken fun count cursor =>
    before cursor ∧ count + cursor.rest.length = scene.tokens.length := by
  refine look fun limits state count state' _ hrun => ?_
  cases hrun
  exact ⟨⟨state.fuel, state.depth, rfl⟩, fun hsound => hsound.counted⟩

theorem beyond : Traces scene before beyond fun found cursor =>
    before cursor ∧ found = cursor.rest.tail := by
  refine look fun limits state found state' _ hrun => ?_
  cases hrun
  exact ⟨⟨state.fuel, state.depth, rfl⟩, fun _ => rfl⟩

-- A token that is there is taken.
theorem take (hthere : ∀ cursor, before cursor → cursor.rest ≠ []) :
    Traces scene before take fun text cursor =>
      ∃ token, text = token.text ∧ Past scene before token cursor := by
  rintro limits ⟨rest, taken, lastEnd, fuel, depth, last, diagnostics⟩ text state' _ hrun hsound hhere
  cases rest with
  | nil => exact absurd rfl (hthere _ hhere)
  | cons token rest =>
      cases hrun
      refine ⟨⟨?_, ?_, fun latest hlatest => ?_, hsound.silent, hsound.marked, hsound.orderly⟩, id,
        token, rfl, hhere, hsound.suffix, hsound.fresh⟩
      · obtain ⟨front, htokens, -⟩ := hsound.behind
        exact ⟨front ++ [token], by rw [htokens, List.append_assoc]; rfl, fun latest hlatest => by
          rw [List.getLast?_concat] at hlatest
          exact congrArg (·.span.stop) (Option.some.inj hlatest)⟩
      · have hcounted := hsound.counted
        simp only [List.length_cons] at hcounted
        simp only
        omega
      · exact Nat.le_trans (hsound.fresh latest hlatest)
          (offset_mono hsound.suffix (List.suffix_cons token rest))

theorem skip (hthere : ∀ cursor, before cursor → cursor.rest ≠ []) :
    Traces scene before skip fun _ cursor => ∃ token, Past scene before token cursor :=
  (take hthere).bind fun _ => .pure fun _ ⟨token, _, hpast⟩ => ⟨token, hpast⟩

-- At the end of the text there is nothing to skip.
theorem skip_end (hend : ∀ cursor, before cursor → cursor.rest = []) :
    Traces scene before Parse.skip fun _ => before := by
  have htake : Traces scene before Parse.take fun _ => before := by
    rintro limits ⟨rest, taken, lastEnd, fuel, depth, last, diagnostics⟩ text state' _ hrun hsound hhere
    obtain rfl : rest = [] := hend _ hhere
    cases hrun
    exact ⟨hsound, id, hhere⟩
  exact htake.bind fun _ => .pure fun _ h => h

theorem complain {diagnostic : Diagnostic}
    (hallows : ∀ cursor, before cursor → cursor.Allows scene diagnostic) :
    Traces scene before (complain diagnostic) fun _ => Said before := by
  intro limits state result state' _ hrun hsound hhere
  have hallowed := hallows _ hhere
  rcases of_complain hrun with ⟨hsame, rfl⟩ | ⟨hnew, rfl⟩
  · refine ⟨hsound, id, fun hquiet => ?_, _, hhere, rfl⟩
    rw [hsound.silent hquiet] at hsame
    cases hsame
  · have hnoisy : ∀ {reported : Array Diagnostic}, reported.push diagnostic ≠ #[] :=
      Array.push_ne_empty
    refine ⟨⟨hsound.behind, hsound.counted, ?_, fun h => absurd h hnoisy, ?_, ?_⟩,
      fun h => absurd h hnoisy, hnoisy, _, hhere, rfl⟩
    · rintro last ⟨⟩
      exact hallowed.behind
    · intro other hother
      rcases Array.mem_push.mp hother with hother | rfl
      · exact hsound.marked other hother
      · exact hallowed.marked
    · rw [Array.toList_push]
      exact hsound.orderly.complain hallowed.late hnew

theorem report {diagnostic : Diagnostic} (hkind : diagnostic.kind.isPositional = false)
    (hmarked : ∀ cursor, before cursor → ∀ span ∈ diagnostic.spans, scene.Marks span) :
    Traces scene before (report diagnostic) fun _ => Said before := by
  intro limits state result state' _ hrun hsound hhere
  cases hrun
  have hnoisy : ∀ {reported : Array Diagnostic}, reported.push diagnostic ≠ #[] :=
    Array.push_ne_empty
  refine ⟨⟨hsound.behind, hsound.counted, hsound.fresh, fun h => absurd h hnoisy, ?_, ?_⟩,
    fun h => absurd h hnoisy, hnoisy, _, hhere, rfl⟩
  · intro other hother
    rcases Array.mem_push.mp hother with hother | rfl
    · exact hsound.marked other hother
    · exact hmarked _ hhere
  · rw [Array.toList_push]
    exact hsound.orderly.report hkind

theorem restoringDepth (h : Traces scene before body after) :
    Traces scene before (restoringDepth body) after := by
  intro limits state result state' hlimits hrun hsound hhere
  obtain ⟨middle, hbody, rfl⟩ := of_restoringDepth hrun
  obtain ⟨hsound', hquiet, hthere⟩ := h limits state result middle hlimits hbody hsound hhere
  exact ⟨⟨hsound'.behind, hsound'.counted, hsound'.fresh, hsound'.silent, hsound'.marked,
    hsound'.orderly⟩, hquiet, hthere⟩

-- What holds before each round and is kept by it holds when the last one is done.
theorem rounds {round : σ → Parse (Round σ α)} (holds : σ → Cursor → Prop) {first : σ}
    (hround : ∀ state, Traces scene (holds state) (round state) (Round.leaves holds after)) :
    Traces scene (holds first) (rounds first round) after := by
  have hrounds : ∀ bound state,
      Traces scene (holds state) (roundsAtMost round bound state) after := by
    intro bound
    induction bound with
    | zero => exact fun _ _ _ _ _ _ hrun => nomatch hrun
    | succ bound ih =>
        intro state
        refine (hround state).bind fun found => ?_
        cases found with
        | Again next => exact ih next
        | Done last => exact .pure fun _ h => h
  exact fun limits state => hrounds (state.fuel + 1) first limits state

end Traces

end Parse

end EffectLint
