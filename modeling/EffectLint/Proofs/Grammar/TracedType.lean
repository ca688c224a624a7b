import EffectLint.Proofs.Grammar.PlacedType
import EffectLint.Proofs.Grammar.Traced

/-!
Types, followed token by token. Where a type can start, one is read.
-/

namespace EffectLint

open Parse

-- What the reading of a nonterminal finds from some place on.
def Nonterminal.Traced (scene : Scene) : (nonterminal : Nonterminal) → List Token →
    nonterminal.Result → Cursor → Prop
  | .Expression | .Assignment | .Conditional | .Binary _ | .Unary => fun origin whole =>
      Since scene origin [.Part (.Expr whole)]
  | .Type => fun origin type cursor => Since scene origin [.Part (.Type type)] cursor ∧
      (TokenKind.startsType (nextKind origin) = true → type.isError = false)
  -- a statement is missing only where the text ends
  | .Statement => fun origin found cursor =>
      (∀ written, found = some written → Since scene origin [.Part (.Statement written)] cursor) ∧
        (found = none → cursor.rest = [])

namespace Grammar

def ReadsTraced (scene : Scene) (self : Reading) : Prop :=
  ∀ nonterminal origin,
    Traces scene (Outset scene origin) (self nonterminal) (nonterminal.Traced scene origin)

variable {scene : Scene} {origin : List Token} {slots : List Slot} {self : Reading}

theorem traced_readPromises :
    Traces scene (Outset scene origin) readPromises fun _ cursor => ∃ words, Slot.Promising words ∧
      Since scene origin words cursor ∧ (words = [] → cursor.rest = origin ∧
        nextKind cursor.rest ≠ some (.Word .Pure) ∧ nextKind cursor.rest ≠ some (.Word .Nothrow)) := by
  let held : Cursor → Prop := fun cursor => ∃ words, Slot.Promising words ∧
    Since scene origin words cursor ∧ (words = [] → cursor.rest = origin)
  have hword : ∀ {word : Keyword} {token : Token} {cursor : Cursor},
      Slot.Promising [.Token (.Word word)] → token.kind = .Word word →
      Past scene held token cursor → held cursor := by
    rintro word token cursor hpromising hkind ⟨⟨words, hwords, hsince, -⟩, hpast⟩
    refine ⟨words ++ [.Token (.Word word)], fun slot hslot => ?_,
      Since.token (.Token (.Word word)) hkind ⟨hsince, hpast⟩, fun hnil => ?_⟩
    · exact (List.mem_append.mp hslot).elim (hwords slot) (hpromising slot)
    · exact absurd hnil (List.append_ne_nil_of_right_ne_nil _ (List.cons_ne_nil _ _))
  refine (Traces.rounds (fun _ => held) fun promises => ?_).of_before fun cursor hhere =>
    ⟨[], nofun, hhere.since, fun _ => hhere.2⟩
  refine (Traces.eat _).bind fun isPure => .choose (fun hpure => .pure fun cursor hthere => ?_)
    fun hpure => ((Traces.eat _).of_before fun cursor hthere => hthere.2
      (Bool.eq_false_iff.mpr hpure)).bind fun isNothrow => .choose
      (fun hnothrow => .pure fun cursor hthere => ?_) fun hnothrow => .pure fun cursor hthere => ?_
  · obtain ⟨token, hkind, hpast⟩ := hthere.1 hpure
    exact hword (by simp [Slot.Promising]) hkind hpast
  · obtain ⟨token, hkind, hpast⟩ := hthere.1 hnothrow
    exact hword (by simp [Slot.Promising]) hkind (hpast.imp fun _ h => h.1)
  · obtain ⟨⟨⟨words, hwords, hsince, horigin⟩, hnext⟩, hnext'⟩ :=
      hthere.2 (Bool.eq_false_iff.mpr hnothrow)
    exact ⟨words, hwords, hsince, fun hnil => ⟨horigin hnil, hnext, hnext'⟩⟩

theorem traced_readBaseType : Traces scene (Outset scene origin) readBaseType
    (Nonterminal.Traced scene .Type origin) := by
  refine Traces.here.bind fun span => Traces.inspect.bind fun next => ?_
  split
  · exact (Traces.leaf .Basic rfl).bind fun _ => .pure fun _ h => ⟨h, fun _ => rfl⟩
  · refine Traces.expectName.bind fun found => ?_
    cases found with
    | none =>
        refine .pure fun cursor hthere => ?_
        obtain ⟨-, earlier, ⟨⟨-, hnext⟩, hother⟩, -⟩ := hthere.2 rfl
        exact absurd hnext hother
    | some name =>
        refine .pure fun cursor hthere => ⟨?_, fun _ => rfl⟩
        obtain ⟨token, hkind, rfl, hpast⟩ := hthere.1 name rfl
        obtain ⟨⟨⟨hsuffix, rfl⟩, hspan⟩, -⟩ := hpast.1
        refine Filled.whole ((hpast.imp fun _ h => h.1.1.since).name hkind) .Named ?_
        rintro other ⟨⟩ run hrun
        obtain rfl : [token] = run := (List.append_left_inj cursor.rest).mp hrun
        exact hspan.next token rfl ▸ Span.covers_one token
  · rename_i hbasic hidentifier
    refine (Traces.complain fun cursor hhere => ?_).bind fun _ => .pure fun cursor hthere =>
      ⟨?_, fun hstarts => ?_⟩
    · exact hhere.1.2.allows rfl
    · have hmissing := hthere.imp fun _ h => h.1.1
      obtain ⟨-, earlier, ⟨⟨-, hspan⟩, -⟩, -⟩ := hthere
      exact hmissing.missing rfl hspan.marks
    · obtain ⟨-, earlier, ⟨⟨⟨-, horigin⟩, -⟩, hnext⟩, -⟩ := hthere
      rw [← horigin, hnext] at hstarts
      unfold TokenKind.startsType at hstarts
      split at hstarts
      · exact absurd rfl (hbasic _)
      · exact absurd rfl hidentifier
      · cases hstarts

section

variable (hself : ReadsTraced scene self)

include hself

theorem traced_type (origin : List Token) : Traces scene (Outset scene origin) (self .Type)
    fun type => Since scene origin [.Part (.Type type)] :=
  (hself .Type origin).imp fun _ _ h => h.1

theorem traced_readParameter : Traces scene (Outset scene origin) (readParameter self)
    fun parameter => Since scene origin [.Part (.Parameter parameter)] := by
  refine (Traces.eat _).bind fun isRef => ?_
  have href : ∀ cursor : Cursor, ((isRef = true → ∃ token, token.kind = .Word .Ref ∧
        Past scene (Outset scene origin) token cursor) ∧ (isRef = false →
        Outset scene origin cursor ∧ nextKind cursor.rest ≠ some (.Word .Ref))) →
      Since scene origin (if isRef then [.Token (.Word .Ref)] else []) cursor := by
    intro cursor hthere
    cases isRef with
    | true =>
        obtain ⟨token, hkind, hpast⟩ := hthere.1 rfl
        exact Since.token (.Token _) hkind (hpast.imp fun _ => Outset.since)
    | false => exact (hthere.2 rfl).1.since
  refine ((Traces.part .Type (traced_type hself)).of_before href).bind fun type => ?_
  have hmade : ∀ {name : Option Name} {cursor : Cursor},
      Since scene origin ((if isRef then [.Token (.Word .Ref)] else []) ++ [.Part (.Type type)] ++
        name.toList.map fun name => .Part (.Name name)) cursor →
      Since scene origin [.Part (.Parameter ⟨isRef, type, name⟩)] cursor := by
    intro name cursor hsince
    rw [List.append_assoc] at hsince
    exact Filled.whole hsince .Parameter nofun
  refine (Traces.isAt _).bind fun found => .choose (fun _ => ?_) fun _ => .pure fun cursor hhere =>
    hmade (by simpa using hhere.1)
  refine (Traces.name.of_before fun _ h => h.1).bind fun name => .pure fun cursor hthere => hmade ?_
  cases name with
  | none => simpa using (hthere.2 rfl).1
  | some name => exact hthere.1 name rfl

theorem traced_readParameters : Traces scene (Since scene origin slots) (readParameters self)
    fun parameters cursor => ∃ listed, Slot.CommaList (parameters.map .Parameter) listed ∧
      Since scene origin (slots ++ (.Expected (.Sign .ParenOpen) ::
        (listed ++ [.Expected (.Sign .ParenClose)]))) cursor := by
  refine Traces.opening fun opened hopened => (Traces.expect _ _).bind fun found =>
    .choose (fun _ => ?_) fun hfound => .pure fun cursor hthere => ?_
  · refine ((Traces.listed .Parameter fun _ => traced_readParameter hself).of_before fun _ h => h.1).bind
      fun parameters => Traces.given fun listed => Traces.knowing (fun _ h => h.1) fun hlisted =>
      ((Traces.close hopened rfl).of_before fun _ h => h.2).bind fun _ => .pure fun cursor hsince =>
      ⟨listed, hlisted, ?_⟩
    simpa using hsince
  · obtain ⟨hsince, hnoisy⟩ := hthere
    replace hnoisy := hnoisy (Bool.eq_false_iff.mpr hfound)
    refine ⟨[], .Trailing [], ?_⟩
    have hclosed : Since scene origin (_ ++ [.Expected (.Sign .ParenClose)]) cursor :=
      hsince.missed hnoisy rfl
    simpa using hclosed

theorem traced_readBracketSuffix {start : Nat} (element : TypeTree)
    (hstart : start = scene.offset origin) :
    Traces scene (fun cursor => Since scene origin [.Part (.Type element)] cursor ∧
        nextKind cursor.rest = some (.Sign .BracketOpen)) (readBracketSuffix self start element)
      fun type cursor => Since scene origin [.Part (.Type type)] cursor ∧ type.isError = false :=
  Traces.opening fun _ hopened => (Traces.skipped _).bind fun _ => .eaten
    ((Traces.made _ (fun _ => .Array) (fun _ => rfl) hstart rfl).bind fun _ => .pure fun _ h => ⟨h, rfl⟩)
    (((Traces.part .Type (traced_type hself)).of_before fun _ h => h.1).bind fun _ =>
      (Traces.close hopened rfl).bind fun _ =>
      (Traces.made _ (fun _ => .AssocArray) (fun _ => rfl) hstart rfl).bind fun _ =>
      .pure fun _ h => ⟨h, rfl⟩)

theorem traced_readCallableSuffix {start : Nat} (isDelegate : Bool) (result : TypeTree)
    (hstart : start = scene.offset origin) :
    Traces scene (fun cursor => Since scene origin [.Part (.Type result)] cursor ∧
        nextKind cursor.rest = some (.Word (if isDelegate then .Delegate else .Function)))
      (readCallableSuffix self start isDelegate result)
      fun type cursor => Since scene origin [.Part (.Type type)] cursor ∧ type.isError = false := by
  refine (Traces.skipped _).bind fun _ => (traced_readParameters hself).bind fun parameters =>
    Traces.given fun listed => Traces.knowing (fun _ h => h.1) fun hlisted =>
    ((Traces.parts fun _ => traced_readPromises.imp fun _ _ ⟨words, hwords, hsince, _⟩ =>
      ⟨words, hwords, hsince⟩).of_before fun _ h => h.2).bind fun promises =>
    Traces.given fun trailing => Traces.knowing (fun _ h => h.1) fun htrailing => ?_
  refine ((Traces.made (fun span =>
      .Type (.Callable span isDelegate promises result parameters)) (fun _ =>
      .Callable hlisted htrailing) (fun _ => rfl) hstart rfl).of_before fun cursor hhere => ?_).bind
    fun _ => .pure fun _ h => ⟨h, rfl⟩
  simpa using hhere.2

theorem traced_readTypeSuffix {start : Nat} (type : TypeTree)
    (hstart : start = scene.offset origin) :
    Traces scene (fun cursor => Since scene origin [.Part (.Type type)] cursor ∧ type.isError = false)
      (readTypeSuffix self start type) (Round.leaves
        (fun type cursor => Since scene origin [.Part (.Type type)] cursor ∧ type.isError = false)
        fun type cursor => Since scene origin [.Part (.Type type)] cursor ∧ type.isError = false) := by
  refine Traces.inspect.bind fun next => ?_
  split
  · exact ((Traces.skipped _).of_before fun _ h => ⟨h.1.1, h.2⟩).bind fun _ =>
      (Traces.made _ (fun _ => .Pointer) (fun _ => rfl) hstart rfl).bind fun _ =>
      .pure fun _ h => ⟨h, rfl⟩
  · exact ((traced_readBracketSuffix hself type hstart).of_before fun _ h => ⟨h.1.1, h.2⟩).bind
      fun _ => .pure fun _ h => h
  · exact ((traced_readCallableSuffix hself false type hstart).of_before fun _ h =>
      ⟨h.1.1, h.2⟩).bind fun _ => .pure fun _ h => h
  · exact ((traced_readCallableSuffix hself true type hstart).of_before fun _ h =>
      ⟨h.1.1, h.2⟩).bind fun _ => .pure fun _ h => h
  · exact .pure fun _ h => h.1

theorem traced_readType : Traces scene (Outset scene origin) (readType self)
    (Nonterminal.Traced scene .Type origin) := by
  refine Traces.starting fun span hstart => traced_readBaseType.bind fun base =>
    .choose (fun _ => .pure fun _ h => h) fun hbase => ?_
  refine (Traces.rounds (fun type cursor => Since scene origin [.Part (.Type type)] cursor ∧
    type.isError = false) fun type => traced_readTypeSuffix hself type hstart).weaken
    (fun cursor hhere => ⟨hhere.1, Bool.eq_false_iff.mpr hbase⟩) fun type cursor hthere =>
    ⟨hthere.1, fun _ => hthere.2⟩

end

end Grammar

end EffectLint
