import EffectLint.Proofs.Grammar.Form

/-!
Phrases and the tokens they are read from. Every part of a phrase is read from tokens of that
phrase, and parts that follow each other are read from tokens that do.
-/

namespace EffectLint

-- A range from the start of the first token to the end of the last one.
def Span.Covers (span : Span) (run : List Token) : Prop :=
  ∃ first last, run.head? = some first ∧ run.getLast? = some last ∧
    span = ⟨first.span.start, last.span.stop⟩

-- What is read: tokens one behind the other, and the end of the text.
structure Scene where
  tokens : List Token
  textEnd : Nat
  placed : Parse.Placed textEnd tokens
  filled : ∀ token ∈ tokens, token.span.start ≤ token.span.stop

namespace Scene

-- The range of a run of tokens, or the end of the text.
def Marks (scene : Scene) (span : Span) : Prop :=
  (∃ run, run <:+: scene.tokens ∧ span.Covers run) ∨ span = .emptyAt scene.textEnd

def offset (scene : Scene) (rest : List Token) : Nat :=
  (Parse.spot scene.textEnd rest).offset

end Scene

-- What a list of slots is filled with. Where the text is not clean, a slot may be left empty, and a
-- token may be passed over.
inductive Fills (clean : Prop) (reads : Phrase → List Token → Prop) :
    List Slot → List Token → Prop where
  | Nil : Fills clean reads [] []
  | Taken {slot slots token run} : slot.Takes token → Fills clean reads slots run →
      Fills clean reads (slot :: slots) (token :: run)
  | Read {phrase slots front back} : reads phrase front → Fills clean reads slots back →
      Fills clean reads (.Part phrase :: slots) (front ++ back)
  | Missed {slot slots run} : ¬clean → slot.mayMiss = true → Fills clean reads slots run →
      Fills clean reads (slot :: slots) run
  | Stray {slots token run} : ¬clean → Fills clean reads slots run →
      Fills clean reads slots (token :: run)

inductive Phrase.ReadFrom (scene : Scene) (clean : Prop) : Phrase → List Token → Prop where
  | Whole {phrase slots run} : phrase.Form slots → Fills clean (ReadFrom scene clean) slots run →
      (∀ span ∈ phrase.span?, span.Covers run) → ReadFrom scene clean phrase run
  | Missing {phrase span run} : ¬clean → phrase.missing? = some span → scene.Marks span →
      ReadFrom scene clean phrase run

theorem Span.Covers.ne_nil {span : Span} {run : List Token} (h : span.Covers run) : run ≠ [] := by
  rintro rfl
  obtain ⟨first, last, hfirst, -⟩ := h
  cases hfirst

theorem Span.covers_one (token : Token) : token.span.Covers [token] :=
  ⟨token, token, rfl, rfl, rfl⟩

theorem Scene.Marks.of_covers {scene : Scene} {span : Span} {run : List Token}
    (h : span.Covers run) (hrun : run <:+: scene.tokens) : scene.Marks span :=
  .inl ⟨run, hrun, h⟩

namespace Fills

variable {clean : Prop} {reads : Phrase → List Token → Prop} {slots slots' : List Slot}
  {run run' : List Token}

theorem append (h : Fills clean reads slots run) (h' : Fills clean reads slots' run') :
    Fills clean reads (slots ++ slots') (run ++ run') := by
  induction h with
  | Nil => exact h'
  | Taken htakes _ ih => exact .Taken htakes ih
  | Read hreads _ ih =>
      rw [List.append_assoc]
      exact .Read hreads ih
  | Missed hclean hmiss _ ih => exact .Missed hclean hmiss ih
  | Stray hclean _ ih => exact .Stray hclean ih

theorem strays (hclean : ¬clean) (run : List Token) : Fills clean reads [] run := by
  induction run with
  | nil => exact .Nil
  | cons token run ih => exact .Stray hclean ih

theorem mono {clean' : Prop} {reads' : Phrase → List Token → Prop} (hclean : clean' → clean)
    (hreads : ∀ phrase run, reads phrase run → reads' phrase run) (h : Fills clean reads slots run) :
    Fills clean' reads' slots run := by
  induction h with
  | Nil => exact .Nil
  | Taken htakes _ ih => exact .Taken htakes ih
  | Read h _ ih => exact .Read (hreads _ _ h) ih
  | Missed hunclean hmiss _ ih => exact .Missed (fun h => hunclean (hclean h)) hmiss ih
  | Stray hunclean _ ih => exact .Stray (fun h => hunclean (hclean h)) ih

theorem one {phrase : Phrase} (h : reads phrase run) : Fills clean reads [.Part phrase] run := by
  have hread : Fills clean reads [.Part phrase] (run ++ []) := .Read h .Nil
  rwa [List.append_nil] at hread

theorem ne_nil (h : Fills clean reads slots run) (hslots : slots.any Slot.isToken = true) :
    run ≠ [] := by
  induction h with
  | Nil => cases hslots
  | Taken => exact List.cons_ne_nil _ _
  | Read _ _ ih => exact List.append_ne_nil_of_right_ne_nil _ (ih hslots)
  | @Missed slot slots run _ hmiss _ ih =>
      cases slot with
      | Token kind => cases hmiss
      | _ => exact ih hslots
  | Stray => exact List.cons_ne_nil _ _

theorem parts (h : Fills clean reads slots run) :
    ∀ phrase ∈ slots.filterMap Slot.phrase?, ∃ piece, piece <:+: run ∧ reads phrase piece := by
  induction h with
  | Nil => nofun
  | @Taken slot slots token run htakes _ ih =>
      cases slot with
      | Part phrase => cases htakes
      | _ =>
          intro phrase hphrase
          obtain ⟨piece, hpiece, hreads⟩ := ih phrase hphrase
          exact ⟨piece, hpiece.trans (List.suffix_cons _ _).isInfix, hreads⟩
  | @Read first slots front back hreads _ ih =>
      refine List.forall_mem_cons.mpr ⟨⟨front, (List.prefix_append _ _).isInfix, hreads⟩, ?_⟩
      intro phrase hphrase
      obtain ⟨piece, hpiece, hreads'⟩ := ih phrase hphrase
      exact ⟨piece, hpiece.trans (List.suffix_append _ _).isInfix, hreads'⟩
  | @Missed slot slots run _ hmiss _ ih =>
      cases slot with
      | Part phrase => cases hmiss
      | _ => exact ih
  | Stray _ _ ih =>
      intro phrase hphrase
      obtain ⟨piece, hpiece, hreads⟩ := ih phrase hphrase
      exact ⟨piece, hpiece.trans (List.suffix_cons _ _).isInfix, hreads⟩

-- One phrase is read from tokens that all stand before those of the other one.
def Apart (reads : Phrase → List Token → Prop) (run : List Token) (left right : Phrase) : Prop :=
  ∃ front back piece piece', run = front ++ back ∧ piece <:+: front ∧ reads left piece ∧
    piece' <:+: back ∧ reads right piece'

theorem Apart.behind {left right : Phrase} (h : Apart reads run left right) (front : List Token) :
    Apart reads (front ++ run) left right := by
  obtain ⟨middle, back, piece, piece', rfl, hpiece, hleft, hpiece', hright⟩ := h
  exact ⟨front ++ middle, back, piece, piece', (List.append_assoc _ _ _).symm,
    hpiece.trans (List.suffix_append _ _).isInfix, hleft, hpiece', hright⟩

theorem apart (h : Fills clean reads slots run) :
    (slots.filterMap Slot.phrase?).Pairwise (Apart reads run) := by
  induction h with
  | Nil => exact .nil
  | @Taken slot slots token run htakes _ ih =>
      cases slot with
      | Part phrase => cases htakes
      | _ => exact ih.imp fun h => h.behind [token]
  | @Read first slots front back hreads hrest ih =>
      refine .cons (fun phrase hphrase => ?_) (ih.imp fun h => h.behind front)
      obtain ⟨piece, hpiece, hreads'⟩ := hrest.parts phrase hphrase
      exact ⟨front, back, front, piece, rfl, List.infix_rfl, hreads, hpiece, hreads'⟩
  | @Missed slot slots run _ hmiss _ ih =>
      cases slot with
      | Part phrase => cases hmiss
      | _ => exact ih
  | @Stray slots token run _ _ ih => exact ih.imp fun h => h.behind [token]

end Fills

namespace Phrase

variable {scene : Scene} {clean : Prop} {phrase part whole : Phrase} {run : List Token}

theorem inner_of_missing {span : Span} (h : phrase.missing? = some span) : phrase.inner = [] := by
  unfold missing? at h
  split at h
  · rfl
  · rfl
  · rfl
  · cases h

theorem span?_of_missing {span : Span} (h : phrase.missing? = some span) :
    phrase.span? = some span := by
  unfold missing? at h
  split at h
  · exact h
  · exact h
  · split at h
    · exact h
    · cases h
  · cases h

-- What is read with less care is read the same way from a clean text.
theorem ReadFrom.mono {clean' : Prop} (hclean : clean' → clean) (h : phrase.ReadFrom scene clean run) :
    phrase.ReadFrom scene clean' run := by
  refine @ReadFrom.rec scene clean (fun phrase run _ => phrase.ReadFrom scene clean' run)
    (fun slots run _ => Fills clean' (ReadFrom scene clean') slots run)
    ?whole ?missing ?nil ?taken ?read ?missed ?stray phrase run h
  case whole => exact fun hform _ hcovers hfills => .Whole hform hfills hcovers
  case missing => exact fun hunclean => .Missing fun h => hunclean (hclean h)
  case nil => exact .Nil
  case taken => exact fun htakes _ ih => .Taken htakes ih
  case read => exact fun _ _ ihPhrase ih => .Read ihPhrase ih
  case missed => exact fun hunclean hmiss _ ih => .Missed (fun h => hunclean (hclean h)) hmiss ih
  case stray => exact fun hunclean _ ih => .Stray (fun h => hunclean (hclean h)) ih

-- A phrase with a range is read from some token where the text is clean.
theorem ReadFrom.covers (h : phrase.ReadFrom scene clean run) (hclean : clean) {span : Span}
    (hspan : phrase.span? = some span) : span.Covers run := by
  cases h with
  | Whole _ _ hcovers => exact hcovers span hspan
  | Missing hunclean => exact absurd hclean hunclean

theorem ReadFrom.marks (h : phrase.ReadFrom scene clean run) (hrun : run <:+: scene.tokens) {span : Span}
    (hspan : phrase.span? = some span) : scene.Marks span := by
  cases h with
  | Whole _ _ hcovers => exact .of_covers (hcovers span hspan) hrun
  | Missing _ hmissing hmarks =>
      obtain rfl := Option.some.inj ((span?_of_missing hmissing).symm.trans hspan)
      exact hmarks

theorem ReadFrom.inner (h : whole.ReadFrom scene clean run) (hpart : part ∈ whole.inner) :
    ∃ piece, piece <:+: run ∧ part.ReadFrom scene clean piece := by
  cases h with
  | Whole hform hfills _ => exact hfills.parts part (hform.inner_eq ▸ hpart)
  | Missing _ hmissing _ =>
      rw [inner_of_missing hmissing] at hpart
      cases hpart

-- What stands in a phrase at any depth is read from tokens of that phrase.
theorem ReadFrom.within (h : whole.ReadFrom scene clean run) (hwithin : part.Within whole) :
    ∃ piece, piece <:+: run ∧ part.ReadFrom scene clean piece := by
  induction hwithin using Relation.ReflTransGen.head_induction_on with
  | refl => exact ⟨run, List.infix_rfl, h⟩
  | head hinner _ ih =>
      obtain ⟨piece, hpiece, hread⟩ := ih
      obtain ⟨piece', hpiece', hread'⟩ := hread.inner hinner
      exact ⟨piece', hpiece'.trans hpiece, hread'⟩

theorem ReadFrom.siblings (h : whole.ReadFrom scene clean run) :
    whole.inner.Pairwise (Fills.Apart (ReadFrom scene clean) run) := by
  cases h with
  | Whole hform hfills _ => exact hform.inner_eq ▸ hfills.apart
  | Missing _ hmissing _ =>
      rw [inner_of_missing hmissing]
      exact .nil

theorem ReadFrom.ne_nil (h : phrase.ReadFrom scene clean run) (hspan : phrase.span?.isSome = true)
    (hthere : clean ∨ phrase.missing? = none) : run ≠ [] := by
  obtain ⟨span, hspan⟩ := Option.isSome_iff_exists.mp hspan
  cases h with
  | Whole _ _ hcovers => exact (hcovers span hspan).ne_nil
  | Missing hunclean hmissing _ =>
      rcases hthere with hclean | hnone
      · exact absurd hclean hunclean
      · rw [hmissing] at hnone
        cases hnone

theorem filled_of_part {slots : List Slot} (h : Fills clean (ReadFrom scene clean) slots run)
    (hpart : phrase ∈ slots.filterMap Slot.phrase?) (hspan : phrase.span?.isSome = true)
    (hthere : clean ∨ phrase.missing? = none) : run ≠ [] := by
  obtain ⟨piece, hpiece, hread⟩ := h.parts phrase hpart
  rintro rfl
  exact hread.ne_nil hspan hthere (List.infix_nil.mp hpiece)

-- A statement that is read from a clean text takes some token.
theorem ReadFrom.statement_ne_nil {written : EffectLint.Statement}
    (h : (Statement written).ReadFrom scene clean run) (hclean : clean) : run ≠ [] := by
  cases h with
  | Missing hunclean => exact absurd hclean hunclean
  | Whole hform hfills _ =>
      cases hform with
      | Evaluate | Local | Nested => exact filled_of_part hfills List.mem_cons_self rfl (.inl hclean)
      | _ => exact hfills.ne_nil rfl

theorem ReadFrom.item_ne_nil {item : EffectLint.Item}
    (h : (Item item).ReadFrom scene clean run) (hclean : clean) : run ≠ [] := by
  cases h with
  | Missing hunclean => exact absurd hclean hunclean
  | Whole hform hfills _ =>
      cases hform with
      | @Function declared _ _ _ hleading =>
          exact filled_of_part hfills (List.mem_filterMap.mpr ⟨.Part (.Type declared.result),
            List.mem_append_right _ List.mem_cons_self, rfl⟩) rfl (.inl hclean)
      | Global => exact filled_of_part hfills List.mem_cons_self rfl (.inl hclean)
      | _ => exact hfills.ne_nil rfl

end Phrase

end EffectLint
