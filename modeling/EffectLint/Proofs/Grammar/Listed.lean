import EffectLint.Proofs.Grammar.Reads
import EffectLint.Proofs.Grammar.Written

/-!
Reading the lists that stand in parentheses: items with commas between them.
-/

namespace EffectLint

open Parse

namespace Grammar

theorem map_lexeme_cons {tokens : List Token} {first : Lexeme} {rest : List Lexeme}
    (h : tokens.map Token.lexeme = first :: rest) :
    ∃ token tokens', tokens = token :: tokens' ∧ token.kind = first.kind ∧
      token.text = first.text ∧ tokens'.map Token.lexeme = rest := by
  obtain ⟨token, tokens', rfl, hfirst, hrest⟩ := List.map_eq_cons_iff.mp h
  subst hfirst
  exact ⟨token, tokens', rfl, rfl, rfl, hrest⟩

theorem map_lexeme_append {tokens : List Token} {first second : List Lexeme}
    (h : tokens.map Token.lexeme = first ++ second) :
    ∃ front back, tokens = front ++ back ∧ front.map Token.lexeme = first ∧
      back.map Token.lexeme = second :=
  List.map_eq_append_iff.mp h

-- A bound for each member of a list gives one for all of them.
theorem exists_common {ι : Type} {P : Nat → ι → Prop} (hmono : ∀ {low high x}, low ≤ high →
    P low x → P high x) {items : List ι} (h : ∀ x ∈ items, ∃ need, P need x) :
    ∃ need, ∀ x ∈ items, P need x := by
  induction items with
  | nil => exact ⟨0, fun x hx => nomatch hx⟩
  | cons first rest ih =>
      obtain ⟨needFirst, hfirst⟩ := h first List.mem_cons_self
      obtain ⟨needRest, hrest⟩ := ih fun x hx => h x (List.mem_cons_of_mem _ hx)
      refine ⟨needFirst + needRest, fun x hx => ?_⟩
      rcases List.mem_cons.mp hx with rfl | hx
      · exact hmono (Nat.le_add_right _ _) hfirst
      · exact hmono (Nat.le_add_left _ _) (hrest x hx)

-- One round of reading a list: an item and the comma behind it.
def listRound {α : Type} (item : Parse α) (found : Array α) : Parse (Round (Array α) (Array α)) := do
  if ← isAt (.Sign .ParenClose) then
    return .Done found
  else if ← atEnd then
    return .Done found
  else
    let found := found.push (← item)
    if ← eat (.Sign .Comma) then
      return .Again found
    else
      return .Done found

-- What can follow an item.
def EndsItem (after : List Token) : Prop :=
  nextKind after = some (.Sign .Comma) ∨ nextKind after = some (.Sign .ParenClose)

def listed {ι : Type} (lexemes : ι → List Lexeme) : List ι → List Lexeme
  | [] => []
  | first :: rest => lexemes first ++ (Lexeme.separator rest ++ listed lexemes rest)

section

variable {ι α β : Type} {item : Parse α} {lexemes : ι → List Lexeme} {view : α → β} {key : ι → β}
  {need : Nat}

-- An item that is written out at the front of the tokens is read as what it is.
structure ReadsItem (item : Parse α) (lexemes : ι → List Lexeme) (view : α → β) (key : ι → β)
    (need : Nat) (x : ι) : Prop where
  first : ∃ first rest, lexemes x = first :: rest ∧ first.kind ≠ .Sign .ParenClose
  reads : ∀ tokens after, tokens.map Token.lexeme = lexemes x → EndsItem after →
    Reads need item (tokens ++ after) after (view · = key x)

theorem ReadsItem.mono {x : ι} {need' : Nat} (hneed : need ≤ need')
    (h : ReadsItem item lexemes view key need x) : ReadsItem item lexemes view key need' x :=
  ⟨h.first, fun tokens after htokens hafter => (h.reads tokens after htokens hafter).mono hneed⟩

theorem reads_listRound {x : ι} (h : ReadsItem item lexemes view key need x) (found : Array α)
    {tokens before after : List Token} (htokens : tokens.map Token.lexeme = lexemes x)
    (hbefore : EndsItem before) {fits : Round (Array α) (Array α) → Prop}
    (hcomma : ∀ read, view read = key x → Reads 1 (do
      if ← eat (.Sign .Comma) then return .Again (found.push read)
      else return .Done (found.push read)) before after fits) :
    Reads (need + 2) (listRound item found) (tokens ++ before) after fits := by
  obtain ⟨⟨first, rest, hfirst, hkind⟩, hreads⟩ := h
  obtain ⟨token, more, rfl, htoken, _⟩ := map_lexeme_cons (htokens.trans hfirst)
  refine (reads_isAt _ _).bind (by omega) fun closes hcloses => ?_
  rw [if_neg (by simp [hcloses, nextKind, htoken, hkind])]
  refine (reads_atEnd _).bind (by omega) fun ends hends => ?_
  rw [if_neg (by simp [hends])]
  refine (hreads _ before htokens hbefore).bind (by omega) fun read hread => ?_
  exact (hcomma read hread).mono (by omega)

theorem repeats_list {items : List ι}
    (hitems : ∀ x ∈ items, ReadsItem item lexemes view key need x)
    (found : Array α) {tokens after : List Token}
    (htokens : tokens.map Token.lexeme = listed lexemes items)
    (hafter : nextKind after = some (.Sign .ParenClose)) :
    Repeats (items.length * (need + 2) + 1) (listRound item) found (tokens ++ after) after
      fun result => result.toList.map view = found.toList.map view ++ items.map key := by
  induction items generalizing found tokens with
  | nil =>
      obtain rfl := List.map_eq_nil_iff.mp htokens
      have hround : Reads 1 (listRound item found) after after (· = .Done found) := by
        refine (reads_isAt _ _).bind (by omega) fun closes hcloses => ?_
        rw [if_pos (by simp [hcloses, hafter])]
        exact .pure rfl
      exact (Repeats.done hround (by omega) fun result hresult => ⟨found, hresult, by simp⟩).mono (by simp)
  | cons first rest ih =>
      have hfirst := hitems first List.mem_cons_self
      have hrest := fun x hx => hitems x (List.mem_cons_of_mem _ hx)
      obtain ⟨front, back, rfl, hfront, hback⟩ := map_lexeme_append htokens
      rw [List.append_assoc, List.length_cons, Nat.add_mul, Nat.one_mul]
      cases rest with
      | nil =>
          obtain rfl := List.map_eq_nil_iff.mp hback
          have hround : Reads (need + 2) (listRound item found) (front ++ after) after
              fun result => ∃ read, result = .Done (found.push read) ∧ view read = key first := by
            refine reads_listRound hfirst found hfront (.inr hafter) fun read hread => ?_
            refine (reads_eat_other (by simp [hafter])).bind (by omega) fun more hmore => ?_
            rw [if_neg (by simp [hmore])]
            exact .pure ⟨read, rfl, hread⟩
          refine (Repeats.done hround (by omega) ?_).mono (by omega)
          rintro _ ⟨read, rfl, hread⟩
          exact ⟨_, rfl, by simp [hread]⟩
      | cons second rest =>
          obtain ⟨comma, back, rfl, hcomma, _, hmore⟩ := map_lexeme_cons hback
          have hround : Reads (need + 2) (listRound item found) (front ++ comma :: (back ++ after))
              (back ++ after)
              fun result => ∃ read, result = .Again (found.push read) ∧ view read = key first := by
            have hends : EndsItem (comma :: (back ++ after)) := .inl (congrArg some hcomma)
            refine reads_listRound hfirst found hfront hends fun read hread => ?_
            refine (reads_eat hcomma _).bind (by omega) fun more hmore => ?_
            rw [if_pos hmore]
            exact .pure ⟨read, rfl, hread⟩
          refine .again hround (by omega) (by omega) ?_
          rintro _ ⟨read, rfl, hread⟩
          refine ⟨_, rfl, ((ih hrest _ hmore).mono (by omega)).imp fun result hresult => ?_⟩
          simp [hresult, hread]

end

end Grammar

end EffectLint
