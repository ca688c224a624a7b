import EffectLint.Proofs.Grammar.Written
import EffectLint.Proofs.Token.Spelling

/-!
Where written lexemes may end. A name or a number has to be followed by a character that stops it,
an operator by one that does not make it longer, and before a space everything ends.
-/

namespace EffectLint

namespace Lexeme

-- What may stand right behind a name, a number or a closing sign.
def stops : List Char :=
  [' ', '+', '-', '.', ')', ',', '(', '[', ']', ';', '*']

def Stopped (after : List Char) : Prop :=
  ∀ next ∈ after.head?, next ∈ stops

theorem stopped_cons {next : Char} {after : List Char} (h : next ∈ stops) :
    Stopped (next :: after) := by
  intro other hother
  obtain rfl := Option.some.inj hother
  exact h

theorem of_mem_stops {next : Char} (h : next ∈ stops) :
    Pattern.continuesName next = false ∧ Pattern.continuesInteger next = false ∧ next ≠ '/' := by
  have hall : stops.all (fun next => !Pattern.continuesName next && !Pattern.continuesInteger next &&
      next != '/') = true := by decide
  simpa [and_assoc] using List.all_eq_true.mp hall next h

-- The characters that a name, a number or a quoted text starts with.
def startsWord (char : Char) : Bool :=
  Pattern.startsName char || char.isDigit || char == '"'

-- What starts like a name is not made longer by a character that stops it.
theorem not_continued {first next : Char} {rest : List Char} (hfirst : startsWord first = true)
    (hnext : Pattern.continuesName next = false) :
    next ∉ TokenKind.continuations (first :: rest) := by
  intro hcontinued
  obtain ⟨extra, hspelling⟩ := TokenKind.exists_of_mem_continuations hcontinued
  have hshape := isSpelled_of_mem hspelling
  simp only [List.cons_append, isSpelled, Bool.and_eq_true, Bool.not_eq_true', Bool.or_eq_true,
    bne_iff_ne, List.all_append, List.all_cons] at hshape
  obtain ⟨_, ⟨⟨hquote, hdigit⟩, _⟩, hname⟩ := hshape
  simp only [startsWord, Bool.or_eq_true, beq_iff_eq] at hfirst
  rcases hfirst with (hfirst | hfirst) | hfirst
  · rw [hfirst] at hname
    simp [hnext] at hname
  · rw [hfirst] at hdigit
    cases hdigit
  · exact hquote hfirst

theorem parts_of_word {first next : Char} {rest : List Char} (hfirst : startsWord first = true)
    (hnext : next ∈ stops) : Parts (first :: rest) next := by
  obtain ⟨hname, hinteger, _⟩ := of_mem_stops hnext
  refine ⟨fun _ _ _ => hname, fun _ _ _ => hinteger, not_continued hfirst hname, fun heq => ?_⟩
  obtain ⟨rfl, _⟩ := List.cons.inj heq
  exact absurd hfirst (by decide)

-- No rule takes a space along, but for blanks, comments and quoted texts.
theorem parts_space (front : List Char) : Parts front ' ' := by
  refine ⟨fun _ _ _ => by decide, fun _ _ _ => by decide, ?_, fun _ => by decide⟩
  intro hcontinued
  obtain ⟨extra, hspelling⟩ := TokenKind.exists_of_mem_continuations hcontinued
  have hshape := isSpelled_of_mem hspelling
  simp [isSpelled] at hshape

theorem parts_of_sign {sign : Sign} {next : Char} (hsign : sign ≠ .Slash)
    (hnext : next ∉ TokenKind.continuations sign.spelling.toList) :
    Parts sign.spelling.toList next := by
  have hall : sign.spelling.toList.head?.all
      (fun first => !Pattern.startsName first && !first.isDigit) = true := by
    cases sign <;> decide
  have hfirst : ∀ first ∈ sign.spelling.toList.head?,
      Pattern.startsName first = false ∧ first.isDigit = false := by
    intro first hmem
    rw [Option.mem_def.mp hmem, Option.all_some] at hall
    simpa using hall
  refine ⟨?_, ?_, hnext, ?_⟩
  · intro first hmem hname
    rw [(hfirst first hmem).1] at hname
    cases hname
  · intro first hmem hdigit
    rw [(hfirst first hmem).2] at hdigit
    cases hdigit
  · intro heq
    exfalso
    revert hsign heq
    cases sign <;> decide

theorem valid_sign (value : Sign) : (sign value).Valid :=
  valid_of_fixed (.Sign value) (by cases value <;> decide) _ rfl

theorem valid_word (value : Keyword) : (word value).Valid :=
  valid_of_fixed (.Word value) (by cases value <;> decide) _ rfl

theorem valid_basic (type : BasicType) : (basic type).Valid :=
  valid_of_fixed (.Basic type) (by cases type <;> decide) _ rfl

theorem valid_assign (op : AssignOp) : (assign op).Valid :=
  valid_of_fixed (.Assign op) (by cases op <;> decide) _ rfl

-- A number is read by no other rule than the one for numbers.
theorem valid_integer (value : Nat) : (integer value).Valid := by
  have htext : (toString value).toList = Nat.toDigits 10 value := by
    rw [Nat.toString_eq_ofList_toDigits, String.toList_ofList]
  have hdigits : ∀ char ∈ Nat.toDigits 10 value, char.isDigit = true :=
    fun char hchar => Nat.isDigit_of_mem_toDigits (by decide) (by decide) hchar
  obtain ⟨first, rest, hcons⟩ := List.exists_cons_of_ne_nil (@Nat.toDigits_ne_nil value 10)
  rw [hcons] at htext hdigits
  have hfirst : first.isDigit = true := hdigits first List.mem_cons_self
  obtain ⟨hblank, hslash, hquote, hname⟩ := of_isDigit hfirst
  have hmatch : Pattern.Matches .integer (toString value).toList := by
    refine Pattern.matches_integer.mpr ⟨first, rest, htext, hfirst, fun other hother => ?_⟩
    rw [Pattern.continuesInteger, hdigits other (List.mem_cons_of_mem _ hother)]
    rfl
  have hnoComment : ¬∃ others, (toString value).toList = '/' :: '/' :: others ∨
      (toString value).toList = '/' :: '*' :: others := by
    rintro ⟨others, heq | heq⟩ <;>
    · rw [htext] at heq
      exact hslash (List.cons.inj heq).1
  have hall : ∀ rule ∈ Rule.all, rule.pattern.Matches (toString value).toList →
      rule.kind = some .Integer := by
    refine Rule.forall_mem_all.mpr ⟨⟨?_, ?_, ?_⟩, ?_, ?_, ?_, ?_⟩
    · intro h
      obtain ⟨char, others, heq, hchar, _⟩ := Pattern.matches_whitespace.mp h
      obtain ⟨rfl, _⟩ := List.cons.inj (htext.symm.trans heq)
      rw [hblank] at hchar
      cases hchar
    · exact fun h => absurd (Pattern.starts_of_comment (.inl h)) hnoComment
    · exact fun h => absurd (Pattern.starts_of_comment (.inr h)) hnoComment
    · intro kind hfixed h
      obtain ⟨spelling, hspelling, hpattern⟩ := TokenKind.spelling?_of_fixed hfixed
      rw [TokenKind.rule, hpattern, Pattern.matches_literal] at h
      have hshape := isSpelled_of_mem (TokenKind.mem_spellings.mpr ⟨kind, hfixed, _, hspelling, rfl⟩)
      rw [← h, htext] at hshape
      simp [isSpelled, hfirst] at hshape
    · intro h
      obtain ⟨char, others, heq, hchar, _⟩ := Pattern.matches_identifier.mp h
      obtain ⟨rfl, _⟩ := List.cons.inj (htext.symm.trans heq)
      rw [hname] at hchar
      cases hchar
    · exact fun _ => rfl
    · intro h
      obtain ⟨others, heq, _⟩ := Pattern.matches_text.mp h
      exact absurd (List.cons.inj (htext.symm.trans heq)).1 hquote
  cases hrule : Rule.first? Rule.all (toString value).toList with
  | none => exact absurd hmatch (Rule.forall_mem_all.mp (Rule.first?_eq_none_iff.mp hrule)).2.2.2.1
  | some kind =>
      obtain ⟨rule, hfound, rfl⟩ := Option.map_eq_some_iff.mp hrule
      have haccepts : rule.pattern.accepts (toString value).toList = true := by
        simpa using List.find?_some hfound
      have hkind := hall rule (List.mem_of_find?_eq_some hfound)
        ((Pattern.accepts_iff _ _).mp haccepts)
      rw [Valid, integer, hrule, hkind]

-- How a text of lexemes begins, so that it may stand behind a space and most operators.
def Begins (text : List Char) : Prop :=
  ∃ first rest, text = first :: rest ∧ Pattern.isBlank first = false ∧ first ≠ '='

theorem Begins.append {front : List Char} (h : Begins front) (back : List Char) :
    Begins (front ++ back) := by
  obtain ⟨first, rest, rfl, hfirst⟩ := h
  exact ⟨first, rest ++ back, rfl, hfirst⟩

theorem Begins.next {text after : List Char} (h : Begins text) :
    ∀ next ∈ (text ++ after).head?, Pattern.isBlank next = false ∧ next ≠ '=' := by
  obtain ⟨first, rest, rfl, hfirst⟩ := h
  intro next hnext
  obtain rfl := Option.some.inj hnext
  exact hfirst

-- Lexemes written out from their first character on.
structure Writes (after : List Char) (lexemes : List Lexeme) (text : List Char) : Prop where
  spells : Spells after lexemes text
  begins : Begins text

namespace Writes

variable {after front back text : List Char} {first second lexemes : List Lexeme}

theorem append (hfirst : Writes (back ++ after) first front) (hsecond : Spells after second back) :
    Writes after (first ++ second) (front ++ back) :=
  ⟨hfirst.spells.append hsecond, hfirst.begins.append back⟩

theorem space (h : Writes after lexemes text) : Spells after lexemes (' ' :: text) :=
  .Space (fun next hnext => (h.begins.next next hnext).1) h.spells

theorem one {lexeme : Lexeme} (hvalid : lexeme.Valid) (hbegins : Begins lexeme.text.toList)
    (hparts : ∀ next ∈ after.head?, Parts lexeme.text.toList next) :
    Writes after [lexeme] lexeme.text.toList := by
  refine ⟨?_, hbegins⟩
  rw [← List.append_nil lexeme.text.toList]
  exact .Cons hvalid hparts .Nil

-- Names, numbers, quoted texts and words.
theorem word {lexeme : Lexeme} (hvalid : lexeme.Valid) {initial : Char} {rest : List Char}
    (htext : lexeme.text.toList = initial :: rest) (hinitial : startsWord initial = true)
    (hafter : Stopped after) : Writes after [lexeme] lexeme.text.toList := by
  refine one hvalid ⟨initial, rest, htext, ?_, ?_⟩ fun next hnext => ?_
  · simp only [startsWord, Bool.or_eq_true, beq_iff_eq] at hinitial
    rcases hinitial with (hname | hdigit) | rfl
    · exact (of_startsName hname).1
    · exact (of_isDigit hdigit).1
    · decide
  · rintro rfl
    exact absurd hinitial (by decide)
  · rw [htext]
    exact parts_of_word hinitial (hafter next hnext)

theorem name {text : String} (hvalid : (Lexeme.name text).Valid) (hafter : Stopped after) :
    Writes after [Lexeme.name text] text.toList := by
  cases hvalid.form with
  | Spelled hfixed _ => simp [Lexeme.name, TokenKind.fixed] at hfixed
  | Name _ hname =>
      obtain ⟨first, rest, htext, hfirst, _⟩ := Pattern.matches_identifier.mp hname
      exact word hvalid htext (by simp [startsWord, hfirst]) hafter
  | Number hkind _ => cases hkind
  | Quoted hkind _ => cases hkind

theorem integer (value : Nat) (hafter : Stopped after) :
    Writes after [Lexeme.integer value] (toString value).toList := by
  have hvalid := valid_integer value
  cases hvalid.form with
  | Spelled hfixed _ => simp [Lexeme.integer, TokenKind.fixed] at hfixed
  | Name hkind _ => cases hkind
  | Number _ hnumber =>
      obtain ⟨first, rest, htext, hfirst, _⟩ := Pattern.matches_integer.mp hnumber
      exact word hvalid htext (by simp [startsWord, hfirst]) hafter
  | Quoted hkind _ => cases hkind

theorem quoted {text : String} (hvalid : (Lexeme.quoted text).Valid) (hafter : Stopped after) :
    Writes after [Lexeme.quoted text] (Lexeme.quoted text).text.toList := by
  cases hvalid.form with
  | Spelled hfixed _ => simp [Lexeme.quoted, TokenKind.fixed] at hfixed
  | Name hkind _ => cases hkind
  | Number hkind _ => cases hkind
  | Quoted _ hquoted =>
      obtain ⟨rest, htext, _⟩ := Pattern.matches_text.mp hquoted
      exact word hvalid htext (by decide) hafter

theorem keyword (value : Keyword) (hafter : Stopped after) :
    Writes after [Lexeme.word value] value.spelling.toList := by
  have hfirst : ∃ first rest, value.spelling.toList = first :: rest ∧ startsWord first = true := by
    cases value <;> exact ⟨_, _, rfl, rfl⟩
  obtain ⟨first, rest, htext, hfirst⟩ := hfirst
  exact word (valid_word value) htext hfirst hafter

theorem basic (type : BasicType) (hafter : Stopped after) :
    Writes after [Lexeme.basic type] type.name.toList := by
  have hfirst : ∃ first rest, type.name.toList = first :: rest ∧ startsWord first = true := by
    cases type <;> exact ⟨_, _, rfl, rfl⟩
  obtain ⟨first, rest, htext, hfirst⟩ := hfirst
  exact word (valid_basic type) htext hfirst hafter

end Writes

-- The signs that nothing makes longer.
def closedSigns : List Sign :=
  [.ParenOpen, .ParenClose, .BracketOpen, .BracketClose, .BraceOpen, .BraceClose, .Comma,
    .Semicolon, .Dot, .PlusPlus, .MinusMinus]

theorem continuations_closed : ∀ sign ∈ closedSigns,
    TokenKind.continuations sign.spelling.toList = [] := by
  decide +kernel

-- The signs in front of an operand. Each is made longer by `=` and by itself at most.
def prefixSigns : List Sign :=
  [.Minus, .Plus, .Bang, .Tilde, .Star, .Ampersand]

theorem continuations_prefix : ∀ sign ∈ prefixSigns,
    ∀ next ∈ TokenKind.continuations sign.spelling.toList,
      next = '=' ∨ sign ∈ [Sign.Minus, .Plus, .Ampersand] ∧ sign.spelling.toList = [next] := by
  have hall : prefixSigns.all (fun sign => (TokenKind.continuations sign.spelling.toList).all
      fun next => next == '=' ||
        decide (sign ∈ [Sign.Minus, .Plus, .Ampersand] ∧ sign.spelling.toList = [next])) = true := by
    decide +kernel
  intro sign hsign next hnext
  simpa using List.all_eq_true.mp (List.all_eq_true.mp hall sign hsign) next hnext

theorem begins_sign {value : Sign} (h : value ∈ closedSigns ∨ value ∈ prefixSigns) :
    Begins value.spelling.toList := by
  have hall : (closedSigns ++ prefixSigns).all (fun value => value.spelling.toList.head?.all
      fun first => !Pattern.isBlank first && first != '=') = true := by decide
  obtain ⟨first, rest, htext, _⟩ := (valid_sign value).first
  have htext : value.spelling.toList = first :: rest := htext
  have hshape := List.all_eq_true.mp hall value (List.mem_append.mpr h)
  rw [htext, List.head?_cons, Option.all_some] at hshape
  exact ⟨first, rest, htext, by simpa using hshape⟩

section

variable {after text : List Char} {lexemes : List Lexeme}

theorem Spells.closed {value : Sign} (hvalue : value ∈ closedSigns) (h : Spells after lexemes text) :
    Spells after (sign value :: lexemes) (value.spelling.toList ++ text) := by
  have hslash : value ≠ .Slash := by
    rintro rfl
    revert hvalue
    decide
  refine .Cons (valid_sign value) (fun next _ => ?_) h
  refine parts_of_sign hslash ?_
  rw [continuations_closed value hvalue]
  exact List.not_mem_nil

theorem Spells.last {value : Sign} (hvalue : value ∈ closedSigns) :
    Spells after [sign value] value.spelling.toList := by
  rw [← List.append_nil value.spelling.toList]
  exact .closed hvalue .Nil

-- A sign right in front of its operand.
theorem Writes.leading {value : Sign} (hvalue : value ∈ prefixSigns) (h : Writes after lexemes text)
    (hapart : value ∈ [Sign.Minus, .Plus, .Ampersand] → ¬value.spelling.toList <+: text) :
    Writes after (sign value :: lexemes) (value.spelling.toList ++ text) := by
  have hslash : value ≠ .Slash := by
    rintro rfl
    revert hvalue
    decide
  refine ⟨.Cons (valid_sign value) (fun next hnext => ?_) h.spells, ?_⟩
  · refine parts_of_sign hslash fun hcontinued => ?_
    rcases continuations_prefix value hvalue next hcontinued with rfl | ⟨hself, hspelling⟩
    · exact (h.begins.next _ hnext).2 rfl
    · obtain ⟨first, rest, rfl, _⟩ := h.begins
      obtain rfl := Option.some.inj hnext
      exact hapart hself (hspelling ▸ ⟨rest, rfl⟩)
  · exact (begins_sign (.inr hvalue)).append text

-- The sign of a pointer stands behind its target.
theorem Spells.star (hafter : Stopped after) : Spells after [sign .Star] ['*'] := by
  have hparts : ∀ next ∈ after.head?, Parts Sign.Star.spelling.toList next := by
    intro next hnext
    refine parts_of_sign (by decide) fun hcontinued => ?_
    rcases continuations_prefix .Star (by decide) next hcontinued with rfl | ⟨hself, _⟩
    · exact absurd (hafter _ hnext) (by decide)
    · exact absurd hself (by decide)
  exact .Cons (valid_sign .Star) hparts .Nil

theorem Writes.enclosed {opening : Sign} (hopening : opening ∈ closedSigns)
    (h : Spells after lexemes text) :
    Writes after (sign opening :: lexemes) (opening.spelling.toList ++ text) :=
  ⟨.closed hopening h, (begins_sign (.inl hopening)).append text⟩

theorem Writes.parens (h : Writes (')' :: after) lexemes text) :
    Writes after (sign .ParenOpen :: (lexemes ++ [sign .ParenClose]))
      ('(' :: (text ++ [')'])) := by
  have hclose : Spells after [sign .ParenClose] [')'] := .last (by decide)
  exact .enclosed (by decide) (Writes.append h hclose).spells

-- A word right in front of a list in parentheses.
theorem Writes.opening (value : Keyword) (h : Spells after lexemes text) :
    Writes after (Lexeme.word value :: sign .ParenOpen :: lexemes)
      (value.spelling.toList ++ '(' :: text) := by
  have hopen : Spells after (sign .ParenOpen :: lexemes) ('(' :: text) := .closed (by decide) h
  exact Writes.append (.keyword value (stopped_cons (by decide))) hopen

-- What stands between two spaces.
structure Middle (lexemes : List Lexeme) (text : List Char) : Prop where
  spells : ∀ after, Spells (' ' :: after) lexemes text
  begins : ∃ first rest, text = first :: rest ∧ Pattern.isBlank first = false

theorem Valid.middle {lexeme : Lexeme} (h : lexeme.Valid) : Middle [lexeme] lexeme.text.toList := by
  obtain ⟨first, rest, htext, hblank, _⟩ := h.first
  refine ⟨fun after => ?_, first, rest, htext, hblank⟩
  rw [← List.append_nil lexeme.text.toList]
  refine .Cons h (fun next hnext => ?_) .Nil
  obtain rfl := Option.some.inj hnext
  exact parts_space _

theorem Writes.between {left middle right : List Lexeme} {front op back : List Char}
    (hleft : Writes (' ' :: (op ++ ' ' :: (back ++ after))) left front) (hop : Middle middle op)
    (hright : Writes after right back) :
    Writes after (left ++ (middle ++ right)) (front ++ ' ' :: (op ++ ' ' :: back)) := by
  obtain ⟨first, rest, rfl, hblank⟩ := hop.begins
  have hback : Spells after (middle ++ right) (first :: rest ++ ' ' :: back) :=
    (hop.spells (back ++ after)).append hright.space
  refine Writes.append (by simpa using hleft) (.Space (fun next hnext => ?_) hback)
  obtain rfl := Option.some.inj hnext
  exact hblank

-- The lexemes of items with commas between them.
def listed {α : Type} (write : α → List Lexeme) : List α → List Lexeme
  | [] => []
  | first :: rest => write first ++ (separator rest ++ listed write rest)

theorem writes_listed {α : Type} {write : α → List Lexeme} {text : α → String} {first : α}
    {rest : List α}
    (hitems : ∀ item ∈ first :: rest, ∀ after, Stopped after →
      Writes after (write item) (text item).toList) (hafter : Stopped after) :
    Writes after (listed write (first :: rest))
      (String.intercalate ", " ((first :: rest).map text)).toList := by
  induction rest generalizing first with
  | nil => simpa [listed, separator] using hitems first List.mem_cons_self after hafter
  | cons second rest ih =>
      have hrest := ih fun item hmem => hitems item (List.mem_cons_of_mem _ hmem)
      have hfirst := hitems first List.mem_cons_self
        (',' :: ' ' :: ((String.intercalate ", " ((second :: rest).map text)).toList ++ after))
        (stopped_cons (by decide))
      have hcomma := @Spells.closed _ _ _ .Comma (by decide) hrest.space
      have hall := @Writes.append after _ _ _ _ hfirst hcomma
      simpa [listed, separator, String.intercalate_cons_cons, Sign.spelling] using hall

theorem spells_listed {α : Type} {write : α → List Lexeme} {text : α → String} {items : List α}
    (hitems : ∀ item ∈ items, ∀ after, Stopped after → Writes after (write item) (text item).toList)
    (hafter : Stopped after) :
    Spells after (listed write items) (String.intercalate ", " (items.map text)).toList := by
  cases items with
  | nil => simpa [listed] using Spells.Nil
  | cons first rest => exact (writes_listed hitems hafter).spells

end

end Lexeme

end EffectLint
