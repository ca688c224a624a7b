import EffectLint.Proofs.Grammar.Written
import EffectLint.Proofs.Token.Ends

/-!
Lexemes written with spaces between them. A tree whose names, numbers and quoted texts are read as
what they are is made of lexemes that are, and a space keeps any two of them apart. So does a text
that is written anew from its tokens hold the same tokens.
-/

namespace EffectLint

namespace Lexeme

def AllValid (lexemes : List Lexeme) : Prop :=
  ∀ lexeme ∈ lexemes, lexeme.Valid

@[simp] theorem allValid_nil : AllValid [] :=
  fun _ h => nomatch h

@[simp] theorem allValid_cons {first : Lexeme} {rest : List Lexeme} :
    AllValid (first :: rest) ↔ first.Valid ∧ AllValid rest :=
  List.forall_mem_cons

@[simp] theorem allValid_append {first second : List Lexeme} :
    AllValid (first ++ second) ↔ AllValid first ∧ AllValid second :=
  List.forall_mem_append

attribute [simp] valid_sign valid_word valid_basic valid_assign valid_integer

@[simp] theorem allValid_separator {α : Type} (rest : List α) : AllValid (separator rest) := by
  cases rest <;> simp [separator]

@[simp] theorem valid_step (op : StepOp) : op.lexeme.Valid := by
  cases op <;> simp [StepOp.lexeme]

@[simp] theorem valid_leading (op : LeadingOp) : op.lexeme.Valid := by
  rcases op with op | _ | _ | _ | op
  · cases op <;> simp [LeadingOp.lexeme]
  all_goals simp [LeadingOp.lexeme]

@[simp] theorem valid_store (op : Option AssignOp) : (storeLexeme op).Valid := by
  cases op <;> simp [storeLexeme]

@[simp] theorem allValid_connective (op : Connective) : AllValid op.lexemes := by
  rcases op with op | _ | _ | _
  · cases op <;> simp [Connective.lexemes, BinaryOp.lexemes]
  all_goals simp [Connective.lexemes]

@[simp] theorem allValid_promises (promises : Promises) : AllValid promises.lexemes := by
  obtain ⟨isPure, isNothrow⟩ := promises
  cases isPure <;> cases isNothrow <;> simp [Promises.lexemes]

-- The names that a member and a trait are known by.
@[simp] theorem valid_remove : (name "remove").Valid := by decide +kernel

@[simp] theorem valid_compiles : (name "compiles").Valid := by decide +kernel

def spaced : List Lexeme → List Char
  | [] => []
  | [last] => last.text.toList
  | first :: second :: rest => first.text.toList ++ ' ' :: spaced (second :: rest)

theorem spells_spaced : ∀ {lexemes : List Lexeme}, AllValid lexemes → Spells [] lexemes (spaced lexemes)
  | [], _ => .Nil
  | [last], hvalid => by
      rw [spaced, ← List.append_nil last.text.toList]
      exact .Cons (hvalid last List.mem_cons_self) (fun _ hnext => nomatch hnext) .Nil
  | first :: second :: rest, hvalid => by
      obtain ⟨hfirst, hrest⟩ := allValid_cons.mp hvalid
      have hbehind := spells_spaced hrest
      refine .Cons hfirst (fun next hnext => ?_) (.Space (fun next hnext => ?_) hbehind)
      · obtain rfl := Option.some.inj hnext
        exact parts_space _
      · obtain ⟨initial, others, htext, hblank, _⟩ := (hrest second List.mem_cons_self).first
        have hstarts : ∃ more, spaced (second :: rest) = initial :: more := by
          cases rest with
          | nil => exact ⟨others, htext⟩
          | cons third rest => exact ⟨_, by rw [spaced, htext]; rfl⟩
        obtain ⟨more, hstarts⟩ := hstarts
        rw [hstarts] at hnext
        obtain rfl := Option.some.inj hnext
        exact hblank

theorem lex_spaced {lexemes : List Lexeme} (h : AllValid lexemes) :
    (lex (spaced lexemes)).map Token.lexeme = lexemes :=
  lexemes_of_spells (spells_spaced h)

theorem intercalate_texts (lexemes : List Lexeme) :
    (" ".intercalate (lexemes.map Lexeme.text)).toList = spaced lexemes := by
  rw [String.toList_intercalate, List.map_map]
  induction lexemes using spaced.induct with
  | case1 => rfl
  | case2 last => exact List.append_nil _
  | case3 first second rest ih =>
      rw [spaced, ← ih]
      rfl

end Lexeme

-- A text in which everything is known can be written anew from its tokens, with one space between
-- any two of them.
theorem lex_joined_texts (source : List Char) (hknown : ∀ token ∈ lex source, token.kind ≠ .Garbage) :
    (lex (" ".intercalate ((lex source).map Token.text)).toList).map Token.lexeme =
      (lex source).map Token.lexeme := by
  have hvalid : Lexeme.AllValid ((lex source).map Token.lexeme) :=
    List.forall_mem_map.mpr fun token hmem => lex_sound source token hmem (hknown token hmem)
  have htexts : (lex source).map Token.text = ((lex source).map Token.lexeme).map Lexeme.text := by
    rw [List.map_map]
    rfl
  rw [htexts, Lexeme.intercalate_texts, Lexeme.lex_spaced hvalid]

-- A comment that never ends is read as its signs and words, and once they stand apart it is none.
theorem lex_joined_texts_unclosed :
    (∀ token ∈ lex "x/*\"a b\"\n/**".toList, token.kind ≠ .Garbage) ∧
    (lex "x / * \"a b\" / * *".toList).map Token.lexeme =
      (lex "x/*\"a b\"\n/**".toList).map Token.lexeme := by
  have hknown : ∀ token ∈ lex "x/*\"a b\"\n/**".toList, token.kind ≠ .Garbage := by decide +kernel
  have hjoined : (" ".intercalate ((lex "x/*\"a b\"\n/**".toList).map Token.text)).toList =
      "x / * \"a b\" / * *".toList := by decide +kernel
  have hagain := lex_joined_texts _ hknown
  rw [hjoined] at hagain
  exact ⟨hknown, hagain⟩

open Lexeme

theorem TypeTree.allValid_parameterLexemes {parameters : List (Parameter TypeTree)}
    (htypes : ∀ parameter ∈ parameters, AllValid parameter.type.lexemes)
    (hnames : ∀ parameter ∈ parameters, ∀ name ∈ parameter.name, (Lexeme.name name.text).Valid) :
    AllValid (TypeTree.parameterLexemes parameters) := by
  induction parameters with
  | nil => simp [TypeTree.parameterLexemes]
  | cons first rest ih =>
      obtain ⟨isRef, type, name⟩ := first
      obtain ⟨htype, hrestTypes⟩ := List.forall_mem_cons.mp htypes
      obtain ⟨hname, hrestNames⟩ := List.forall_mem_cons.mp hnames
      have hnamed : AllValid (name.toList.map (Lexeme.name ·.text)) := by
        cases name with
        | none => simp
        | some name => simpa using hname name rfl
      have htype : AllValid type.lexemes := htype
      cases isRef <;> simp [TypeTree.parameterLexemes, htype, hnamed,
        ih hrestTypes hrestNames]

theorem TypeTree.WellWritten.allValid {type : TypeTree} (h : type.WellWritten) :
    AllValid type.lexemes := by
  induction h with
  | Basic => simp [TypeTree.lexemes]
  | Named hname => simpa [TypeTree.lexemes] using hname
  | Pointer _ ih => simp [TypeTree.lexemes, ih]
  | Array _ ih => simp [TypeTree.lexemes, ih]
  | AssocArray _ _ ihValue ihKey => simp [TypeTree.lexemes, ihValue, ihKey]
  | Callable _ _ hnames ihResult ihParameters =>
      simp [TypeTree.lexemes, ihResult, allValid_parameterLexemes ihParameters hnames]

namespace Expr

theorem allValid_listLexemes {exprs : List Expr} (h : ∀ expr ∈ exprs, AllValid expr.lexemes) :
    AllValid (listLexemes exprs) := by
  induction exprs with
  | nil => simp [listLexemes]
  | cons first rest ih =>
      obtain ⟨hfirst, hrest⟩ := List.forall_mem_cons.mp h
      simp [listLexemes, hfirst, ih hrest]

theorem Neat.allValid {expr : Expr} (h : expr.Neat) : AllValid expr.lexemes := by
  induction h with
  | @intro whole hwritten _ _ ih =>
      have hpart : ∀ {level part}, (level, part) ∈ whole.places → AllValid part.lexemes :=
        fun hmem => ih _ hmem
      cases whole with
      | Identifier span text | Text span text | New span target =>
          simpa [lexemes, WellWritten] using hwritten
      | Integer span value | Boolean span value | Null span | NewAnonymous span => simp [lexemes]
      | Binary span op left right =>
          by_cases hop : op = .Value .Pow <;>
            simp_all [lexemes, places]
      | Call span callee arguments =>
          have harguments : ∀ argument ∈ arguments, AllValid argument.lexemes :=
            fun argument hmem => @hpart Level.assign argument (by simp [places, hmem])
          have hcallee := @hpart Level.attached callee (by simp [places])
          simp [lexemes, hcallee, allValid_listLexemes harguments]
      | Tuple span elements =>
          have helements : ∀ element ∈ elements, AllValid element.lexemes :=
            fun element hmem => @hpart Level.assign element (by simp [places, hmem])
          simp [lexemes, allValid_listLexemes helements]
      | Assert span condition message => cases message <;> simp_all [lexemes, places]
      | Cast span type operand =>
          have htype : AllValid type.lexemes := TypeTree.WellWritten.allValid hwritten
          simp_all [lexemes, places]
      | Declare span declared value => simp_all [lexemes, places, WellWritten]
      | Error span => exact hwritten.elim
      | _ => simp_all [lexemes, places]

end Expr

end EffectLint
