import EffectLint.Proofs.Grammar.Attached
import EffectLint.Proofs.Grammar.Infix
import EffectLint.Proofs.Grammar.Prefix

/-!
Reading a neat expression that is written out gives the expression back. By induction on the
expression: what a level does not read as its own it leaves to the next one.
-/

namespace EffectLint

open Parse

namespace Grammar

-- How a neat expression starts. What is attached or primary starts with no prefix operator.
structure Opens (whole : Expr) (first : Lexeme) : Prop where
  notClose : first.kind ≠ .Sign .ParenClose
  notSemicolon : first.kind ≠ .Sign .Semicolon
  operand : Level.attached ≤ whole.level → StartsOperand first

def Opened (whole : Expr) : Prop :=
  ∃ first rest, whole.lexemes = first :: rest ∧ Opens whole first

theorem opened_of_left {inner outer : Expr} {behind : List Lexeme} (hinner : Opened inner)
    (hlexemes : outer.lexemes = inner.lexemes ++ behind)
    (hlevel : outer.level < Level.attached ∨ Level.attached ≤ inner.level) : Opened outer := by
  obtain ⟨first, rest, hfirst, hopens⟩ := hinner
  refine ⟨first, rest ++ behind, by rw [hlexemes, hfirst, List.cons_append], ?_⟩
  refine ⟨hopens.notClose, hopens.notSemicolon, fun h => hopens.operand ?_⟩
  omega

-- What stands in front of its operand starts with any word or operator but no closing sign.
theorem opened_of_prefix {whole : Expr} {first : Lexeme} {rest : List Lexeme}
    (hlexemes : whole.lexemes = first :: rest) (hlevel : whole.level < Level.attached)
    (hfirst : first.kind ≠ .Sign .ParenClose ∧ first.kind ≠ .Sign .Semicolon) : Opened whole :=
  ⟨first, rest, hlexemes, hfirst.1, hfirst.2, fun h => absurd hlevel (Nat.not_lt.mpr h)⟩

def opensPrimary : TokenKind → Bool
  | .Identifier | .Integer | .Text | .Word .True | .Word .False | .Word .Null | .Sign .ParenOpen
  | .Word .Tuple | .Word .Assert | .Word .Auto | .Word .Traits => true
  | _ => false

theorem opened_of_primary {whole : Expr} {first : Lexeme} {rest : List Lexeme}
    (hlexemes : whole.lexemes = first :: rest) (hfirst : opensPrimary first.kind = true) :
    Opened whole := by
  refine ⟨first, rest, hlexemes, ?_⟩
  unfold opensPrimary at hfirst
  split at hfirst
  case h_12 => exact absurd hfirst Bool.false_ne_true
  all_goals
    next hkind =>
      constructor
      case notClose => simp [hkind]
      case notSemicolon => simp [hkind]
      case operand => simp [StartsOperand, leadingOp?, hkind]

theorem level_lt_attached (op : Connective) : op.level < Level.attached := by
  by_cases hop : op = .Value .Pow
  · rw [hop]
    decide
  · exact Nat.lt_of_le_of_lt (level_le hop) (by decide)

theorem opened_of_neat {whole : Expr} (h : whole.Neat) : Opened whole := by
  induction h with
  | @intro whole hwritten hplaces hneat ih =>
      cases whole with
      | Identifier span text => exact opened_of_primary (by rw [Expr.lexemes]) rfl
      | Integer span value => exact opened_of_primary (by rw [Expr.lexemes]) rfl
      | Text span text => exact opened_of_primary (by rw [Expr.lexemes]) rfl
      | Boolean span value =>
          cases value <;> exact opened_of_primary (by rw [Expr.lexemes]) rfl
      | Null span => exact opened_of_primary (by rw [Expr.lexemes]) rfl
      | Paren span inner => exact opened_of_primary (by rw [Expr.lexemes]) rfl
      | Binary span op left right =>
          have hleft : Opened left := by
            by_cases hop : op = .Value .Pow
            · exact ih (Level.attached, left) (by simp [Expr.places, hop])
            · exact ih (op.level, left) (by simp [Expr.places, hop])
          exact opened_of_left hleft (by rw [Expr.lexemes]) (.inl (level_lt_attached op))
      | Assign span op target value =>
          have htarget := ih (Level.conditional, target) (by simp [Expr.places])
          exact opened_of_left htarget (by rw [Expr.lexemes]) (.inl (by rw [Expr.level]; decide))
      | Conditional span condition yes no =>
          have hcondition := ih (Level.orOr, condition) (by simp [Expr.places])
          exact opened_of_left hcondition (by rw [Expr.lexemes]) (.inl (by rw [Expr.level]; decide))
      | Comma span first second =>
          have hfirst := ih (Level.comma, first) (by simp [Expr.places])
          exact opened_of_left hfirst (by rw [Expr.lexemes]) (.inl (by rw [Expr.level]; decide))
      | Leading span op operand =>
          refine opened_of_prefix (by rw [Expr.lexemes]) (by rw [Expr.level]; decide) ?_
          rcases op with op | _ | _ | _ | op <;> first | decide | (cases op <;> decide)
      | Step span op operand =>
          have hoperand := ih (Level.attached, operand) (by simp [Expr.places])
          have hlevel := hplaces (Level.attached, operand) (by simp [Expr.places])
          exact opened_of_left hoperand (by rw [Expr.lexemes]) (.inr hlevel)
      | Cast span type operand =>
          exact opened_of_prefix (by rw [Expr.lexemes]) (by rw [Expr.level]; decide) (by decide)
      | New span target =>
          exact opened_of_prefix (by rw [Expr.lexemes]) (by rw [Expr.level]; decide) (by decide)
      | NewAnonymous span =>
          exact opened_of_prefix (by rw [Expr.lexemes]) (by rw [Expr.level]; decide) (by decide)
      | Call span callee arguments =>
          have hcallee := ih (Level.attached, callee) (by simp [Expr.places])
          have hlevel := hplaces (Level.attached, callee) (by simp [Expr.places])
          exact opened_of_left hcallee (by rw [Expr.lexemes]) (.inr hlevel)
      | Index span base index =>
          have hbase := ih (Level.attached, base) (by simp [Expr.places])
          have hlevel := hplaces (Level.attached, base) (by simp [Expr.places])
          exact opened_of_left hbase (by rw [Expr.lexemes]) (.inr hlevel)
      | Remove span container key =>
          have hcontainer := ih (Level.attached, container) (by simp [Expr.places])
          have hlevel := hplaces (Level.attached, container) (by simp [Expr.places])
          exact opened_of_left hcontainer (by rw [Expr.lexemes]) (.inr hlevel)
      | Tuple span elements => exact opened_of_primary (by rw [Expr.lexemes]) rfl
      | Assert span condition message =>
          cases message <;> exact opened_of_primary (by rw [Expr.lexemes]) rfl
      | Declare span declared value =>
          exact opened_of_primary (by rw [Expr.lexemes]) rfl
      | Compiles span operand =>
          exact opened_of_primary (by rw [Expr.lexemes]) rfl
      | Error span => exact hwritten.elim

-- What reading a whole expression comes to, level by level.
structure ReadsBack (whole : Expr) : Prop where
  attached : Level.attached ≤ whole.level → Chains readPrimary readAttachment Level.primary whole
  unary : Level.power ≤ whole.level → ReadsAs (· .Unary) Level.power whole
  binary : ∀ level, level ≤ whole.level → Level.orOr ≤ whole.level →
    Chains (· .Unary) (readLink · level) (min (whole.level + 1) Level.power) whole
  conditional : Level.conditional ≤ whole.level → ReadsAs (· .Conditional) Level.conditional whole
  assignment : Level.assign ≤ whole.level → ReadsAs (· .Assignment) Level.assign whole
  comma : Chains (· .Assignment) readCommaLink Level.assign whole

namespace ReadsBack

variable {whole : Expr}

theorem of_assignment (hlevel : whole.level = Level.assign)
    (h : ReadsAs (· .Assignment) Level.assign whole) : ReadsBack whole where
  attached hle := absurd (hlevel ▸ hle) (by decide)
  unary hle := absurd (hlevel ▸ hle) (by decide)
  binary _ _ hle := absurd (hlevel ▸ hle) (by decide)
  conditional hle := absurd (hlevel ▸ hle) (by decide)
  assignment _ := h
  comma := .of_first h

theorem of_conditional (hlevel : whole.level = Level.conditional)
    (h : ReadsAs (· .Conditional) Level.conditional whole) : ReadsBack whole where
  attached hle := absurd (hlevel ▸ hle) (by decide)
  unary hle := absurd (hlevel ▸ hle) (by decide)
  binary _ _ hle := absurd (hlevel ▸ hle) (by decide)
  conditional _ := h
  assignment _ := (h.mono (by decide)).assignment (Nat.le_refl _)
  comma := .of_first ((h.mono (by decide)).assignment (Nat.le_refl _))

-- The looser levels read what the climbing operators read.
theorem conditional_of_binary {bound : Nat} (hbound : Level.conditional ≤ bound)
    (h : Chains (· .Unary) (readLink · Level.orOr) bound whole) :
    ReadsAs (· .Conditional) Level.conditional whole := by
  have hread := h.readsBinary
  have hle : Level.conditional ≤ min bound Level.orOr := Nat.le_min.mpr ⟨hbound, by decide⟩
  exact (hread.mono hle).conditional (Nat.le_refl _)

theorem of_binary (hloose : Level.orOr ≤ whole.level) (htight : whole.level < Level.power)
    (h : ∀ level, level ≤ whole.level →
      Chains (· .Unary) (readLink · level) (min (whole.level + 1) Level.power) whole) :
    ReadsBack whole := by
  have hlevels : Level.conditional < Level.orOr ∧ Level.power < Level.attached := by decide
  have hbound : Level.conditional ≤ min (whole.level + 1) Level.power := by omega
  have hconditional := conditional_of_binary hbound (h Level.orOr hloose)
  have hassignment := (hconditional.mono (by decide)).assignment (Nat.le_refl _)
  constructor
  case attached => intro hle; omega
  case unary => intro hle; omega
  case binary => exact fun level hlevel _ => h level hlevel
  case conditional => exact fun _ => hconditional
  case assignment => exact fun _ => hassignment
  case comma => exact .of_first hassignment

theorem of_unary (htight : Level.power ≤ whole.level) (hloose : whole.level < Level.attached)
    (h : ReadsAs (· .Unary) Level.power whole) : ReadsBack whole := by
  have hbinary : ∀ level, Chains (· .Unary) (readLink · level) Level.power whole := h.binary
  have hconditional := conditional_of_binary (by decide) (hbinary Level.orOr)
  have hassignment := (hconditional.mono (by decide)).assignment (Nat.le_refl _)
  have hbound : min (whole.level + 1) Level.power = Level.power := by omega
  constructor
  case attached => intro hle; omega
  case unary => exact fun _ => h
  case binary => exact fun level _ _ => by rw [hbound]; exact hbinary level
  case conditional => exact fun _ => hconditional
  case assignment => exact fun _ => hassignment
  case comma => exact .of_first hassignment

theorem of_attached (hlevel : Level.attached ≤ whole.level) (hopened : Opened whole)
    (h : Chains readPrimary readAttachment Level.primary whole) : ReadsBack whole := by
  obtain ⟨first, rest, hfirst, hopens⟩ := hopened
  have hattached := h.readsAttached
  have hpower := (hattached.mono (by decide)).power (Nat.le_refl _)
  have hunary := hpower.unary ⟨first, rest, hfirst, hopens.operand hlevel⟩
  have hbinary : ∀ level, Chains (· .Unary) (readLink · level) Level.power whole := hunary.binary
  have hconditional := conditional_of_binary (by decide) (hbinary Level.orOr)
  have hassignment := (hconditional.mono (by decide)).assignment (Nat.le_refl _)
  have hbound : min (whole.level + 1) Level.power = Level.power := by
    rw [Nat.min_eq_right]
    exact Nat.le_trans (by decide) (Nat.le_succ_of_le hlevel)
  constructor
  case attached => exact fun _ => h
  case unary => exact fun _ => hunary
  case binary => exact fun level _ _ => by rw [hbound]; exact hbinary level
  case conditional => exact fun _ => hconditional
  case assignment => exact fun _ => hassignment
  case comma => exact .of_first hassignment

theorem of_primary (hlevel : whole.level = Level.primary) (hopened : Opened whole)
    (h : ReadsAs readPrimary Level.primary whole) : ReadsBack whole :=
  of_attached (hlevel ▸ by decide) hopened (.of_first h)

-- A nonterminal for climbing operators reads what holds together tightly enough.
theorem readsBinary (h : ReadsBack whole) {level : Nat} (hloose : Level.orOr ≤ level)
    (htight : level ≤ Level.power) (hlevel : level ≤ whole.level) :
    ReadsAs (· (.Binary level)) level whole := by
  have hread := (h.binary level hlevel (Nat.le_trans hloose hlevel)).readsBinary
  have hbound : level ≤ min (min (whole.level + 1) Level.power) level := by omega
  exact hread.mono hbound

theorem readsExpression (h : ReadsBack whole) : ReadsAs (· .Expression) Level.comma whole :=
  h.comma.readsExpression

theorem readsAttached (h : ReadsBack whole) (hlevel : Level.attached ≤ whole.level) :
    ReadsAs readAttached Level.attached whole :=
  (h.attached hlevel).readsAttached

end ReadsBack

-- A sign that closes, or a comma, ends what stands in front of it.
theorem continuation_lexemes {op : Connective} (hop : op ≠ .Value .Pow) {behind : List Lexeme}
    {tokens after : List Token} (htokens : tokens.map Token.lexeme = op.lexemes ++ behind) :
    continuation (tokens ++ after) = op.level := by
  obtain ⟨front, back, rfl, hfront, _⟩ := map_lexeme_append htokens
  rw [List.append_assoc]
  exact continuation_of_connective? (connective?_lexemes hop hfront (back ++ after))

theorem readsBack_Binary {span : Span} {op : Connective} {left right : Expr}
    (hop : op ≠ .Value .Pow) (hleft : ReadsBack left) (hright : ReadsBack right)
    (hlevelLeft : op.level ≤ left.level) (hlevelRight : op.level + 1 ≤ right.level) :
    ReadsBack (.Binary span op left right) := by
  have hloose : Level.orOr ≤ op.level := level_pos op
  have htight : op.level ≤ Level.multiply := level_le hop
  have hlevels : Level.multiply + 1 = Level.power := rfl
  apply ReadsBack.of_binary
  · exact hloose
  · have hlevel : (Expr.Binary span op left right).level = op.level := by rw [Expr.level]
    omega
  intro level hlevel
  have hlevel : level ≤ op.level := hlevel
  have hread := hright.readsBinary (Nat.le_succ_of_le hloose) (by omega) hlevelRight
  have hlink := @links_Binary span level op left right hop hlevel hread
  have hbound : min ((Expr.Binary span op left right).level + 1) Level.power = op.level + 1 := by
    rw [Expr.level]
    omega
  rw [hbound]
  have hchain := hleft.binary level (Nat.le_trans hlevel hlevelLeft) (Nat.le_trans hloose hlevelLeft)
  refine hchain.link (by rw [Expr.lexemes]) (fun tokens after htokens => ?_) hlink
  rw [continuation_lexemes hop htokens]
  omega

theorem readsBack_Pow {span : Span} {left right : Expr} (hopened : Opened left)
    (hleft : ReadsBack left) (hright : ReadsBack right) (hlevelLeft : Level.attached ≤ left.level)
    (hlevelRight : Level.power ≤ right.level) :
    ReadsBack (.Binary span (.Value .Pow) left right) := by
  have hpower := @readsAs_Pow span left right (hleft.readsAttached hlevelLeft)
    (hright.unary hlevelRight)
  obtain ⟨first, rest, hfirst, hopens⟩ := hopened
  have hlexemes : (Expr.Binary span (.Value .Pow) left right).lexemes =
      first :: (rest ++ (Connective.lexemes (.Value .Pow) ++ right.lexemes)) := by
    rw [Expr.lexemes, hfirst, List.cons_append]
  have hunary := hpower.unary ⟨first, _, hlexemes, hopens.operand hlevelLeft⟩
  apply ReadsBack.of_unary
  · rw [Expr.level]
    decide
  · rw [Expr.level]
    decide
  · exact hunary

theorem readsBack_Comma {span : Span} {first second : Expr} (hfirst : ReadsBack first)
    (hsecond : ReadsBack second) (hlevel : Level.assign ≤ second.level) :
    ReadsBack (.Comma span first second) := by
  have hlink := @links_Comma span first second (hsecond.assignment hlevel)
  have hchain := hfirst.comma.link (by rw [Expr.lexemes]) (fun tokens after htokens => ?_) hlink
  · refine ⟨?_, ?_, ?_, ?_, ?_, hchain⟩
    all_goals
      intros
      next h => rw [Expr.level] at h; exact absurd h (by decide)
  · obtain ⟨comma, back, rfl, hcomma, _⟩ := map_lexeme_cons htokens
    have hcontinuation : continuation (comma :: back ++ after) = Level.comma := by
      simp [continuation, nextKind, hcomma, Lexeme.sign]
    rw [hcontinuation]
    decide

-- A declaration starts like a primary expression and takes in a whole assignment.
theorem readsBack_Declare {span : Span} {declared : Name} {value : Expr} (hvalue : ReadsBack value)
    (hlevel : Level.assign ≤ value.level) : ReadsBack (.Declare span declared value) := by
  have hprimary := @readsAs_Declare span declared value (hvalue.assignment hlevel)
  have hattached := (Chains.of_first hprimary).readsAttached
  have hpower := (hattached.mono (Nat.le_refl Level.assign)).power (by decide)
  have hstarts : StartsOperand (Lexeme.word .Auto) := by
    simp [StartsOperand, Lexeme.word, leadingOp?]
  have hunary := hpower.unary ⟨_, _, by rw [Expr.lexemes], hstarts⟩
  have hbinary := (hunary.binary Level.orOr).readsBinary
  have hconditional := (hbinary.mono (Nat.le_refl Level.assign)).conditional (by decide)
  exact .of_assignment (by rw [Expr.level]) (hconditional.assignment (Nat.le_refl _))

-- What is attached starts as its operand does, and a new round reads it.
theorem readsBack_attached {inner outer : Expr} {behind : List Lexeme} (hinner : ReadsBack inner)
    (hopened : Opened inner) (hlexemes : outer.lexemes = inner.lexemes ++ behind)
    (hlevel : Level.attached ≤ inner.level) (hattached : outer.level = Level.attached)
    (hlink : Links readAttachment Level.primary inner outer behind) : ReadsBack outer := by
  apply ReadsBack.of_attached
  · exact hattached ▸ Nat.le_refl _
  · exact opened_of_left hopened hlexemes (.inr hlevel)
  · exact (hinner.attached hlevel).link hlexemes (fun _ _ _ => continuation_lt_primary _) hlink

theorem Opened.opensItem {whole : Expr} (h : Opened whole) : OpensItem whole := by
  obtain ⟨first, rest, hfirst, hopens⟩ := h
  exact ⟨first, rest, hfirst, hopens.notClose⟩

theorem readsBack_of_neat {whole : Expr} (h : whole.Neat) : ReadsBack whole := by
  induction h with
  | @intro whole hwritten hplaces hneat ih =>
      have hopened := opened_of_neat (.intro hwritten hplaces hneat)
      have hpart : ∀ {level part}, (level, part) ∈ whole.places →
          ReadsBack part ∧ level ≤ part.level ∧ Opened part := by
        intro level part hmem
        exact ⟨ih _ hmem, hplaces _ hmem, opened_of_neat (hneat _ hmem)⟩
      cases whole with
      | Identifier span text => exact .of_primary (by rw [Expr.level]) hopened readsAs_Identifier
      | Integer span value => exact .of_primary (by rw [Expr.level]) hopened (readsAs_Integer hwritten)
      | Text span text => exact .of_primary (by rw [Expr.level]) hopened readsAs_Text
      | Boolean span value => exact .of_primary (by rw [Expr.level]) hopened readsAs_Boolean
      | Null span => exact .of_primary (by rw [Expr.level]) hopened readsAs_Null
      | Paren span inner =>
          obtain ⟨hinner, _⟩ := hpart (by rw [Expr.places]; exact List.mem_singleton_self _)
          exact .of_primary (by rw [Expr.level]) hopened (readsAs_Paren hinner.readsExpression)
      | Binary span op left right =>
          by_cases hop : op = .Value .Pow
          · subst hop
            obtain ⟨hleft, hlevelLeft, hopensLeft⟩ := @hpart Level.attached left (by simp [Expr.places])
            obtain ⟨hright, hlevelRight, _⟩ := @hpart Level.power right (by simp [Expr.places])
            exact readsBack_Pow hopensLeft hleft hright hlevelLeft hlevelRight
          · obtain ⟨hleft, hlevelLeft, _⟩ := @hpart op.level left (by simp [Expr.places, hop])
            obtain ⟨hright, hlevelRight, _⟩ := @hpart (op.level + 1) right (by simp [Expr.places, hop])
            exact readsBack_Binary hop hleft hright hlevelLeft hlevelRight
      | Assign span op target value =>
          obtain ⟨htarget, hlevelTarget, _⟩ := @hpart Level.conditional target (by simp [Expr.places])
          obtain ⟨hvalue, hlevelValue, _⟩ := @hpart Level.assign value (by simp [Expr.places])
          exact .of_assignment (by rw [Expr.level])
            (readsAs_Assign (htarget.conditional hlevelTarget) (hvalue.assignment hlevelValue))
      | Conditional span condition yes no =>
          obtain ⟨hcondition, hlevelCondition, _⟩ :=
            @hpart Level.orOr condition (by simp [Expr.places])
          obtain ⟨hyes, _⟩ := @hpart Level.comma yes (by simp [Expr.places])
          obtain ⟨hno, hlevelNo, _⟩ := @hpart Level.conditional no (by simp [Expr.places])
          exact .of_conditional (by rw [Expr.level])
            (readsAs_Conditional
              (hcondition.readsBinary (Nat.le_refl _) (by decide) hlevelCondition)
              hyes.readsExpression (hno.conditional hlevelNo))
      | Comma span first second =>
          obtain ⟨hfirst, _⟩ := @hpart Level.comma first (by simp [Expr.places])
          obtain ⟨hsecond, hlevel, _⟩ := @hpart Level.assign second (by simp [Expr.places])
          exact readsBack_Comma hfirst hsecond hlevel
      | Leading span op operand =>
          obtain ⟨hoperand, hlevel, _⟩ := @hpart Level.power operand (by simp [Expr.places])
          exact .of_unary (by rw [Expr.level]; decide) (by rw [Expr.level]; decide)
            (readsAs_Leading (hoperand.unary hlevel))
      | Step span op operand =>
          obtain ⟨hoperand, hlevel, hopens⟩ := @hpart Level.attached operand (by simp [Expr.places])
          exact readsBack_attached hoperand hopens (by rw [Expr.lexemes]) hlevel (by rw [Expr.level])
            links_Step
      | Cast span type operand =>
          obtain ⟨hoperand, hlevel, _⟩ := @hpart Level.power operand (by simp [Expr.places])
          exact .of_unary (by rw [Expr.level]; decide) (by rw [Expr.level]; decide)
            (readsAs_Cast hwritten (hoperand.unary hlevel))
      | New span target =>
          exact .of_unary (by rw [Expr.level]; decide) (by rw [Expr.level]; decide) readsAs_New
      | NewAnonymous span =>
          exact .of_unary (by rw [Expr.level]; decide) (by rw [Expr.level]; decide)
            readsAs_NewAnonymous
      | Call span callee arguments =>
          obtain ⟨hcallee, hlevel, hopens⟩ := @hpart Level.attached callee (by simp [Expr.places])
          have harguments : ∀ argument ∈ arguments,
              ReadsBack argument ∧ Level.assign ≤ argument.level ∧ Opened argument :=
            fun argument hmem => hpart (by simp [Expr.places, hmem])
          exact readsBack_attached hcallee hopens (by rw [Expr.lexemes]) hlevel (by rw [Expr.level])
            (links_Call
              (fun argument hmem => (harguments argument hmem).1.assignment (harguments argument hmem).2.1)
              fun argument hmem => (harguments argument hmem).2.2.opensItem)
      | Index span base index =>
          obtain ⟨hbase, hlevel, hopens⟩ := @hpart Level.attached base (by simp [Expr.places])
          obtain ⟨hindex, hlevelIndex, _⟩ := @hpart Level.assign index (by simp [Expr.places])
          exact readsBack_attached hbase hopens (by rw [Expr.lexemes]) hlevel (by rw [Expr.level])
            (links_Index (hindex.assignment hlevelIndex))
      | Remove span container key =>
          obtain ⟨hcontainer, hlevel, hopens⟩ :=
            @hpart Level.attached container (by simp [Expr.places])
          obtain ⟨hkey, hlevelKey, hopensKey⟩ := @hpart Level.assign key (by simp [Expr.places])
          exact readsBack_attached hcontainer hopens (by rw [Expr.lexemes]) hlevel
            (by rw [Expr.level]) (links_Remove (hkey.assignment hlevelKey) hopensKey.opensItem)
      | Tuple span elements =>
          have helements : ∀ element ∈ elements,
              ReadsBack element ∧ Level.assign ≤ element.level ∧ Opened element :=
            fun element hmem => hpart (by simp [Expr.places, hmem])
          exact .of_primary (by rw [Expr.level]) hopened (readsAs_Tuple
            (fun element hmem => (helements element hmem).1.assignment (helements element hmem).2.1)
            fun element hmem => (helements element hmem).2.2.opensItem)
      | Assert span condition message =>
          obtain ⟨hcondition, hlevel, _⟩ := @hpart Level.assign condition (by simp [Expr.places])
          have hmessage : ∀ text ∈ message, ReadsAs (· .Assignment) Level.assign text := by
            intro text hmem
            obtain ⟨htext, hlevelText, _⟩ :=
              @hpart Level.assign text (by simp [Expr.places, Option.mem_def.mp hmem])
            exact htext.assignment hlevelText
          exact .of_primary (by rw [Expr.level]) hopened
            (readsAs_Assert (hcondition.assignment hlevel) hmessage)
      | Declare span declared value =>
          obtain ⟨hvalue, hlevel, _⟩ := @hpart Level.assign value (by simp [Expr.places])
          exact readsBack_Declare hvalue hlevel
      | Compiles span operand =>
          obtain ⟨hoperand, hlevel, _⟩ := @hpart Level.assign operand (by simp [Expr.places])
          exact .of_primary (by rw [Expr.level]) hopened
            (readsAs_Compiles (hoperand.assignment hlevel))
      | Error span => exact hwritten.elim

-- The same as the value of a `return`, where the semicolon ends it.
theorem reads_Return {value : Expr} (h : value.Neat) :
    ∃ need, ∀ tokens after,
      tokens.map Token.lexeme =
        Lexeme.word .Return :: (value.lexemes ++ [Lexeme.sign .Semicolon]) →
      Reads need (read .Statement) (tokens ++ after) after fun statement =>
        ∃ span read, statement = some (.Return span (some read)) ∧ read.bare = value.bare := by
  obtain ⟨need, hread⟩ := (readsBack_of_neat h).readsExpression
  obtain ⟨first, rest, hfirst, hopens⟩ := opened_of_neat h
  refine ⟨need + 4, fun tokens after htokens => ?_⟩
  obtain ⟨word, back, rfl, hword, _, hmore⟩ := map_lexeme_cons htokens
  obtain ⟨inside, back, rfl, hinside, hback⟩ := map_lexeme_append hmore
  obtain ⟨closing, back, rfl, hclosing, _, hnil⟩ := map_lexeme_cons hback
  obtain rfl := List.map_eq_nil_iff.mp hnil
  have hends := continuation_of_closing hclosing (.inr (.inr rfl)) after
  have hstarts : nextKind (inside ++ closing :: after) ≠ some (.Sign .Semicolon) := by
    obtain ⟨token, inside, rfl, hkind, _⟩ := map_lexeme_cons (hinside.trans hfirst)
    simp [nextKind, hkind, hopens.notSemicolon]
  have hreturn : ∀ levels, need ≤ levels → ∀ start,
      Reads (need + 2) (readReturn (readWithin levels) start)
        (word :: (inside ++ closing :: after)) after
        fun statement => ∃ span read, statement = .Return span (some read) ∧
          read.bare = value.bare := by
    intro levels hlevels start
    refine (reads_skip word _).bind (by omega) fun _ _ => (reads_isAt _ _).bind (by omega)
      fun found hfound => ?_
    rw [if_neg (by simp [hfound, hstarts]), map_eq_pure_bind, bind_assoc]
    have hvalue := hread levels hlevels inside (closing :: after) hinside (by rw [hends]; decide)
    refine hvalue.bind (by omega) fun read hbare => ?_
    rw [pure_bind]
    refine (reads_expectSemicolon hclosing after).bind (by omega) fun _ _ => ?_
    exact (reads_since _ after).bind (by omega) fun place _ => .pure ⟨place, read, rfl, hbare⟩
  intro limits state hrest hfuel hdepth
  obtain ⟨levels, hlevels⟩ : ∃ levels, nesting state.fuel = levels + 1 :=
    ⟨8 * state.fuel + 7, by unfold nesting; omega⟩
  have hneed : need ≤ levels := by
    unfold nesting at hlevels
    omega
  have hstatement : Reads (need + 4) (readStatement (readWithin levels))
      (word :: (inside ++ closing :: after)) after fun statement =>
        ∃ span read, statement = some (.Return span (some read)) ∧ read.bare = value.bare := by
    refine (reads_enter _).bind (by omega) fun _ _ => ?_
    have hhere : Reads (need + 3) (readStatementHere (readWithin levels))
        (word :: (inside ++ closing :: after)) after fun statement =>
          ∃ span read, statement = some (.Return span (some read)) ∧ read.bare = value.bare := by
      refine (reads_here _).bind (by omega) fun place _ => (reads_inspect _).bind (by omega)
        fun next hnext => ?_
      subst hnext
      simp only [nextKind, hword, Lexeme.word]
      refine (hreturn levels hneed place.start).bind (by omega) ?_
      rintro _ ⟨span, read, rfl, hbare⟩
      exact .pure ⟨span, read, rfl, hbare⟩
    exact hhere.bind (by omega) fun statement hstatement => (reads_leave after).bind (by omega)
      fun _ _ => .pure hstatement
  unfold Grammar.read
  rw [hlevels]
  simp only [List.cons_append, List.append_assoc, List.nil_append] at hrest
  exact hstatement limits state hrest hfuel hdepth

end Grammar

end EffectLint
