import EffectLint.Proofs.Grammar.CleanItem
import EffectLint.Proofs.Grammar.TracedItem
import EffectLint.Proofs.Type.Depth
import Mathlib.Data.List.Infix

/-!
How deep types nest, as their tokens tell. Every level of a type is written with a token of its own, so
that a text nests types no deeper than it has such tokens. Where it is clean, a scan from the end of a
type to its start tells the depth. The limit on nesting is not looked at for that.
-/

namespace EffectLint

-- What makes a type a part of another one.
def TokenKind.linksTypes : TokenKind → Bool
  | .Sign .Star | .Sign .BracketOpen | .Word .Function | .Word .Delegate => true
  | _ => false

def Slot.takesOnly (kinds : TokenKind → Bool) : Slot → Bool
  | .Token kind => kinds kind
  | _ => false

namespace Fills

variable {clean : Prop} {reads : Phrase → List Token → Prop} {slots : List Slot} {run : List Token}
  {kinds : TokenKind → Bool}

theorem countP_le (h : Fills clean reads slots run) :
    slots.countP (Slot.takesOnly kinds) ≤ run.countP (kinds ·.kind) := by
  induction h with
  | Nil => exact Nat.zero_le _
  | @Taken slot slots token run htakes _ ih =>
      cases slot with
      | Token kind =>
          obtain rfl : token.kind = kind := htakes
          simp only [List.countP_cons, Slot.takesOnly]
          exact Nat.add_le_add_right ih _
      | _ => exact ih.trans (List.sublist_cons_self token run).countP_le
  | Read _ _ ih =>
      rw [List.countP_append]
      exact Nat.le_add_left_of_le ih
  | @Missed slot slots run _ hmiss _ ih =>
      cases slot with
      | Token kind => cases hmiss
      | _ => exact ih
  | @Stray slots token run _ _ ih => exact ih.trans (List.sublist_cons_self token run).countP_le

-- The tokens that a part is read from do not fill the other slots.
theorem part_countP_le (h : Fills clean reads slots run) :
    ∀ phrase ∈ slots.filterMap Slot.phrase?, ∃ piece, reads phrase piece ∧
      piece.countP (kinds ·.kind) + slots.countP (Slot.takesOnly kinds) ≤
        run.countP (kinds ·.kind) := by
  induction h with
  | Nil => nofun
  | @Taken slot slots token run htakes _ ih =>
      cases slot with
      | Part phrase => cases htakes
      | Token kind =>
          obtain rfl : token.kind = kind := htakes
          intro phrase hphrase
          obtain ⟨piece, hread, hle⟩ := ih phrase hphrase
          refine ⟨piece, hread, ?_⟩
          simp only [List.countP_cons, Slot.takesOnly, ← Nat.add_assoc]
          exact Nat.add_le_add_right hle _
      | _ =>
          intro phrase hphrase
          obtain ⟨piece, hread, hle⟩ := ih phrase hphrase
          exact ⟨piece, hread, hle.trans (List.sublist_cons_self token run).countP_le⟩
  | @Read first slots front back hread hback ih =>
      rw [List.countP_append]
      refine List.forall_mem_cons.mpr ⟨⟨front, hread, Nat.add_le_add_left hback.countP_le _⟩, ?_⟩
      intro phrase hphrase
      obtain ⟨piece, hread', hle⟩ := ih phrase hphrase
      exact ⟨piece, hread', Nat.le_add_left_of_le hle⟩
  | @Missed slot slots run _ hmiss _ ih =>
      cases slot with
      | Token kind => cases hmiss
      | Part phrase => cases hmiss
      | _ => exact ih
  | @Stray slots token run _ _ ih =>
      intro phrase hphrase
      obtain ⟨piece, hread, hle⟩ := ih phrase hphrase
      exact ⟨piece, hread, hle.trans (List.sublist_cons_self token run).countP_le⟩

end Fills

namespace TypeTree

variable {scene : Scene} {clean : Prop} {type : TypeTree} {run : List Token}

def links (run : List Token) : Nat :=
  run.countP (TokenKind.linksTypes ·.kind)

-- A type that is made of others has a token for that.
theorem link_of_form {slots : List Slot} {part : Phrase} (hform : (Phrase.Type type).Form slots)
    (hpart : part ∈ (Phrase.Type type).inner) (hname : ∀ name, part ≠ .Name name) :
    0 < slots.countP (Slot.takesOnly TokenKind.linksTypes) := by
  cases hform with
  | Basic => cases hpart
  | Named => exact absurd (List.mem_singleton.mp hpart) (hname _)
  | @Callable _ isDelegate =>
      refine List.countP_pos_iff.mpr ⟨_, List.mem_cons_of_mem _ List.mem_cons_self, ?_⟩
      cases isDelegate <;> rfl
  | _ => exact Nat.succ_pos _

theorem links_of_inner {part : Phrase} (h : (Phrase.Type type).ReadFrom scene clean run)
    (hpart : part ∈ (Phrase.Type type).inner) (hname : ∀ name, part ≠ .Name name) :
    ∃ piece, part.ReadFrom scene clean piece ∧ links piece < links run := by
  cases h with
  | Whole hform hfills _ =>
      obtain ⟨piece, hread, hle⟩ := hfills.part_countP_le part (hform.inner_eq ▸ hpart)
      have hlink := link_of_form hform hpart hname
      exact ⟨piece, hread, Nat.lt_of_lt_of_le (Nat.lt_add_of_pos_right hlink) hle⟩
  | Missing _ hmissing _ =>
      rw [Phrase.inner_of_missing hmissing] at hpart
      cases hpart

-- A type nests no deeper than the tokens that it is read from have links in them.
theorem depth_le_links (h : (Phrase.Type type).ReadFrom scene clean run) :
    type.depth ≤ links run := by
  induction type generalizing run with
  | Basic | Named | Error => exact Nat.zero_le _
  | Pointer span part ih | Array span part ih =>
      obtain ⟨piece, hread, hlt⟩ := links_of_inner h List.mem_cons_self nofun
      exact Nat.succ_le_of_lt (Nat.lt_of_le_of_lt (ih hread) hlt)
  | AssocArray span value key ihValue ihKey =>
      obtain ⟨piece, hread, hlt⟩ := links_of_inner h List.mem_cons_self nofun
      obtain ⟨piece', hread', hlt'⟩ :=
        links_of_inner h (List.mem_cons_of_mem _ List.mem_cons_self) nofun
      have hvalue := ihValue hread
      have hkey := ihKey hread'
      simp only [depth]
      omega
  | Callable span isDelegate promises result parameters ihResult ihParameters =>
      obtain ⟨piece, hread, hlt⟩ := links_of_inner h List.mem_cons_self nofun
      have hresult := ihResult hread
      have hparameters : deepest parameters ≤ links run - 1 := by
        refine deepest_le_iff.mpr fun parameter hmem => ?_
        have hpart : Phrase.Parameter parameter ∈
            (Phrase.Type (.Callable span isDelegate promises result parameters)).inner :=
          List.mem_cons_of_mem _ (List.mem_map_of_mem hmem)
        obtain ⟨whole, hwhole, hlt'⟩ := links_of_inner h hpart nofun
        obtain ⟨piece', hpiece', hread'⟩ := hwhole.inner List.mem_cons_self
        have hle : links piece' ≤ links whole := hpiece'.sublist.countP_le
        have hdepth := ihParameters parameter hmem hread'
        omega
      simp only [depth]
      omega

end TypeTree

-- Where a scan of a run is, from its end to its start. A suffix stands behind what it makes a part of
-- something else, so what comes next stands in as many types as there are suffixes behind it, within
-- the brackets that are open there.
@[ext]
structure TypeScan where
  here : Nat
  -- the same in front of each closing bracket, innermost first
  outer : List Nat
  -- the most at any name of a type so far
  deepest : Nat

namespace TypeScan

def start : TypeScan :=
  ⟨0, [], 0⟩

-- A key or a parameter stands in all that the brackets stand in, and in what they belong to.
def step (kind : TokenKind) (scan : TypeScan) : TypeScan :=
  match kind with
  | .Basic _ | .Identifier => { scan with deepest := max scan.deepest scan.here }
  | .Sign .Star | .Word .Function | .Word .Delegate => { scan with here := scan.here + 1 }
  | .Sign .BracketClose | .Sign .ParenClose =>
      { scan with here := scan.here + 1, outer := scan.here :: scan.outer }
  | .Sign .BracketOpen => { scan with here := scan.outer.headD 0 + 1, outer := scan.outer.tail }
  | .Sign .ParenOpen => { scan with here := scan.outer.headD 0, outer := scan.outer.tail }
  | .Sign .Comma => { scan with here := scan.outer.headD 0 + 1 }
  | _ => scan

def scanned (run : List Token) (scan : TypeScan) : TypeScan :=
  run.foldr (fun token => step token.kind) scan

end TypeScan

namespace TypeTree

-- How deep a type is nested that is written with the tokens.
def nesting (run : List Token) : Nat :=
  (TypeScan.start.scanned run).deepest

-- The suffixes of a type, outside of all brackets.
def suffixes : TypeTree → Nat
  | .Basic _ _ | .Named _ _ | .Error _ => 0
  | .Pointer _ part | .Array _ part | .AssocArray _ part _ | .Callable _ _ _ part _ =>
      part.suffixes + 1

theorem deepest_append (front back : List (Parameter TypeTree)) :
    deepest (front ++ back) = max (deepest front) (deepest back) := by
  induction front with
  | nil => exact (Nat.zero_max _).symm
  | cons first rest ih => rw [List.cons_append, deepest, deepest, ih, Nat.max_assoc]

end TypeTree

namespace TypeScan

def pastType (type : TypeTree) (scan : TypeScan) : TypeScan :=
  { scan with
    here := scan.here + type.suffixes
    deepest := max scan.deepest (scan.here + type.depth) }

-- Where a scan is in front of a phrase that is part of a type.
def past : Phrase → TypeScan → TypeScan
  | .Type type, scan => scan.pastType type
  | .Name _, scan => scan.step .Identifier
  | .Parameter ⟨_, type, none⟩, scan => scan.pastType type
  | .Parameter ⟨_, type, some _⟩, scan => (scan.step .Identifier).pastType type
  | _, scan => scan

def pastSlot : Slot → TypeScan → TypeScan
  | .Token kind, scan | .Expected kind, scan => scan.step kind
  | .Part phrase, scan => scan.past phrase
  | .Any, scan => scan

-- From a clean text a list of slots is filled with what is scanned like the slots.
theorem scanned_of_fills {clean : Prop} {reads : Phrase → List Token → Prop} {slots : List Slot}
    {run : List Token} (h : Fills clean reads slots run) (hclean : clean) (hknown : .Any ∉ slots)
    (hreads : ∀ phrase ∈ slots.filterMap Slot.phrase?, ∀ piece, reads phrase piece →
      ∀ scan, scanned piece scan = scan.past phrase) (scan : TypeScan) :
    scanned run scan = slots.foldr pastSlot scan := by
  induction h with
  | Nil => rfl
  | @Taken slot slots token run htakes _ ih =>
      have hknown' : .Any ∉ slots := fun hmem => hknown (List.mem_cons_of_mem _ hmem)
      cases slot with
      | Token kind | Expected kind =>
          obtain rfl : token.kind = kind := htakes
          exact congrArg (step token.kind) (ih hknown' hreads)
      | Any => exact absurd List.mem_cons_self hknown
      | Part phrase => cases htakes
  | @Read phrase slots front back hread _ ih =>
      have hknown' : .Any ∉ slots := fun hmem => hknown (List.mem_cons_of_mem _ hmem)
      obtain ⟨hphrase, hreads'⟩ := List.forall_mem_cons.mp hreads
      calc
        scanned (front ++ back) scan = scanned front (scanned back scan) := List.foldr_append
        _ = past phrase (scanned back scan) := hphrase front hread _
        _ = _ := by rw [ih hknown' hreads']; rfl
  | Missed hunclean => exact absurd hclean hunclean
  | Stray hunclean => exact absurd hclean hunclean

theorem foldr_promising {slots : List Slot} (h : Slot.Promising slots) (scan : TypeScan) :
    slots.foldr pastSlot scan = scan := by
  induction slots with
  | nil => rfl
  | cons first rest ih =>
      obtain ⟨hfirst, hrest⟩ := List.forall_mem_cons.mp h
      rw [List.foldr_cons, ih hrest]
      rcases hfirst with rfl | rfl <;> rfl

theorem past_parameter (parameter : Parameter TypeTree) {scan : TypeScan} {base : Nat}
    (hhere : scan.here = base + 1) :
    (scan.past (.Parameter parameter)).outer = scan.outer ∧
      max (scan.past (.Parameter parameter)).deepest (base + 1) =
        max scan.deepest (base + 1 + parameter.type.depth) := by
  obtain ⟨isRef, type, name⟩ := parameter
  cases name <;> simp only [past, pastType, step, hhere, true_and] <;> omega

-- The parameters stand in one type more than the bracket behind them.
theorem foldr_separated (parameters : List (Parameter TypeTree)) {scan : TypeScan} {base : Nat}
    {outer : List Nat} (houter : scan.outer = base :: outer) :
    ((Slot.separated (parameters.map .Parameter)).foldr pastSlot scan).outer = base :: outer ∧
      max ((Slot.separated (parameters.map .Parameter)).foldr pastSlot scan).deepest (base + 1) =
        max scan.deepest (base + 1 + TypeTree.deepest parameters) := by
  induction parameters with
  | nil => exact ⟨houter, rfl⟩
  | cons first rest ih =>
      obtain ⟨hrest, hdeepest⟩ := ih
      let behind := (Slot.separated (rest.map .Parameter)).foldr pastSlot scan
      have hhere : (behind.step (.Sign .Comma)).here = base + 1 := by
        change behind.outer.headD 0 + 1 = base + 1
        rw [hrest]
        rfl
      obtain ⟨houter', hdeepest'⟩ := past_parameter first hhere
      refine ⟨houter'.trans hrest, ?_⟩
      have hsame : (behind.step (.Sign .Comma)).deepest = behind.deepest := rfl
      rw [hsame] at hdeepest'
      change max ((behind.step (.Sign .Comma)).past (.Parameter first)).deepest (base + 1) = _
      rw [hdeepest', TypeTree.deepest]
      change max behind.deepest (base + 1) = _ at hdeepest
      omega

theorem foldr_listed {parameters : List (Parameter TypeTree)} {listed : List Slot}
    (hlisted : Slot.CommaList (parameters.map .Parameter) listed) {scan : TypeScan} {base : Nat}
    {outer : List Nat} (houter : scan.outer = base :: outer) (hhere : scan.here = base + 1) :
    (listed.foldr pastSlot scan).outer = base :: outer ∧
      max (listed.foldr pastSlot scan).deepest (base + 1) =
        max scan.deepest (base + 1 + TypeTree.deepest parameters) := by
  generalize hphrases : parameters.map Phrase.Parameter = phrases at hlisted
  cases hlisted with
  | Trailing =>
      rw [← hphrases]
      exact foldr_separated parameters houter
  | Plain front last =>
      obtain ⟨front, rest, rfl, rfl, hlast⟩ := List.map_eq_append_iff.mp hphrases
      obtain ⟨parameter, rfl, rfl⟩ := List.map_eq_singleton_iff.mp hlast
      obtain ⟨houter', hdeepest⟩ := past_parameter parameter hhere
      rw [List.foldr_append]
      obtain ⟨hresult, hall⟩ := foldr_separated front (houter'.trans houter)
      refine ⟨hresult, hall.trans ?_⟩
      rw [TypeTree.deepest_append, TypeTree.deepest, TypeTree.deepest]
      omega

-- The result has one suffix more behind it than the whole, and the parameters stand in that suffix.
theorem foldr_callable {parameters : List (Parameter TypeTree)} {listed trailing : List Slot}
    (hlisted : Slot.CommaList (parameters.map .Parameter) listed)
    (htrailing : Slot.Promising trailing) {span : Span} {isDelegate : Bool} {promises : Promises}
    {result : TypeTree} (scan : TypeScan) :
    (Slot.Part (.Type result) :: .Token (.Word (if isDelegate then .Delegate else .Function)) ::
      .Expected (.Sign .ParenOpen) :: (listed ++ (.Expected (.Sign .ParenClose) :: trailing))).foldr
        pastSlot scan =
      scan.pastType (.Callable span isDelegate promises result parameters) := by
  let inside := listed.foldr pastSlot (scan.step (.Sign .ParenClose))
  obtain ⟨houter, hdeepest⟩ : inside.outer = scan.here :: scan.outer ∧
      max inside.deepest (scan.here + 1) =
        max scan.deepest (scan.here + 1 + TypeTree.deepest parameters) :=
    foldr_listed hlisted rfl rfl
  have hopened : inside.step (.Sign .ParenOpen) = ⟨scan.here, scan.outer, inside.deepest⟩ := by
    simp only [step, houter, List.headD_cons, List.tail_cons]
  have hword : ∀ opened : TypeScan,
      opened.step (.Word (if isDelegate then .Delegate else .Function)) =
        { opened with here := opened.here + 1 } := by
    intro opened
    cases isDelegate <;> rfl
  rw [List.foldr_cons, List.foldr_cons, List.foldr_cons, List.foldr_append, List.foldr_cons,
    foldr_promising htrailing]
  change pastSlot _ ((inside.step (.Sign .ParenOpen)).step _) = _
  rw [hopened, hword]
  ext1
  · exact Nat.add_right_comm scan.here 1 result.suffixes
  · rfl
  · simp only [pastSlot, past, pastType, TypeTree.depth]
    omega

theorem any_notMem_listed {phrases : List Phrase} {slots : List Slot}
    (h : Slot.CommaList phrases slots) : .Any ∉ slots := by
  cases h <;> simp [Slot.separated]

theorem any_notMem_promising {slots : List Slot} (h : Slot.Promising slots) : .Any ∉ slots := by
  intro hmem
  rcases h _ hmem with heq | heq <;> cases heq

section Clean

variable {scene : Scene} {clean : Prop} {run : List Token}

theorem scanned_phrase {phrase : Phrase} (h : phrase.ReadFrom scene clean run) (hclean : clean)
    (hparts : ∀ part ∈ phrase.inner, ∀ piece, part.ReadFrom scene clean piece →
      ∀ scan, scanned piece scan = scan.past part) :
    ∃ slots, phrase.Form slots ∧
      (.Any ∉ slots → ∀ scan, scanned run scan = slots.foldr pastSlot scan) := by
  cases h with
  | @Whole _ slots _ hform hfills _ =>
      exact ⟨slots, hform, fun hknown =>
        scanned_of_fills hfills hclean hknown (hform.inner_eq ▸ hparts)⟩
  | Missing hunclean => exact absurd hclean hunclean

theorem scanned_name {name : Name} (h : (Phrase.Name name).ReadFrom scene clean run) (hclean : clean)
    (scan : TypeScan) : scanned run scan = scan.past (.Name name) := by
  obtain ⟨_, hform, hscanned⟩ := scanned_phrase h hclean nofun
  cases hform
  exact hscanned (by simp) scan

theorem scanned_parameter {parameter : Parameter TypeTree}
    (h : (Phrase.Parameter parameter).ReadFrom scene clean run) (hclean : clean)
    (htype : ∀ piece, (Phrase.Type parameter.type).ReadFrom scene clean piece →
      ∀ scan, scanned piece scan = scan.pastType parameter.type) (scan : TypeScan) :
    scanned run scan = scan.past (.Parameter parameter) := by
  obtain ⟨_, hform, hscanned⟩ := scanned_phrase h hclean fun part hpart => by
    rcases List.mem_cons.mp hpart with rfl | hname
    · exact htype
    · obtain ⟨name, _, rfl⟩ := List.mem_map.mp hname
      exact fun _ hread => scanned_name hread hclean
  cases hform
  obtain ⟨isRef, type, name⟩ := parameter
  rw [hscanned (by cases isRef <;> cases name <;> simp)]
  cases isRef <;> cases name <;> rfl

-- A scan over a type goes by how deep it is and how many suffixes it has.
theorem scanned_type {type : TypeTree} (h : (Phrase.Type type).ReadFrom scene clean run)
    (hclean : clean) (scan : TypeScan) : scanned run scan = scan.pastType type := by
  induction type generalizing run scan with
  | Basic span type =>
      obtain ⟨_, hform, hscanned⟩ := scanned_phrase h hclean nofun
      cases hform
      exact hscanned (by simp) scan
  | Named span name =>
      obtain ⟨_, hform, hscanned⟩ := scanned_phrase h hclean fun part hpart => by
        obtain rfl := List.mem_singleton.mp hpart
        exact fun _ hread => scanned_name hread hclean
      cases hform
      exact hscanned (by simp) scan
  | Error span =>
      obtain ⟨_, hform, _⟩ := scanned_phrase h hclean nofun
      cases hform
  | Pointer span part ih =>
      obtain ⟨_, hform, hscanned⟩ := scanned_phrase h hclean fun phrase hpart => by
        obtain rfl := List.mem_singleton.mp hpart
        exact fun _ hread => ih hread
      cases hform
      rw [hscanned (by simp)]
      ext1
      · exact Nat.add_right_comm scan.here 1 part.suffixes
      · rfl
      · simp only [List.foldr, pastSlot, past, pastType, step, TypeTree.depth]
        omega
  | Array span part ih =>
      obtain ⟨_, hform, hscanned⟩ := scanned_phrase h hclean fun phrase hpart => by
        obtain rfl := List.mem_singleton.mp hpart
        exact fun _ hread => ih hread
      cases hform
      rw [hscanned (by simp)]
      ext1
      · exact Nat.add_right_comm scan.here 1 part.suffixes
      · rfl
      · simp only [List.foldr, pastSlot, past, pastType, step, List.headD, TypeTree.depth]
        omega
  | AssocArray span value key ihValue ihKey =>
      obtain ⟨_, hform, hscanned⟩ := scanned_phrase h hclean fun phrase hpart => by
        rcases List.mem_cons.mp hpart with rfl | hkey
        · exact fun _ hread => ihValue hread
        · obtain rfl := List.mem_singleton.mp hkey
          exact fun _ hread => ihKey hread
      cases hform
      rw [hscanned (by simp)]
      ext1
      · exact Nat.add_right_comm scan.here 1 value.suffixes
      · rfl
      · simp only [List.foldr, pastSlot, past, pastType, step, List.headD, TypeTree.depth]
        omega
  | Callable span isDelegate promises result parameters ihResult ihParameters =>
      obtain ⟨_, hform, hscanned⟩ := scanned_phrase h hclean fun phrase hpart => by
        rcases List.mem_cons.mp hpart with rfl | hparameter
        · exact fun _ hread => ihResult hread
        · obtain ⟨parameter, hmem, rfl⟩ := List.mem_map.mp hparameter
          exact fun _ hread => scanned_parameter hread hclean fun _ => ihParameters parameter hmem
      cases hform with
      | @Callable _ _ _ _ _ listed trailing hlisted htrailing =>
          rw [hscanned (by simp [any_notMem_listed hlisted, any_notMem_promising htrailing])]
          exact foldr_callable hlisted htrailing scan

end Clean

end TypeScan

-- In a clean text a type is just as deep as its tokens say.
theorem TypeTree.depth_eq_nesting {scene : Scene} {clean : Prop} {type : TypeTree} {run : List Token}
    (h : (Phrase.Type type).ReadFrom scene clean run) (hclean : clean) :
    nesting run = type.depth := by
  rw [nesting, TypeScan.scanned_type h hclean]
  exact (Nat.zero_max _).trans (Nat.zero_add _)

-- The types in a text nest no deeper than the limit allows, and are resolved in no more calls within
-- each other, where none of them is written with more suffixes around and behind one place. In a text
-- that is not clean the suffixes are counted wherever they are. More of them than that are not refused.
theorem parse_types_shallow {text : List Char} {fuel limit : Nat} {parsed : Parsed}
    (hparse : parse text fuel limit = .ok parsed)
    (hwritten : ∀ type, (Phrase.Type type).Within (.Module parsed.items) → ∀ run, run <:+: lex text →
      (Phrase.Type type).ReadFrom (.ofText text) (parsed.diagnostics = #[]) run →
        (if parsed.diagnostics = #[] then TypeTree.nesting run else TypeTree.links run) ≤ limit) :
    ∀ type, (Phrase.Type type).Within (.Module parsed.items) →
      type.depth ≤ limit ∧ Lower.typeWithin type limit = liftM (Lower.type type) := by
  intro type hwithin
  obtain ⟨run, hrun, hread⟩ := (parse_traced hparse).read.within hwithin
  have hdepth : type.depth ≤ limit := by
    have hlimit := hwritten type hwithin run hrun hread
    split at hlimit
    · next hclean => exact TypeTree.depth_eq_nesting hread hclean ▸ hlimit
    · exact (TypeTree.depth_le_links hread).trans hlimit
  exact ⟨hdepth, Lower.typeWithin_eq hdepth⟩

-- Six suffixes, of which four are around or behind the innermost type.
theorem parse_types_shallow_four_deep :
    ∃ parsed, parse "int*[int*[int**]] x;".toList 100 4 = .ok parsed ∧
      ∀ type, (Phrase.Type type).Within (.Module parsed.items) →
        type.depth ≤ 4 ∧ Lower.typeWithin type 4 = liftM (Lower.type type) := by
  obtain ⟨parsed, hparse, hclean⟩ : ∃ parsed,
      parse "int*[int*[int**]] x;".toList 100 4 = .ok parsed ∧ parsed.diagnostics = #[] :=
    exists_clean_parse (by decide +kernel)
  have hruns : ∀ back ∈ (lex "int*[int*[int**]] x;".toList).tails, ∀ run ∈ back.inits,
      TypeTree.nesting run ≤ 4 := by decide +kernel
  refine ⟨parsed, hparse, parse_types_shallow hparse fun _ _ run hrun _ => ?_⟩
  obtain ⟨back, hrun, hback⟩ := List.infix_iff_prefix_suffix.mp hrun
  rw [if_pos hclean]
  exact hruns back ((List.mem_tails _ _).mpr hback) run ((List.mem_inits _ _).mpr hrun)

def Item.typeDepth? : Item → Option Nat
  | .Global declared => some declared.type.depth
  | _ => none

-- A key of a key of a key is read where nothing may nest deeper than two levels.
theorem parse_types_deeper_than_limit :
    ∃ parsed, parse "int[int[int[int]]] x;".toList 100 2 = .ok parsed ∧
      ∃ type, (Phrase.Type type).Within (.Module parsed.items) ∧ 2 < type.depth ∧
        ∀ state, (Lower.typeWithin type 2 state).1 = none := by
  obtain ⟨parsed, hparse, hdepths⟩ : ∃ parsed,
      parse "int[int[int[int]]] x;".toList 100 2 = .ok parsed ∧
        parsed.items.map Item.typeDepth? = [some 3] := exists_parse (by decide +kernel)
  obtain ⟨item, hitems, hdepth⟩ := List.map_eq_singleton_iff.mp hdepths
  cases item with
  | Global declared =>
      have hdeep : 2 < declared.type.depth := by
        rw [Option.some.inj hdepth]
        decide
      refine ⟨parsed, hparse, declared.type, ?_, hdeep, Lower.typeWithin_none hdeep⟩
      refine .trans (.single (b := .Variable declared) List.mem_cons_self)
        (.trans (.single (b := .Item (.Global declared)) List.mem_cons_self) (.single ?_))
      rw [hitems]
      exact List.mem_cons_self
  | _ => cases hdepth

end EffectLint
