import EffectLint.Proofs.Analysis.Reports
import EffectLint.Proofs.Grammar.Ranges
import EffectLint.Proofs.Lowering.RangesModule
import EffectLint.Report.Snippet

/-!
The text can be cut at every range that is reported. A range goes from the start of a token to the
end of one, or stands at the end of the text, and the range that covers two such ranges is one too.
-/

namespace EffectLint

namespace Text

variable {text : List Char} {left right : Nat}

-- What stands before one character stands before every later one.
theorem exists_between {before rest front after : List Char} (h : before ++ rest = front ++ after)
    (hle : width before ≤ width front) : ∃ middle, front = before ++ middle := by
  rcases List.append_eq_append_iff.mp h with ⟨middle, hfront, -⟩ | ⟨extra, hbefore, -⟩
  · exact ⟨middle, hfront⟩
  · rw [hbefore, width_append] at hle
    obtain rfl : extra = [] := by
      by_contra hextra
      have hpositive := width_pos hextra
      omega
    exact ⟨[], by simp [hbefore]⟩

theorem Boundary.min (h : Boundary text left) (h' : Boundary text right) :
    Boundary text (min left right) := by
  rcases min_choice left right with hmin | hmin
  · rwa [hmin]
  · rwa [hmin]

theorem Boundary.max (h : Boundary text left) (h' : Boundary text right) :
    Boundary text (max left right) := by
  rcases max_choice left right with hmax | hmax
  · rwa [hmax]
  · rwa [hmax]

theorem boundary_width (text : List Char) : Boundary text (width text) :=
  ⟨text, [], (List.append_nil text).symm, rfl⟩

end Text

-- A range between two characters of a text. It is empty only where nothing follows.
structure Span.Sliceable (text : List Char) (span : Span) : Prop where
  ordered : span.start ≤ span.stop
  within : span.stop ≤ Text.width text
  start : Text.Boundary text span.start
  stop : Text.Boundary text span.stop
  filled : span.start = span.stop → span.start = Text.width text

namespace Span.Sliceable

variable {text : List Char} {left right span : Span}

-- What is cut out stands in the text as a whole.
theorem exists_slice (h : span.Sliceable text) : ∃ before after,
    text = before ++ Text.slice text span ++ after ∧ span.start = Text.width before ∧
      span.stop = Text.width (before ++ Text.slice text span) := by
  obtain ⟨before, rest, htext, hstart⟩ := h.start
  obtain ⟨front, after, htext', hstop⟩ := h.stop
  obtain ⟨middle, rfl⟩ := Text.exists_between (htext.symm.trans htext')
    (hstart.trans_le (h.ordered.trans_eq hstop.symm))
  have hspan : span = ⟨Text.width before, Text.width (before ++ middle)⟩ := by rw [hstart, hstop]
  have hslice : Text.slice text span = middle := by
    rw [htext', hspan]
    exact Text.slice_between before middle after
  rw [hslice]
  exact ⟨before, after, htext', hstart.symm, hstop.symm⟩

theorem cover (h : left.Sliceable text) (h' : right.Sliceable text) :
    (left.cover right).Sliceable text := by
  have hordered := h.ordered
  have hordered' := h'.ordered
  refine ⟨?_, Nat.max_le.mpr ⟨h.within, h'.within⟩, h.start.min h'.start, h.stop.max h'.stop,
    fun hempty => ?_⟩
  · exact (Nat.min_le_left _ _).trans (hordered.trans (Nat.le_max_left _ _))
  · simp only [Span.cover] at hempty ⊢
    have hfilled := h.filled (by omega)
    have hfilled' := h'.filled (by omega)
    rw [hfilled, hfilled', Nat.min_self]

-- Such a range is shown as it is.
theorem clamp_eq {exhibit : Exhibit} (h : span.Sliceable exhibit.source) :
    exhibit.clamp span = span := by
  have hordered := h.ordered
  have hwithin := h.within
  have hstart : min span.start (Text.width exhibit.source) = span.start :=
    Nat.min_eq_left (hordered.trans hwithin)
  have hstop : min span.stop (Text.width exhibit.source) = span.stop := Nat.min_eq_left hwithin
  unfold Exhibit.clamp
  simp only [hstart, hstop]
  split
  · rename_i hempty
    have hend := h.filled hempty
    rw [hend, Nat.min_eq_right (Nat.le_succ _), ← hend]
    exact congrArg (Span.mk span.start) hempty
  · rfl

end Span.Sliceable

theorem Scene.Marks.sliceable {text : List Char} {span : Span} (h : (Scene.ofText text).Marks span) :
    span.Sliceable text := by
  rcases h with ⟨run, hrun, hcovers⟩ | rfl
  · have horder : Token.InOrder run :=
      ((lex_covers text).2.1.imp And.right).sublist hrun.sublist
    have hfilled : ∀ token ∈ run, token.span.start ≤ token.span.stop := fun token htoken =>
      (Scene.ofText text).filled token (hrun.subset htoken)
    obtain ⟨first, hfirst, hstart⟩ := hcovers.exists_start
    obtain ⟨last, hlast, hstop⟩ := hcovers.exists_stop
    obtain ⟨hlt, before, rest, htext, hspan, -⟩ := (lex_covers text).1 first (hrun.subset hfirst)
    obtain ⟨-, front, after, htext', hspan', -⟩ := (lex_covers text).1 last (hrun.subset hlast)
    have hle := hcovers.le_stop hfilled horder first hfirst
    have hstop' : span.stop = Text.width (front ++ last.text.toList) := by rw [hstop, hspan']
    refine ⟨by omega, ?_, ⟨before, first.text.toList ++ rest, ?_, ?_⟩,
      ⟨front ++ last.text.toList, after, htext', hstop'.symm⟩, fun hempty => by omega⟩
    · rw [hstop', htext', Text.width_append _ after]
      exact Nat.le_add_right _ _
    · rw [htext, List.append_assoc]
    · rw [hstart, hspan]
  · have hend := Text.boundary_width text
    exact ⟨Nat.le_refl _, Nat.le_refl _, hend, hend, fun _ => rfl⟩

-- The ranges of what was read, whatever is wrong with it.
theorem Parsed.Traced.sliceable {text : List Char} {parsed : Parsed} (h : parsed.Traced text) :
    (Phrase.Module parsed.items).Ranged (Span.Sliceable text) := by
  intro part hpart span hspan
  obtain ⟨run, hrun, hread⟩ := h.read.within hpart
  exact (hread.marks hrun hspan).sliceable

namespace Program

variable {program : Program}

-- A verdict is about the places of nodes.
theorem verdict_spans (wf : program.arena.WellFormed) (warns : Bool) (id : NodeId) :
    ∀ diagnostic ∈ program.verdict wf warns id, ∃ node ∈ program.arena.nodes,
      diagnostic.spans = [node.span] := by
  have hnothing : ∀ diagnostic ∈ ([] : List Diagnostic), ∃ node ∈ program.arena.nodes,
      diagnostic.spans = [node.span] := nofun
  induction hindex : id.index using Nat.strongRecOn generalizing id with
  | ind index ih =>
      subst hindex
      cases heffect : program.isEffectful id with
      | true =>
          rw [verdict, if_pos heffect]
          exact hnothing
      | false =>
          have hof : ∀ {kind}, program.arena.kind id = kind → _ := verdict_of_kind wf warns heffect
          have hlt : ∀ {operand}, operand ∈ (program.arena.kind id).operands →
              operand.index < id.index := fun hmem => wf.operand_lt hmem
          have hhere : ∀ {diagnostic : Diagnostic}, program.arena.kind id ≠ .Error →
              diagnostic.spans = [(program.arena.node id).span] →
              ∀ found ∈ [diagnostic], ∃ node ∈ program.arena.nodes, found.spans = [node.span] := by
            intro diagnostic hright hspans
            obtain ⟨node, hnode, hid⟩ := Arena.exists_node hright
            exact List.forall_mem_singleton.mpr ⟨node, hnode, by rw [hspans, hid]⟩
          cases hkind : program.arena.kind id with
          | Error =>
              rw [hof hkind]
              exact hnothing
          | Logical op left right =>
              rw [hof hkind]
              exact ih _ (hlt (by simp [hkind, NodeKind.operands])) right rfl
          | Conditional condition yes no =>
              rw [hof hkind]
              exact List.forall_mem_append.mpr
                ⟨ih _ (hlt (by simp [hkind, NodeKind.operands])) yes rfl,
                  ih _ (hlt (by simp [hkind, NodeKind.operands])) no rfl⟩
          | Comma first second =>
              rw [hof hkind]
              dsimp only
              split
              · exact hnothing
              · exact ih _ (hlt (by simp [hkind, NodeKind.operands])) second rfl
          | Call callee arguments function =>
              rw [hof hkind]
              dsimp only
              split
              · split
                · exact hhere (by simp [hkind]) rfl
                · exact hnothing
              · exact hnothing
          | Cast | Tuple =>
              rw [hof hkind]
              dsimp only
              split
              · exact hnothing
              · exact hhere (by simp [hkind]) rfl
          | _ =>
              rw [hof hkind]
              exact hhere (by simp [hkind]) rfl

theorem verdicts_spans (wf : program.arena.WellFormed) (warns : Bool) :
    ∀ diagnostic ∈ program.verdicts wf warns, ∃ node ∈ program.arena.nodes,
      diagnostic.spans = [node.span] := by
  intro diagnostic hmem
  obtain ⟨discarded, -, hverdict⟩ := List.mem_flatMap.mp hmem
  exact verdict_spans wf warns discarded.value diagnostic hverdict

end Program

namespace ParsedModule

variable {source : List Char} {settings : Settings} {parsed : ParsedModule}

theorem traced_of_read (hread : read source settings = .ok parsed) :
    Parsed.Traced source ⟨parsed.items, parsed.diagnostics⟩ :=
  parse_traced (parse_of_read hread).1

theorem lowered_ranged (hread : read source settings = .ok parsed) :
    parsed.lowered.Ranged (Span.Sliceable source) ∧
      ∀ source', parsed.lowered.program.Quotes source source' →
        lower source' parsed.items (.start settings.warnings parsed.diagnostics) = parsed.lowered := by
  obtain ⟨-, hsource, hsettings⟩ := parse_of_read hread
  have htraced := traced_of_read hread
  rw [lowered, hsource, hsettings]
  exact lower_ranged (fun _ _ => Span.Sliceable.cover) source htraced.sliceable
    fun diagnostic hmem span hspan => (htraced.marked diagnostic hmem span hspan).sliceable

theorem diagnostics_sliceable (hread : read source settings = .ok parsed) :
    ∀ diagnostic ∈ parsed.diagnostics.toList ++ parsed.analyze.diagnostics,
      ∀ span ∈ diagnostic.spans, span.Sliceable source := by
  obtain ⟨hnodes, hsaid⟩ := (lowered_ranged hread).1
  rw [analyze_reports]
  refine List.forall_mem_append.mpr ⟨fun diagnostic hmem span hspan => ?_,
    List.forall_mem_append.mpr ⟨fun diagnostic hmem => hsaid diagnostic (Array.mem_toList_iff.mp hmem),
      fun diagnostic hmem span hspan => ?_⟩⟩
  · exact ((traced_of_read hread).marked diagnostic (Array.mem_toList_iff.mp hmem) span hspan).sliceable
  · obtain ⟨node, hnode, hspans⟩ :=
      Program.verdicts_spans parsed.lowered_wellFormed _ diagnostic hmem
    rw [hspans] at hspan
    exact List.mem_singleton.mp hspan ▸ hnodes node hnode

-- The text can be cut at all ranges that are reported and shown, and lowering looks at the text only
-- where it can be cut: at the ranges of nodes, also while nothing is kept of what is said.
theorem reports_sliceable (hread : read source settings = .ok parsed) :
    (∀ diagnostic ∈ parsed.diagnostics.toList ++ parsed.analyze.diagnostics,
      ∀ span ∈ diagnostic.spans, span.Sliceable source ∧
        ∀ exhibit : Exhibit, exhibit.source = source → (exhibit.clamp span).Sliceable source) ∧
    (∀ node ∈ parsed.lowered.program.arena.nodes, node.span.Sliceable source) ∧
    (∀ source', parsed.lowered.program.Quotes source source' →
      lower source' parsed.items (.start settings.warnings parsed.diagnostics) = parsed.lowered) ∧
    ∀ source' whole, (Phrase.Expr whole).Within (.Module parsed.items) →
      Lower.Ranges (Span.Sliceable source) source source' (Lower.expr source whole)
        (Lower.expr source' whole) := by
  obtain ⟨hranged, halike⟩ := lowered_ranged hread
  refine ⟨fun diagnostic hmem span hspan => ?_, hranged.nodes, halike, fun source' whole hwhole => ?_⟩
  · have hsliceable := diagnostics_sliceable hread diagnostic hmem span hspan
    refine ⟨hsliceable, fun exhibit hexhibit => ?_⟩
    subst hexhibit
    rw [hsliceable.clamp_eq]
    exact hsliceable
  · have hitems := (traced_of_read hread).sliceable
    exact Lower.Ranges.expr (fun _ _ => Span.Sliceable.cover) fun part hpart =>
      hitems part (hpart.trans hwhole)

theorem reports_sliceable_broken :
    ∃ source parsed, source = "int x; void f() \x7b *\"ü\"; x; x(".toList ∧
      read source ⟨100, 30, .Informational⟩ = .ok parsed ∧
      parsed.analyze.diagnostics.flatMap Diagnostic.spans = [⟨30, 30⟩, ⟨29, 30⟩, ⟨30, 30⟩,
        ⟨30, 30⟩, ⟨16, 17⟩, ⟨19, 23⟩, ⟨28, 29⟩, ⟨25, 26⟩] ∧
      (∀ diagnostic ∈ parsed.diagnostics.toList ++ parsed.analyze.diagnostics,
        ∀ span ∈ diagnostic.spans, span.Sliceable source ∧
          ∀ exhibit : Exhibit, exhibit.source = source → (exhibit.clamp span).Sliceable source) ∧
      (∀ node ∈ parsed.lowered.program.arena.nodes, node.span.Sliceable source) ∧
      (∀ source', parsed.lowered.program.Quotes source source' →
        lower source' parsed.items (.start .Informational parsed.diagnostics) = parsed.lowered) ∧
      ∀ source' whole, (Phrase.Expr whole).Within (.Module parsed.items) →
        Lower.Ranges (Span.Sliceable source) source source' (Lower.expr source whole)
          (Lower.expr source' whole) := by
  obtain ⟨parsed, hread, hspans⟩ : ∃ parsed,
      read "int x; void f() \x7b *\"ü\"; x; x(".toList ⟨100, 30, .Informational⟩ = .ok parsed ∧
        parsed.analyze.diagnostics.flatMap Diagnostic.spans = [⟨30, 30⟩, ⟨29, 30⟩, ⟨30, 30⟩,
          ⟨30, 30⟩, ⟨16, 17⟩, ⟨19, 23⟩, ⟨28, 29⟩, ⟨25, 26⟩] := exists_read (by decide +kernel)
  exact ⟨_, parsed, rfl, hread, hspans, reports_sliceable hread⟩

end ParsedModule

end EffectLint
