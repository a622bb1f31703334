/-
Prose does not depend on how its lines were broken.

A paragraph is its words.  However they are spread over comment lines, wherever each line
is indented to and however wide the gaps between the words are, the paragraph is broken
into the same output lines (`reflow_raw_eq_line`).  Behind the marker of each line there is
white space, so nothing of a word is taken for a part of the marker, whatever signs it
starts with (`body_raw`).
-/
import Listing.Proofs.Comment
import Listing.Proofs.Prose.Gaps
import Listing.Proofs.Text.Words

namespace Listing
namespace Prose

/-- A comment line as an author writes it, its marker aside. -/
structure WrittenLine where
  lead : Text
  /-- The white space between the marker and the prose. -/
  gap : Text
  prose : Text

namespace WrittenLine

/-- The line with its marker. -/
def raw (m : Marker) (l : WrittenLine) : Text := l.lead ++ m.text ++ l.gap ++ l.prose

/-- The prose of the line is these words, and they do not make a border. -/
structure Holds (l : WrittenLine) (words : List Text) : Prop where
  lead : Text.allBlank l.lead = true
  gap_ne : l.gap ≠ []
  gap : Text.allBlank l.gap = true
  inked : ∀ w ∈ words, w ≠ [] ∧ ∀ c ∈ w, Text.isBlank c = false
  spread : Text.Spread words l.prose
  plain : Border.char? l.prose = none

theorem Holds.exists_gap_eq {l : WrittenLine} {words : List Text} (h : l.Holds words) :
    ∃ c gap, l.gap = c :: gap ∧ Text.isBlank c = true := by
  obtain ⟨c, gap, hgap⟩ := List.exists_cons_of_ne_nil h.gap_ne
  exact ⟨c, gap, hgap, Text.isBlank_of_allBlank h.gap (hgap ▸ List.mem_cons_self)⟩

end WrittenLine

section

variable {g : Grammar} {m : Marker} {others : List Marker} {l : WrittenLine} {words : List Text}

theorem indent_raw (h : l.Holds words) (hm : ∀ c ∈ m.text, Text.isBlank c = false) :
    Text.indent (l.raw m) = l.lead := by
  rw [WrittenLine.raw, List.append_assoc, List.append_assoc]
  exact Text.indent_append_cons h.lead (hm m.first List.mem_cons_self) _

theorem trims_raw (h : l.Holds words) (hm : ∀ c ∈ m.text, Text.isBlank c = false) :
    Text.Trims (l.raw m) l.lead (m.text ++ (l.gap ++ l.prose)) [] := by
  obtain ⟨hne, -, hend⟩ := h.spread.ends_inked h.inked
  have hstart : Text.indent (m.text ++ (l.gap ++ l.prose)) = [] :=
    Text.indent_append_of_ne_nil (Text.indent_of_forall_not_blank hm) (List.cons_ne_nil _ _) _
  have hstop : Text.indent (m.text ++ (l.gap ++ l.prose)).reverse = [] := by
    rw [List.reverse_append, List.reverse_append, List.append_assoc]
    exact Text.indent_append_of_ne_nil hend (by simpa using hne) _
  have hraw : l.raw m = l.lead ++ (m.text ++ (l.gap ++ l.prose)) ++ [] := by
    rw [WrittenLine.raw, List.append_nil, List.append_assoc, List.append_assoc]
  rw [hraw]
  exact .of_indent h.lead rfl hstart hstop

/-- The marker goes up to the white space behind it and no further. -/
theorem body_raw (hg : g.lineComments = m :: others) (h : l.Holds words)
    (hm : ∀ c ∈ m.text, Text.isBlank c = false) :
    Comment.body g (l.raw m) = l.prose := by
  have hmarker : g.FirstMarker (m.text ++ (l.gap ++ l.prose)) m :=
    ⟨List.prefix_append _ _, [], others, hg, fun other hother => absurd hother List.not_mem_nil⟩
  obtain ⟨c, gap, hgap, hc⟩ := h.exists_gap_eq
  have hrepeats : MaximalRun m.text.contains [] (l.gap ++ l.prose) := by
    refine ⟨fun d hd => absurd hd List.not_mem_nil, fun d hd => ?_⟩
    rw [hgap] at hd
    obtain rfl := Option.some.inj hd
    refine Bool.eq_false_iff.mpr fun hmem => ?_
    rw [hm c (List.contains_iff_mem.mp hmem)] at hc
    exact Bool.false_ne_true hc
  have hbang : ¬ ['!'] <+: l.gap ++ l.prose := by
    rw [hgap, List.cons_append, List.cons_prefix_cons]
    intro hprefix
    rw [← hprefix.1] at hc
    exact absurd hc (by decide)
  obtain ⟨-, hstart, hend⟩ := h.spread.ends_inked h.inked
  have hprose : Text.Trims (l.gap ++ l.prose ++ []) l.gap l.prose [] :=
    .of_indent h.gap rfl hstart hend
  rw [List.append_nil] at hprose
  have htail : Comment.TailOff m (l.gap ++ l.prose) ([] ++ []) (l.gap ++ l.prose) :=
    .intro rfl hrepeats (.missing hbang)
  exact (Comment.TakenApart.line (trims_raw h hm) hmarker rfl htail hprose).eq_body.symm

/-- A marker with white space behind it is no part of a border. -/
theorem char?_raw (h : l.Holds words) (hm : ∀ c ∈ m.text, Text.isBlank c = false) :
    Border.char? (l.raw m) = none := by
  rw [Option.eq_none_iff_forall_ne_some]
  intro d hd
  obtain ⟨hmem, n, -, hrun⟩ := Border.char?_eq_some_iff.mp hd
  rw [← (trims_raw h hm).eq_trim] at hrun
  obtain ⟨c, gap, hgap, hc⟩ := h.exists_gap_eq
  have hin : c ∈ List.replicate n d := by
    rw [← hrun, hgap]
    simp
  rw [List.eq_of_mem_replicate hin, Border.isBlank_of_mem_characters hmem] at hc
  exact Bool.false_ne_true hc

theorem allBlank_raw (hm : ∀ c ∈ m.text, Text.isBlank c = false) (l : WrittenLine) :
    Text.allBlank (l.raw m) = false := by
  have hmarker : Text.allBlank m.text = false := by
    rw [Text.allBlank, Marker.text, List.all_cons, hm m.first List.mem_cons_self, Bool.false_and]
  rw [Text.allBlank] at hmarker ⊢
  rw [WrittenLine.raw, List.all_append, List.all_append, List.all_append, hmarker, Bool.and_false,
    Bool.false_and, Bool.false_and]

theorem classify_raw (hg : g.lineComments = m :: others) (h : l.Holds words)
    (hm : ∀ c ∈ m.text, Text.isBlank c = false) (indent : Text) (width : Nat) :
    classify g indent width (l.raw m) = .text l.prose := by
  have hbody := body_raw hg h hm
  have hne := (h.spread.ends_inked h.inked).1
  obtain ⟨hread, hblank⟩ | ⟨border, hborder, -⟩ | ⟨border, -, hborder, -⟩ | ⟨hread, -⟩ :=
    classify_cases g indent width (l.raw m)
  · rcases hblank with hblank | ⟨-, hnil⟩
    · rw [allBlank_raw hm] at hblank
      exact absurd hblank Bool.false_ne_true
    · exact absurd (hbody.symm.trans hnil) hne
  · rw [Border.fill?, char?_raw h hm] at hborder
    simp at hborder
  · rw [hbody, Border.fill?, h.plain] at hborder
    simp at hborder
  · rw [hread, hbody]

/-! ## The paragraph -/

theorem gather_texts {bodies : List Text} (h : bodies ≠ []) :
    gather (bodies.map .text) = [.paragraph bodies] := by
  induction bodies with
  | nil => exact absurd rfl h
  | cons body rest ih =>
    rw [List.map_cons, gather]
    cases rest with
    | nil => rfl
    | cons next rest => rw [ih (List.cons_ne_nil next rest), Block.consText]

theorem exists_holds {lines : List WrittenLine} {parts : List (List Text)}
    (h : List.Forall₂ WrittenLine.Holds lines parts) : ∀ l ∈ lines, ∃ words, l.Holds words := by
  induction h with
  | nil => exact fun l hl => absurd hl List.not_mem_nil
  | @cons l words _ _ hl _ ih => exact List.forall_mem_cons.mpr ⟨⟨words, hl⟩, ih⟩

theorem joined_prose {lines : List WrittenLine} {parts : List (List Text)}
    (h : List.Forall₂ WrittenLine.Holds lines parts) :
    joined (lines.map WrittenLine.prose) = Text.join [' '] parts.flatten := by
  have hwords : (lines.map WrittenLine.prose).flatMap Text.words = parts.flatten := by
    induction h with
    | nil => rfl
    | @cons l words lines parts hl _ ih =>
      rw [List.map_cons, List.flatMap_cons, hl.spread.words_eq hl.inked, ih, List.flatten_cons]
  rw [joined, Text.words_join, hwords]

theorem commentLine_of_ne_nil {text : Text} (h : text ≠ []) (indent : Text) :
    commentLine indent text = ⟨Span.unlessEmpty .plain indent ++ [⟨.comment, text⟩]⟩ := by
  cases indent with
  | nil =>
    obtain ⟨c, r, rfl⟩ := List.exists_cons_of_ne_nil h
    rfl
  | cons c indent => rfl

theorem reflow_paragraph {width : Nat} {raws bodies : List Text} (hne : bodies ≠ [])
    (hink : bodies.flatMap Text.ink ≠ [])
    (hread : raws.map (classify g (groupIndent width raws) width) = bodies.map .text) :
    reflow g width raws = paragraphLines (groupIndent width raws) width bodies := by
  have hwritten : ∀ line ∈ paragraphLines (groupIndent width raws) width bodies,
      isWritten line = true :=
    fun line hline => isWritten_of_ink_ne_nil (ink_ne_nil_of_mem_paragraphLines hink hline)
  have hlines : blockLines (groupIndent width raws) width false [.paragraph bodies] =
      paragraphLines (groupIndent width raws) width bodies := by
    rw [blockLines, blockLines, List.append_nil]
  rw [reflow, hread, gather_texts hne, hlines]
  exact dropBlankEnd_eq_self fun line hline => hwritten line (List.mem_of_getLast? hline)

theorem groupIndent_raw (h : l.Holds words) (hm : ∀ c ∈ m.text, Text.isBlank c = false)
    (width : Nat) (others : List Text) :
    groupIndent width (l.raw m :: others) =
      if Text.width l.lead + Wrap.window ≤ width then l.lead else [] := by
  have hblank := allBlank_raw hm l
  rw [groupIndent, List.find?_cons_of_pos (by rw [hblank]; rfl)]
  simp only [indent_raw h hm]

/-- Words that are spread over comment lines are set as the paragraph of these words, behind
the indentation of the first line if that leaves room for a whole break window.  Nothing else
of the lines shows: not where they were broken, nor how they were indented and spaced. -/
theorem reflow_raw_eq_line (hg : g.lineComments = m :: others)
    (hm : ∀ c ∈ m.text, Text.isBlank c = false) {first : WrittenLine} {rest : List WrittenLine}
    {parts : List (List Text)} {words : List Text} (hparts : parts.flatten = words)
    (hlines : List.Forall₂ WrittenLine.Holds (first :: rest) parts) (width : Nat) :
    let indent := if Text.width first.lead + Wrap.window ≤ width then first.lead else []
    reflow g width ((first :: rest).map (WrittenLine.raw m)) =
      (Wrap.line (Text.join [' '] words) (width - Text.width indent)).map fun shown =>
        ⟨Span.unlessEmpty .plain indent ++ [⟨.comment, shown⟩]⟩ := by
  intro indent
  have hholds : ∀ l ∈ first :: rest, ∃ words, l.Holds words := exists_holds hlines
  obtain ⟨_, hfirst⟩ := hholds first List.mem_cons_self
  obtain ⟨hne, hstart, -⟩ := hfirst.spread.ends_inked hfirst.inked
  have hjoined := joined_prose hlines
  rw [hparts] at hjoined
  have hbodies : (first :: rest).map WrittenLine.prose ≠ [] := List.cons_ne_nil _ _
  have hink : ((first :: rest).map WrittenLine.prose).flatMap Text.ink ≠ [] := by
    rw [List.map_cons, List.flatMap_cons]
    exact fun hnil => Text.ink_ne_nil_of_indent hstart hne (List.append_eq_nil_iff.mp hnil).1
  have hread : ((first :: rest).map (WrittenLine.raw m)).map (classify g indent width) =
      ((first :: rest).map WrittenLine.prose).map .text := by
    rw [List.map_map, List.map_map]
    refine List.map_congr_left fun l hl => ?_
    obtain ⟨_, h⟩ := hholds l hl
    exact classify_raw hg h hm indent width
  have hindent : groupIndent width ((first :: rest).map (WrittenLine.raw m)) = indent :=
    groupIndent_raw hfirst hm width (rest.map (WrittenLine.raw m))
  rw [← hindent] at hread
  rw [reflow_paragraph hbodies hink hread, hindent, paragraphLines]
  -- No line of the paragraph is empty, so each has a span of its own.
  have hwordsNe : joined ((first :: rest).map WrittenLine.prose) ≠ [] := by
    intro hnil
    rw [← ink_joined, hnil] at hink
    exact hink rfl
  rw [← hjoined]
  refine List.map_congr_left fun shown hshown => commentLine_of_ne_nil ?_ indent
  rintro rfl
  exact Wrap.ink_ne_nil_of_mem_line (indent_joined _) hwordsNe hshown rfl

end

/-- Words that look like a marker, a border and a star, two on each of three lines. -/
def markedLines : List WrittenLine :=
  [⟨"    ".toList, " ".toList, "//".toList ++ " ".toList ++ "===".toList⟩,
    ⟨[], "  ".toList, "*".toList ++ "\t".toList ++ "marks,".toList⟩,
    ⟨"\u3000".toList, " ".toList, "and".toList ++ "  ".toList ++ "borders,bridges".toList⟩]

def markedWords : List (List Text) :=
  [["//".toList, "===".toList], ["*".toList, "marks,".toList],
    ["and".toList, "borders,bridges".toList]]

theorem holds_two {lead gap between v w : Text} (hlead : Text.allBlank lead = true)
    (hgap : gap ≠ [] ∧ Text.allBlank gap = true)
    (hbetween : between ≠ [] ∧ Text.allBlank between = true)
    (hwords : [v, w].all (fun u => !u.isEmpty && u.all (!Text.isBlank ·)) = true)
    (hplain : Border.char? (v ++ between ++ w) = none) :
    WrittenLine.Holds ⟨lead, gap, v ++ between ++ w⟩ [v, w] where
  lead := hlead
  gap_ne := hgap.1
  gap := hgap.2
  inked := by simpa [List.all_eq_true] using hwords
  spread := .cons hbetween.1 hbetween.2 (.last w)
  plain := hplain

theorem holds_markedLines : List.Forall₂ WrittenLine.Holds markedLines markedWords := by
  refine .cons (holds_two rfl ?_ ?_ rfl rfl) (.cons (holds_two rfl ?_ ?_ rfl rfl)
    (.cons (holds_two rfl ?_ ?_ rfl rfl) .nil))
  all_goals exact ⟨List.cons_ne_nil _ _, rfl⟩

theorem reflow_raw_eq_line_marked :
    let m : Marker := ⟨'/', ['/']⟩
    let g := Grammar.ofDefinition
      { id := "c".toList, lineComments := ["//".toList, "#".toList] }
    g.lineComments = [m, ⟨'#', []⟩] ∧ (∀ c ∈ m.text, Text.isBlank c = false) ∧
      List.Forall₂ WrittenLine.Holds markedLines markedWords ∧
      reflow g 34 (markedLines.map (WrittenLine.raw m)) =
        ["// === * marks, and borders,".toList, "bridges".toList].map fun shown =>
          ⟨[⟨.plain, "    ".toList⟩, ⟨.comment, shown⟩]⟩ := by
  intro m g
  have hg : g.lineComments = [m, ⟨'#', []⟩] := rfl
  have hm : ∀ c ∈ m.text, Text.isBlank c = false := by
    have hall : m.text.all (fun c => Text.isBlank c == false) = true := rfl
    exact fun c hc => beq_iff_eq.mp (List.all_eq_true.mp hall c hc)
  have hline : Wrap.line (Text.join [' '] markedWords.flatten) 30 =
      ["// === * marks, and borders,".toList, "bridges".toList] := by decide +kernel
  refine ⟨hg, hm, holds_markedLines, ?_⟩
  rw [← hline]
  exact reflow_raw_eq_line hg hm rfl holds_markedLines 34

end Prose
end Listing
