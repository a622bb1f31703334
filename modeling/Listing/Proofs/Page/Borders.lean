/-
Borders on pages.

A line that is drawn as a border keeps its indentation and its character and fills the page
as far as the shortest run allows.  It is then as it would be drawn again, so whatever shows
it once at a width shows it unchanged the next time (`Drawn`, and `fills_iff_run_and_drawn`
for which lines are drawn at all).  A page draws borders in two ways, a line of code by
`Segment.borderLine` and a line of a comment group by `Prose.classify`.  Both show the same
text (`texts_output_single`, `texts_output_group`), so the page does not depend on which of
the two it is.
-/
import Listing.Proofs.Page.Segments
import Listing.Proofs.Prose.Gaps
import Listing.Proofs.Text.Lines
import Listing.Proofs.Text.Tabs

namespace Listing

variable {t border : Text} {width : Nat}

namespace Segment

/-! ## A line of code -/

theorem kind_eq_border {line : Line} {c : Char} (h : Border.char? line.text = some c) :
    line.kind = .border := by
  rw [Line.kind, Border.allBlank_eq_false h, if_neg Bool.false_ne_true, h]
  exact if_pos rfl

theorem text_borderLine {line : Line} (h : Border.fill? line.text width = some border) :
    (borderLine line width).text = border := by
  obtain ⟨c, -, hc, -⟩ := Border.exists_char?_of_fill? h
  exact Option.some.inj ((fill?_eq_borderLine_text (kind_eq_border hc) width).symm.trans h)

/-- A line that has been drawn as a border is not changed when it is drawn again: its first
span that is not blank is the run, so the run keeps its class. -/
theorem borderLine_borderLine {line : Line} (h : Border.fill? line.text width = some border) :
    borderLine (borderLine line width) width = borderLine line width := by
  obtain ⟨c, -, -, hc⟩ := Border.exists_char?_of_fill? h
  obtain ⟨r, hrun, hink⟩ := Border.exists_trimStart_eq hc
  obtain ⟨kind, hline⟩ : ∃ kind, borderLine line width =
      ⟨Span.unlessEmpty .plain (Text.indent border) ++ [⟨kind, c :: r⟩]⟩ := by
    rw [borderLine, h]
    simp only [hrun]
    exact ⟨_, rfl⟩
  have hnone : (Span.unlessEmpty .plain (Text.indent border)).find? (!·.isBlank) = none := by
    refine List.find?_eq_none.mpr fun s hs => ?_
    rw [Span.isBlank_of_mem_unlessEmpty (Text.allBlank_indent border) hs]
    exact Bool.false_ne_true
  have hsome : [⟨kind, c :: r⟩].find? (fun s : Span => !s.isBlank) = some ⟨kind, c :: r⟩ := by
    refine List.find?_cons_of_pos ?_
    simp [Span.isBlank, Text.allBlank, hink]
  rw [borderLine.eq_def (borderLine line width), text_borderLine h, Border.fill?_fill? h]
  simp only [hline, List.find?_append, hnone, hsome, hrun]
  rfl

theorem texts_output_single (lexer : Lexer) {s : SourceLine} (htext : s.line.text = s.text)
    (h : Border.fill? s.text width = some border) :
    ((Segment.single s).output lexer width).map Line.text = [border] := by
  rw [← htext] at h
  obtain ⟨c, -, hc, -⟩ := Border.exists_char?_of_fill? h
  rw [output, if_pos (kind_eq_border hc), List.map_singleton, text_borderLine h]

end Segment

namespace Prose

/-! ## A line of a comment group -/

theorem classify_of_fill? (g : Grammar) (indent : Text) (h : Border.fill? t width = some border) :
    classify g indent width t
      = .border (commentLine (Text.indent border) (Text.trimStart border)) := by
  obtain ⟨c, -, hc, -⟩ := Border.exists_char?_of_fill? h
  rw [classify, Border.allBlank_eq_false hc, if_neg Bool.false_ne_true, h]

theorem reflow_of_fill? (g : Grammar) (h : Border.fill? t width = some border) :
    reflow g width [t] = [commentLine (Text.indent border) (Text.trimStart border)] := by
  have hwritten : isWritten (commentLine (Text.indent border) (Text.trimStart border)) = true := by
    rw [isWritten_iff]
    intro hblank
    have htext := congrArg Line.text hblank
    rw [text_commentLine, Text.indent_append_trimStart] at htext
    obtain ⟨c, -, -, hc⟩ := Border.exists_char?_of_fill? h
    rw [htext] at hc
    exact Bool.false_ne_true (Border.allBlank_eq_false hc).symm
  rw [reflow, List.map_singleton, classify_of_fill? g _ h, gather, gather, blockLines, blockLines]
  exact dropBlankEnd_eq_self fun line hline => Option.some.inj hline ▸ hwritten

end Prose

namespace Segment

theorem texts_output_group (lexer : Lexer) {s : SourceLine}
    (h : Border.fill? s.text width = some border) :
    ((Segment.group s []).output lexer width).map Line.text = [border] := by
  rw [output, List.map_singleton, Prose.reflow_of_fill? _ h, List.map_singleton,
    Prose.text_commentLine, Text.indent_append_trimStart]

theorem texts_output_split (lexer : Lexer) (reflow : Bool) {s : SourceLine}
    (htext : s.line.text = s.text) (h : Border.fill? s.text width = some border) :
    ((split reflow [s]).flatMap (output lexer width)).map Line.text = [border] := by
  rw [split]
  split
  · rw [List.take_nil, List.drop_nil, split, List.flatMap_singleton]
    exact texts_output_group lexer h
  · rw [split, List.flatMap_singleton]
    exact texts_output_single lexer htext h

end Segment

namespace Page

/-! ## A page of one line -/

theorem texts_outputLines (g : Grammar) {options : PageOptions} {source : Text}
    (hsource : '\n' ∉ source)
    (h : Border.fill? (Text.expandTabs options.tabWidth source) width = some border) :
    (outputLines g width options source).map (fun out => out.line.text) = [border] := by
  have hne : source ≠ [] := by
    rintro rfl
    obtain ⟨c, -, hc, -⟩ := Border.exists_char?_of_fill? h
    exact Bool.false_ne_true (Border.allBlank_eq_false hc).symm
  have hlines : sourceLines { grammar := g } options.tabWidth source =
      linesFrom { grammar := g } ScanState.start [Text.expandTabs options.tabWidth source] := by
    rw [sourceLines, Text.lines_of_not_mem hsource hne, List.map_singleton]
    rfl
  have hmap : (outputLines g width options source).map (fun out => out.line.text) =
      ((outputLines g width options source).map NumberedLine.line).map Line.text := by
    rw [List.map_map]
    rfl
  rw [hmap, outputLines, map_line_numberedLines, hlines]
  exact Segment.texts_output_split _ _ (Lexer.highlight_text _ _ _) h

end Page

/-! ## Drawing again -/

/-- What a border drawn for a page of `width` columns is like, and that it stays as it is
wherever it is drawn again for such a page. -/
structure Drawn (t : Text) (width : Nat) (border : Text) : Prop where
  indent : Text.indent border = Text.indent t
  width_eq : Text.width border = max width (Text.width (Text.indent t) + 3)
  char : ∃ c ∈ Border.characters, Border.char? t = some c ∧ Border.char? border = some c
  again : Border.fill? border width = some border
  /-- A line of code shows it, and is then left alone with its spans. -/
  code : ∀ line : Line, line.text = t →
    (Segment.borderLine line width).text = border ∧
      Segment.borderLine (Segment.borderLine line width) width = Segment.borderLine line width
  /-- A comment group shows it on a line of its own, wherever in the group it stands. -/
  prose : ∀ g indent, ∃ line : Line, line.text = border ∧
    Prose.classify g indent width t = .border line ∧
    Prose.classify g indent width border = .border line
  /-- The page of a source of one line is the border, and so is the page of the border. -/
  page : ∀ g (options : PageOptions) source, '\n' ∉ source →
    Text.expandTabs options.tabWidth source = t →
    (Page.outputLines g width options source).map (fun out => out.line.text) = [border] ∧
      (Page.outputLines g width options border).map (fun out => out.line.text) = [border]

theorem Border.drawn_of_fill? (h : Border.fill? t width = some border) : Drawn t width border := by
  obtain ⟨-, hindent, -, hwidth⟩ := Border.fill?_spec h
  have hagain := Border.fill?_fill? h
  exact
    { indent := hindent
      width_eq := hwidth
      char := Border.exists_char?_of_fill? h
      again := hagain
      code := by
        rintro line rfl
        exact ⟨Segment.text_borderLine h, Segment.borderLine_borderLine h⟩
      prose := by
        intro g indent
        refine ⟨_, ?_, Prose.classify_of_fill? g indent h, Prose.classify_of_fill? g indent hagain⟩
        rw [Prose.text_commentLine, Text.indent_append_trimStart]
      page := by
        rintro g options source hsource rfl
        -- What is drawn is made of the line it is drawn from, so it has no tab and no line feed.
        have hmem : ∀ d ∈ border, d = ' ' ∨ d ∈ source ∧ d ≠ '\t' :=
          fun d hd => Text.mem_expandTabs (Border.mem_of_mem_fill? h hd)
        have hline : '\n' ∉ border :=
          fun hd => (hmem _ hd).elim (by decide) fun hd => hsource hd.1
        have htab : '\t' ∉ border :=
          fun hd => (hmem _ hd).elim (by decide) fun hd => hd.2 rfl
        refine ⟨Page.texts_outputLines g hsource h, Page.texts_outputLines g hline ?_⟩
        rw [Text.expandTabs_of_not_mem _ htab]
        exact hagain }

/-- A line is drawn as a border exactly if it is a run of three or more copies of a border
character with white space around it, and what is drawn is then not changed by drawing it
again at the same width. -/
theorem Border.fills_iff_run_and_drawn (t : Text) (width : Nat) :
    ((Border.fill? t width).isSome = true ↔
      ∃ c ∈ Border.characters, ∃ n, 3 ≤ n ∧ Text.trim t = List.replicate n c) ∧
    ∀ border, Border.fill? t width = some border → Drawn t width border := by
  refine ⟨?_, fun border h => drawn_of_fill? h⟩
  rw [fill?_isSome, Option.isSome_iff_exists]
  exact exists_congr fun c => char?_eq_some_iff

theorem Border.drawn_wide_indent :
    Border.fill? "\u3000 ----  ".toList 10 = some "\u3000 -------".toList ∧
      Drawn "\u3000 ----  ".toList 10 "\u3000 -------".toList :=
  have h : Border.fill? "\u3000 ----  ".toList 10 = some "\u3000 -------".toList := by
    decide +kernel
  ⟨h, (Border.fills_iff_run_and_drawn _ 10).2 _ h⟩

end Listing
