/-
A page is set segment by segment.

`setInSegments_split` collects what that means.  The segments of a source hold its
lines, each once and in order.  A segment that is not a comment group is one line,
and what is shown of that line has its ink, so no character of code is lost, shown
twice, moved or set as prose.  A comment group ends with a comment and could not
have gone on: `groupLength_maximal` is the induction behind that, over the lines
that the search for the end of a group looks at.
-/
import Listing.Page.Basic
import Listing.Proofs.Border
import Listing.Proofs.Wrap.Fragments

namespace Listing
namespace Segment

/-! ## Where a comment group ends -/

/-- A line joins the group before it, as a comment or as a blank line with a comment
of the group behind it, or it stays out and the group ends before it. -/
theorem groupLength_cons (s : SourceLine) (rest : List SourceLine) :
    (groupLength (s :: rest) = groupLength rest + 1 ∧
      (s.line.isCommentOnly = true ∨ s.line.kind = .blank ∧ groupLength rest ≠ 0)) ∨
    (groupLength (s :: rest) = 0 ∧ s.line.isCommentOnly = false ∧
      (s.line.kind = .blank → groupLength rest = 0)) := by
  rw [groupLength]
  split
  · rename_i hcomment
    exact .inl ⟨rfl, .inl hcomment⟩
  · rename_i hcode
    have hcode' : s.line.isCommentOnly = false := Bool.eq_false_iff.mpr hcode
    split
    · rename_i hblank
      cases hn : groupLength rest with
      | zero => exact .inr ⟨rfl, hcode', fun _ => rfl⟩
      | succ n => exact .inl ⟨rfl, .inr ⟨hblank, Nat.succ_ne_zero n⟩⟩
    · rename_i hblank
      exact .inr ⟨rfl, hcode', fun h => absurd h hblank⟩

theorem comment_or_blank_of_mem_group {sources : List SourceLine} {s : SourceLine}
    (hs : s ∈ sources.take (groupLength sources)) :
    s.line.isCommentOnly = true ∨ s.line.kind = .blank := by
  induction sources with
  | nil => exact absurd hs List.not_mem_nil
  | cons t rest ih =>
    obtain ⟨hlength, hjoins⟩ | ⟨hlength, -⟩ := groupLength_cons t rest
    · rw [hlength, List.take_succ_cons] at hs
      rcases List.mem_cons.mp hs with rfl | hs
      · exact hjoins.imp_right And.left
      · exact ih hs
    · rw [hlength] at hs
      exact absurd hs List.not_mem_nil

theorem exists_getLast?_group {sources : List SourceLine} (h : groupLength sources ≠ 0) :
    ∃ s, (sources.take (groupLength sources)).getLast? = some s ∧
      s.line.isCommentOnly = true := by
  induction sources with
  | nil => exact absurd rfl h
  | cons t rest ih =>
    obtain ⟨hlength, hjoins⟩ | ⟨hlength, -⟩ := groupLength_cons t rest
    · rw [hlength, List.take_succ_cons, List.getLast?_cons]
      by_cases hrest : groupLength rest = 0
      · refine ⟨t, by rw [hrest]; rfl, ?_⟩
        exact hjoins.resolve_right fun hblank => hblank.2 hrest
      · obtain ⟨s, hs, hcomment⟩ := ih hrest
        exact ⟨s, by rw [hs]; rfl, hcomment⟩
    · exact absurd hlength h

/-- A group cannot go on: however many blank lines are passed over behind it, the
line after them is not a comment. -/
theorem groupLength_maximal {sources skipped tail : List SourceLine} {next : SourceLine}
    (hcut : sources.drop (groupLength sources) = skipped ++ next :: tail)
    (hskipped : ∀ s ∈ skipped, s.line.kind = .blank) : next.line.isCommentOnly = false := by
  induction sources generalizing skipped with
  | nil => exact absurd hcut (by simp [groupLength])
  | cons t rest ih =>
    obtain ⟨hlength, -⟩ | ⟨hlength, hcode, hblank⟩ := groupLength_cons t rest
    · rw [hlength, List.drop_succ_cons] at hcut
      exact ih hcut hskipped
    · rw [hlength, List.drop_zero] at hcut
      cases skipped with
      | nil =>
        obtain ⟨rfl, -⟩ := List.cons_eq_cons.mp hcut
        exact hcode
      | cons b skipped =>
        -- `t` is passed over as blank, so no group starts behind it either.
        obtain ⟨rfl, hrest⟩ := List.cons_eq_cons.mp hcut
        have hzero := hblank (hskipped t List.mem_cons_self)
        refine ih ?_ fun s hs => hskipped s (List.mem_cons_of_mem t hs)
        rw [hzero]
        exact hrest

/-! ## Segments -/

/-- A segment is cut out of its source as it should be, with the lines `after`
behind it.  A line by itself is no comment if comments are set as prose.  A group
needs that they are; it starts and ends with a comment, holds comments and blank
lines only, and reaches as far as it can. -/
def WellCut (reflow : Bool) (after : List SourceLine) : Segment → Prop
  | .single s => reflow = true → s.line.isCommentOnly = false
  | .group first rest =>
    reflow = true ∧ first.line.isCommentOnly = true ∧
      ((first :: rest).getLast (List.cons_ne_nil first rest)).line.isCommentOnly = true ∧
      (∀ s ∈ rest, s.line.isCommentOnly = true ∨ s.line.kind = .blank) ∧
      ∀ skipped next tail, after = skipped ++ next :: tail →
        (∀ s ∈ skipped, s.line.kind = .blank) → next.line.isCommentOnly = false

theorem wellCut_group {first : SourceLine} {rest : List SourceLine}
    (hfirst : first.line.isCommentOnly = true) :
    (Segment.group first (rest.take (groupLength rest))).WellCut true
      (rest.drop (groupLength rest)) := by
  refine ⟨rfl, hfirst, ?_, fun s hs => comment_or_blank_of_mem_group hs,
    fun skipped next tail hcut hskipped => groupLength_maximal hcut hskipped⟩
  by_cases hrest : groupLength rest = 0
  · simp only [hrest, List.take_zero, List.getLast_singleton]
    exact hfirst
  · obtain ⟨s, hs, hcomment⟩ := exists_getLast?_group hrest
    have hlast : (first :: rest.take (groupLength rest)).getLast (List.cons_ne_nil _ _) = s := by
      refine Option.some.inj ?_
      rw [← List.getLast?_eq_some_getLast, List.getLast?_cons, hs]
      rfl
    rw [hlast]
    exact hcomment

theorem wellCut_of_split_eq {reflow : Bool} {sources : List SourceLine}
    {before after : List Segment} {s : Segment}
    (hsplit : split reflow sources = before ++ s :: after) :
    s.WellCut reflow (after.flatMap lines) := by
  -- Along the search: `s` is the segment that is cut off first, or one of the later ones.
  fun_induction split reflow sources generalizing before with
  | case1 => exact absurd hsplit (by simp)
  | case2 first rest hgroup ih =>
    rw [Bool.and_eq_true] at hgroup
    cases before with
    | nil =>
      obtain ⟨rfl, rfl⟩ := List.cons_eq_cons.mp hsplit
      rw [split_lines, hgroup.1]
      exact wellCut_group hgroup.2
    | cons b before => exact ih (List.cons_eq_cons.mp hsplit).2
  | case3 first rest hsingle ih =>
    cases before with
    | nil =>
      obtain ⟨rfl, rfl⟩ := List.cons_eq_cons.mp hsplit
      intro hreflow
      rw [hreflow, Bool.true_and] at hsingle
      exact Bool.eq_false_iff.mpr hsingle
    | cons b before => exact ih (List.cons_eq_cons.mp hsplit).2

/-! ## Lines by themselves -/

theorem isSome_char?_of_kind_border {line : Line} (h : line.kind = .border) :
    (Border.char? line.text).isSome = true := by
  unfold Line.kind at h
  split at h
  · exact absurd h (by decide)
  · split at h
    · rename_i hborder
      exact hborder
    · split at h
      · exact absurd h (by decide)
      · exact absurd h (by decide)

/-- A border line is drawn again as its text is. -/
theorem fill?_eq_borderLine_text {line : Line} (h : line.kind = .border) (width : Nat) :
    Border.fill? line.text width = some (borderLine line width).text := by
  have hsome : (Border.fill? line.text width).isSome = true := by
    rw [Border.fill?_isSome]
    exact isSome_char?_of_kind_border h
  obtain ⟨border, hborder⟩ := Option.isSome_iff_exists.mp hsome
  have htext : (borderLine line width).text = border := by
    rw [borderLine, hborder]
    simp only [Line.text, List.flatMap_append, Span.flatMap_text_unlessEmpty,
      Text.indent_append_trimStart]
  rw [hborder, htext]

/-- What is shown of a line that is no border has the ink of the line. -/
theorem ink_output_single (lexer : Lexer) (width : Nat) {s : SourceLine}
    (htext : s.line.text = s.text) (hkind : s.line.kind ≠ .border) :
    ((Segment.single s).output lexer width).flatMap (fun line => Text.ink line.text)
      = Text.ink s.text := by
  rw [output, if_neg hkind, ← List.flatMap_map (f := Line.text), Wrap.text_highlighted,
    Wrap.ink_line, htext]

/-- A border is shown as one line with its indentation and its character. -/
theorem output_single_border (lexer : Lexer) (width : Nat) {s : SourceLine}
    (htext : s.line.text = s.text) (hkind : s.line.kind = .border) :
    ∃ line c, (Segment.single s).output lexer width = [line] ∧
      Text.indent line.text = Text.indent s.text ∧
      Border.char? s.text = some c ∧ Border.char? line.text = some c := by
  have hborder := fill?_eq_borderLine_text hkind width
  rw [htext] at hborder
  obtain ⟨-, hindent, -⟩ := Border.fill?_spec hborder
  obtain ⟨c, -, hc, hline⟩ := Border.exists_char?_of_fill? hborder
  rw [output, if_pos hkind]
  exact ⟨borderLine s.line width, c, rfl, hindent, hc, hline⟩

end Segment

namespace Page

/-! ## Pages -/

/-- The lines of a source from the state they start in. -/
def linesFrom (lexer : Lexer) (state : ScanState) (texts : List Text) : List SourceLine :=
  texts.zipWith (fun t h => ⟨t, ⟨h.spans⟩⟩) (lexer.highlightLines state texts)

theorem linesFrom_cons (lexer : Lexer) (state : ScanState) (t : Text) (rest : List Text) :
    linesFrom lexer state (t :: rest) =
      ⟨t, ⟨(lexer.highlight state t).spans⟩⟩ ::
        linesFrom lexer (lexer.highlight state t).state rest := rfl

theorem map_text_linesFrom (lexer : Lexer) (state : ScanState) (texts : List Text) :
    (linesFrom lexer state texts).map SourceLine.text = texts := by
  induction texts generalizing state with
  | nil => rfl
  | cons t rest ih => rw [linesFrom_cons, List.map_cons, ih]

theorem line_text_of_mem_linesFrom {lexer : Lexer} {state : ScanState} {texts : List Text}
    {s : SourceLine} (hs : s ∈ linesFrom lexer state texts) : s.line.text = s.text := by
  induction texts generalizing state with
  | nil => exact absurd hs List.not_mem_nil
  | cons t rest ih =>
    rw [linesFrom_cons] at hs
    rcases List.mem_cons.mp hs with rfl | hs
    · exact Lexer.highlight_text lexer state t
    · exact ih hs

theorem map_text_sourceLines (lexer : Lexer) (tabWidth : Nat) (source : Text) :
    (sourceLines lexer tabWidth source).map SourceLine.text
      = (Text.lines source).map (Text.expandTabs tabWidth) :=
  map_text_linesFrom lexer ScanState.start _

theorem line_text_of_mem_split {lexer : Lexer} {tabWidth : Nat} {source : Text} {reflow : Bool}
    {s : Segment} (hs : s ∈ Segment.split reflow (sourceLines lexer tabWidth source))
    {t : SourceLine} (ht : t ∈ s.lines) : t.line.text = t.text := by
  have hmem : t ∈ linesFrom lexer ScanState.start
      ((Text.lines source).map (Text.expandTabs tabWidth)) := by
    show t ∈ sourceLines lexer tabWidth source
    rw [← Segment.split_lines reflow (sourceLines lexer tabWidth source)]
    exact List.mem_flatMap.mpr ⟨s, hs, ht⟩
  exact line_text_of_mem_linesFrom hmem

theorem map_line_numberFirst (number : Nat) (lines : List Line) :
    (numberFirst number lines).map NumberedLine.line = lines := by
  cases lines with
  | nil => rfl
  | cons first rest => simp [numberFirst, Function.comp_def]

/-- The output lines, without their numbers, are those of the segments in turn. -/
theorem map_line_numberedLines (lexer : Lexer) (width number : Nat) (segments : List Segment) :
    (numberedLines lexer width number segments).map NumberedLine.line
      = segments.flatMap (Segment.output lexer width) := by
  induction segments generalizing number with
  | nil => rfl
  | cons s rest ih =>
    rw [numberedLines, List.map_append, map_line_numberFirst, ih, List.flatMap_cons]

/-- How the page of a source is set from segments of it. -/
structure SetInSegments (g : Grammar) (profile : Profile) (options : PageOptions) (source : Text)
    (segments : List Segment) : Prop where
  /-- The segments hold the highlighted lines of the source, each once and in order. -/
  covers : segments.flatMap Segment.lines
    = sourceLines { grammar := g } options.tabWidth source
  /-- Those are the lines of the source with their tabs expanded. -/
  texts : (segments.flatMap Segment.lines).map SourceLine.text
    = (Text.lines source).map (Text.expandTabs options.tabWidth)
  /-- Every segment is one line or a comment group, cut where it should be. -/
  wellCut : ∀ before s after, segments = before ++ s :: after →
    s.WellCut options.reflowComments (after.flatMap Segment.lines)
  /-- The output lines are those of the segments, in order. -/
  output : (outputLines g profile.maxWidth options source).map NumberedLine.line
    = segments.flatMap (Segment.output { grammar := g } profile.maxWidth)
  page : (render g profile options source).lines
    = (outputLines g profile.maxWidth options source).map fun out =>
        Markup.line out.line
          (if options.lineNumbers then
            some ⟨Markup.gutterWidth (Text.lines source).length, out.number⟩
          else none)
  /-- What is shown of a line outside a group has its ink. -/
  ink : ∀ s, Segment.single s ∈ segments → s.line.kind ≠ .border →
    ((Segment.single s).output { grammar := g } profile.maxWidth).flatMap
        (fun line => Text.ink line.text) = Text.ink s.text
  /-- A border outside a group is shown as one border line. -/
  border : ∀ s, Segment.single s ∈ segments → s.line.kind = .border →
    ∃ line c, (Segment.single s).output { grammar := g } profile.maxWidth = [line] ∧
      Text.indent line.text = Text.indent s.text ∧
      Border.char? s.text = some c ∧ Border.char? line.text = some c

/-- A page is set from the segments that its source is split into. -/
theorem setInSegments_split (g : Grammar) (profile : Profile) (options : PageOptions)
    (source : Text) :
    SetInSegments g profile options source
      (Segment.split options.reflowComments
        (sourceLines { grammar := g } options.tabWidth source)) := by
  have hcovers := Segment.split_lines options.reflowComments
    (sourceLines { grammar := g } options.tabWidth source)
  exact
    { covers := hcovers
      texts := by rw [hcovers, map_text_sourceLines]
      wellCut := fun before s after hsplit => Segment.wellCut_of_split_eq hsplit
      output := map_line_numberedLines { grammar := g } profile.maxWidth 1 _
      page := rfl
      ink := fun s hs hkind =>
        Segment.ink_output_single _ _ (line_text_of_mem_split hs List.mem_cons_self) hkind
      border := fun s hs hkind =>
        Segment.output_single_border _ _ (line_text_of_mem_split hs List.mem_cons_self) hkind }

end Page
end Listing
