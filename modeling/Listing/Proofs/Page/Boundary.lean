/-
Pages put together at a line of code.

A source that ends with a line of code, and leaves nothing open behind it, can be set
by itself: what follows it is set as if it stood alone (`render_append`).  Three things
could carry over from one part to the other.  A line could be cut across the boundary,
which the line feed rules out.  A comment or a string could be open there.  And a comment
group looks ahead for more comments, but not past a line of code (`groupLength_append`).
-/
import Listing.Proofs.Page.Segments
import Listing.Proofs.Text.Lines

namespace Listing
namespace Lexer

/-- The state after lines that are highlighted in turn. -/
def stateAfter (lexer : Lexer) (state : ScanState) : List Text → ScanState
  | [] => state
  | t :: rest => stateAfter lexer (lexer.highlight state t).state rest

end Lexer

namespace Segment

/-! ## Segments -/

/-- A line that is neither a comment by itself nor blank. -/
def isCode (source : SourceLine) : Bool :=
  !source.line.isCommentOnly && source.line.kind != .blank

/-- The last of the lines is code, so there is one. -/
def EndsInCode (sources : List SourceLine) : Prop := sources.getLast?.any isCode = true

instance (sources : List SourceLine) : Decidable (EndsInCode sources) :=
  inferInstanceAs (Decidable (_ = true))

theorem isCode_iff {s : SourceLine} :
    isCode s = true ↔ s.line.isCommentOnly = false ∧ s.line.kind ≠ .blank := by
  rw [isCode, Bool.and_eq_true, Bool.not_eq_true', bne_iff_ne]

theorem not_endsInCode_nil : ¬ EndsInCode [] := Bool.false_ne_true

/-- The last line is the first if there is no other. -/
theorem endsInCode_cons {s : SourceLine} {rest : List SourceLine} (h : EndsInCode (s :: rest)) :
    rest = [] ∧ isCode s = true ∨ EndsInCode rest := by
  cases rest with
  | nil => exact .inl ⟨rfl, h⟩
  | cons t rest =>
    rw [EndsInCode, List.getLast?_cons_cons] at h
    exact .inr h

/-- A comment group ends before a line of code, whatever follows that. -/
theorem groupLength_append {a : List SourceLine} (h : EndsInCode a) (b : List SourceLine) :
    groupLength (a ++ b) = groupLength a ∧ groupLength a < a.length := by
  induction a with
  | nil => exact absurd h not_endsInCode_nil
  | cons s rest ih =>
    rw [List.cons_append, groupLength, groupLength, List.length_cons]
    obtain ⟨rfl, hcode⟩ | hrest := endsInCode_cons h
    · obtain ⟨hcomment, hblank⟩ := isCode_iff.mp hcode
      rw [if_neg (Bool.eq_false_iff.mp hcomment), if_neg hblank,
        if_neg (Bool.eq_false_iff.mp hcomment), if_neg hblank]
      exact ⟨rfl, Nat.succ_pos 0⟩
    · obtain ⟨hlength, hlt⟩ := ih hrest
      rw [hlength]
      refine ⟨rfl, ?_⟩
      split
      · omega
      · split
        · split
          · omega
          · omega
        · omega

theorem EndsInCode.drop {sources : List SourceLine} (h : EndsInCode sources) {n : Nat}
    (hn : n < sources.length) : EndsInCode (sources.drop n) := by
  rw [EndsInCode, List.getLast?_drop, if_neg (by omega)]
  exact h

/-- Lines that end in code are cut into segments by themselves. -/
theorem split_append (reflow : Bool) {a : List SourceLine} (h : EndsInCode a)
    (b : List SourceLine) : split reflow (a ++ b) = split reflow a ++ split reflow b := by
  fun_induction split reflow a with
  | case1 => exact absurd h not_endsInCode_nil
  | case2 s rest hgroup ih =>
    have hrest : EndsInCode rest := by
      obtain ⟨-, hcode⟩ | hrest := endsInCode_cons h
      · rw [Bool.and_eq_true, (isCode_iff.mp hcode).1] at hgroup
        exact absurd hgroup.2 Bool.false_ne_true
      · exact hrest
    obtain ⟨hlength, hlt⟩ := groupLength_append hrest b
    rw [List.cons_append, split, if_pos hgroup, hlength, List.take_append_of_le_length (by omega),
      List.drop_append_of_le_length (by omega), ih (hrest.drop hlt), List.cons_append]
  | case3 s rest hsingle ih =>
    rw [List.cons_append, split, if_neg hsingle, List.cons_append]
    obtain ⟨rfl, -⟩ | hrest := endsInCode_cons h
    · rw [List.nil_append, split, List.nil_append]
    · rw [ih hrest]

end Segment

namespace Page

/-! ## Pages -/

theorem linesFrom_append (lexer : Lexer) (state : ScanState) (a b : List Text) :
    linesFrom lexer state (a ++ b)
      = linesFrom lexer state a ++ linesFrom lexer (lexer.stateAfter state a) b := by
  induction a generalizing state with
  | nil => rfl
  | cons t rest ih =>
    rw [List.cons_append, linesFrom_cons, linesFrom_cons, ih, Lexer.stateAfter, List.cons_append]

/-- Without numbers a page is its segments' output, line by line. -/
theorem lines_render_of_not_lineNumbers (g : Grammar) (profile : Profile) {options : PageOptions}
    (hnumbers : options.lineNumbers = false) (source : Text) :
    (render g profile options source).lines =
      ((Segment.split options.reflowComments
        (sourceLines { grammar := g } options.tabWidth source)).flatMap
          (Segment.output { grammar := g } profile.maxWidth)).map (Markup.line · none) := by
  rw [← map_line_numberedLines { grammar := g } profile.maxWidth 1, List.map_map]
  simp only [render, hnumbers]
  rfl

/-- A page is the page of its first part followed by the page of its second, if the
first ends with a line feed and in code and leaves no comment open.  Numbers in the
gutter would go on, so there are none. -/
theorem render_append (g : Grammar) (profile : Profile) (options : PageOptions)
    (hnumbers : options.lineNumbers = false) {a : Text} (hnewline : a.getLast? = some '\n')
    (hstate : ({ grammar := g } : Lexer).stateAfter ScanState.start
      ((Text.lines a).map (Text.expandTabs options.tabWidth)) = ScanState.start)
    (hcode : Segment.EndsInCode (sourceLines { grammar := g } options.tabWidth a)) (b : Text) :
    (render g profile options (a ++ b)).lines =
        (render g profile options a).lines ++ (render g profile options b).lines ∧
      (render g profile options (a ++ b)).lineCount =
        (render g profile options a).lineCount + (render g profile options b).lineCount := by
  have hlines := Text.lines_append hnewline b
  have hsources : sourceLines { grammar := g } options.tabWidth (a ++ b) =
      sourceLines { grammar := g } options.tabWidth a
        ++ sourceLines { grammar := g } options.tabWidth b := by
    show linesFrom _ _ _ = linesFrom _ _ _ ++ linesFrom _ _ _
    rw [hlines, List.map_append, linesFrom_append, hstate]
  refine ⟨?_, ?_⟩
  · rw [lines_render_of_not_lineNumbers g profile hnumbers,
      lines_render_of_not_lineNumbers g profile hnumbers,
      lines_render_of_not_lineNumbers g profile hnumbers, hsources,
      Segment.split_append _ hcode, List.flatMap_append, List.map_append]
  · show (Text.lines (a ++ b)).length = (Text.lines a).length + (Text.lines b).length
    rw [hlines, List.length_append]

/-- A language for the sources below. -/
def hashed : Grammar :=
  Grammar.ofDefinition
    { id := [], lineComments := ["#".toList], blockComment := some ("<!".toList, "!>".toList) }

/-- A comment group and a line of code, in which a block comment is closed again. -/
def upper : Text := "# one\n\n# two\n<! a\nb !> x\n".toList

/-- A blank line and another comment group. -/
def lower : Text := "\n# three\n#\n# four".toList

theorem render_append_upper :
    upper.getLast? = some '\n' ∧
    ({ grammar := hashed } : Lexer).stateAfter ScanState.start
      ((Text.lines upper).map (Text.expandTabs 4)) = ScanState.start ∧
    Segment.EndsInCode (sourceLines { grammar := hashed } 4 upper) ∧
    (render hashed Profile.standard {} (upper ++ lower)).lines =
        (render hashed Profile.standard {} upper).lines
          ++ (render hashed Profile.standard {} lower).lines ∧
      (render hashed Profile.standard {} (upper ++ lower)).lineCount =
        (render hashed Profile.standard {} upper).lineCount
          + (render hashed Profile.standard {} lower).lineCount := by
  have hnewline : upper.getLast? = some '\n' := by decide +kernel
  have hstate : ({ grammar := hashed } : Lexer).stateAfter ScanState.start
      ((Text.lines upper).map (Text.expandTabs 4)) = ScanState.start := by decide +kernel
  have hcode : Segment.EndsInCode (sourceLines { grammar := hashed } 4 upper) := by
    decide +kernel
  exact ⟨hnewline, hstate, hcode,
    render_append hashed Profile.standard {} rfl hnewline hstate hcode lower⟩

end Page
end Listing
