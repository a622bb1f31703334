/-
Line numbers.

A segment shows a number on the first of its output lines only, that of the line of the
source it starts at (`numberedLines_append`).  Segments follow each other in the source, so
the numbers on a page increase, even where a comment group vanishes together with its own.
Without reflow every line is a segment, and none of those vanishes.

The gutter is as wide as the number of lines is long, counted by dividing by ten.  That is
the length of what is written there (`length_ofNat`), and no number on the page is longer.
-/
import Listing.Proofs.Page.Segments
import Listing.Proofs.Text.Digits
import Listing.Proofs.Wrap.Ranges

namespace Listing

/-! ## The gutter -/

namespace Markup

theorem length_ofNat (n : Nat) : (Text.ofNat n).length = digitCount n := by
  induction n using Nat.strongRecOn with
  | _ n ih =>
    rw [Text.ofNat, Nat.toDigits_eq_if (by decide), digitCount]
    split
    · rfl
    · rw [List.length_append, ← ih (n / 10) (by omega)]
      rfl

theorem digitCount_mono {m n : Nat} (h : m ≤ n) : digitCount m ≤ digitCount n := by
  induction n using Nat.strongRecOn generalizing m with
  | _ n ih =>
    rw [digitCount, digitCount.eq_def n]
    split
    · split <;> omega
    · rw [if_neg (by omega)]
      exact Nat.succ_le_succ (ih (n / 10) (by omega) (Nat.div_le_div_right h))

theorem length_padStart (length : Nat) (t : Text) :
    (padStart length t).length = max length t.length := by
  rw [padStart, List.length_append, List.length_replicate]
  omega

/-- A gutter that is wide enough for the last number is as wide for all of them. -/
theorem length_gutterText {lineCount : Nat} {number : Option Nat}
    (h : ∀ n ∈ number, n ≤ lineCount) :
    (Gutter.text ⟨gutterWidth lineCount, number⟩).length = gutterWidth lineCount := by
  rw [Gutter.text, length_padStart]
  refine Nat.max_eq_left ?_
  cases number with
  | none => exact Nat.zero_le _
  | some n =>
    rw [length_ofNat]
    exact Nat.le_trans (digitCount_mono (h n rfl)) (Nat.le_max_left _ _)

theorem trimStart_gutterText (g : Gutter) :
    Text.trimStart g.text = (g.number.map Text.ofNat).getD [] := by
  have hpad : ∀ n, Text.allBlank (List.replicate n ' ') = true :=
    fun n => List.all_eq_true.mpr fun c hc => by rw [List.eq_of_mem_replicate hc]; rfl
  rw [Gutter.text, padStart]
  cases g.number with
  | none =>
    rw [List.append_nil]
    exact List.dropWhile_eq_nil_iff.mpr fun c hc => Text.isBlank_of_allBlank (hpad _) hc
  | some n =>
    obtain ⟨c, r, hcons⟩ := List.exists_cons_of_ne_nil (Text.ofNat_ne_nil n)
    have hdigit : c.isDigit = true :=
      Text.isDigit_of_mem_ofNat (hcons ▸ List.mem_cons_self)
    show Text.trimStart (_ ++ Text.ofNat n) = Text.ofNat n
    rw [hcons]
    exact Text.trimStart_append_cons (hpad _) (Text.isBlank_of_isDigit hdigit) r

end Markup

namespace Segment

/-! ## Segments -/

theorem length_lines_pos (s : Segment) : 0 < s.lines.length := by
  cases s with
  | single source => exact Nat.one_pos
  | group first rest => exact Nat.succ_pos _

theorem split_of_not_reflow (sources : List SourceLine) :
    split false sources = sources.map .single := by
  induction sources with
  | nil => exact split.eq_1 false
  | cons s rest ih =>
    rw [split, Bool.false_and, if_neg Bool.false_ne_true, ih, List.map_cons]

theorem output_single_ne_nil (lexer : Lexer) (width : Nat) (s : SourceLine) :
    (Segment.single s).output lexer width ≠ [] := by
  rw [output]
  split
  · exact List.cons_ne_nil _ _
  · intro hnil
    have htexts := Wrap.text_highlighted lexer s.line width
    have hhead := Wrap.head?_fragments s.line.text width
    rw [hnil] at htexts
    rw [List.map_eq_nil_iff.mp htexts.symm, List.head?_nil] at hhead
    exact Option.some_ne_none _ hhead.symm

end Segment

namespace Page

/-! ## Numbers of output lines -/

/-- The numbers that output lines show, from top to bottom. -/
def numbers (outputs : List NumberedLine) : List Nat := outputs.filterMap NumberedLine.number

/-- If there are any lines, the first shows the number and no other shows one. -/
def ShowsFirst (number : Nat) : List NumberedLine → Prop
  | [] => True
  | first :: rest => first.number = some number ∧ ∀ out ∈ rest, out.number = none

theorem showsFirst_numberFirst (number : Nat) (lines : List Line) :
    ShowsFirst number (numberFirst number lines) := by
  cases lines with
  | nil => trivial
  | cons first rest =>
    refine ⟨rfl, fun out hout => ?_⟩
    obtain ⟨line, -, rfl⟩ := List.mem_map.mp hout
    rfl

theorem numbers_of_showsFirst {number : Nat} {outputs : List NumberedLine}
    (h : ShowsFirst number outputs) :
    numbers outputs = List.replicate (min outputs.length 1) number := by
  cases outputs with
  | nil => rfl
  | cons first rest =>
    rw [numbers, List.filterMap_cons_some h.1, List.filterMap_eq_nil_iff.mpr h.2,
      List.length_cons, Nat.min_eq_right (Nat.succ_pos _)]
    rfl

section

variable (lexer : Lexer) (width number : Nat)

theorem numberedLines_append (before after : List Segment) :
    numberedLines lexer width number (before ++ after) =
      numberedLines lexer width number before ++
        numberedLines lexer width (number + (before.flatMap Segment.lines).length) after := by
  induction before generalizing number with
  | nil => rfl
  | cons s rest ih =>
    rw [List.cons_append, numberedLines, numberedLines, ih, List.flatMap_cons,
      List.length_append, Nat.add_assoc, List.append_assoc]

theorem numbers_append (a b : List NumberedLine) : numbers (a ++ b) = numbers a ++ numbers b :=
  List.filterMap_append

/-- The numbers increase and stay within the lines of the segments. -/
theorem numbers_numberedLines (segments : List Segment) :
    (numbers (numberedLines lexer width number segments)).Pairwise (· < ·) ∧
      ∀ n ∈ numbers (numberedLines lexer width number segments),
        number ≤ n ∧ n < number + (segments.flatMap Segment.lines).length := by
  induction segments generalizing number with
  | nil => exact ⟨.nil, fun n hn => absurd hn List.not_mem_nil⟩
  | cons s rest ih =>
    obtain ⟨hincreasing, hrange⟩ := ih (number + s.lines.length)
    have hpos := s.length_lines_pos
    have hfirst : ∀ n ∈ numbers (numberFirst number (s.output lexer width)), n = number := by
      rw [numbers_of_showsFirst (showsFirst_numberFirst number _)]
      exact fun n hn => List.eq_of_mem_replicate hn
    rw [numberedLines, numbers_append, List.flatMap_cons, List.length_append]
    refine ⟨List.pairwise_append.mpr ⟨?_, hincreasing, fun a ha b hb => ?_⟩, fun n hn => ?_⟩
    · rw [numbers_of_showsFirst (showsFirst_numberFirst number _)]
      refine List.pairwise_replicate.mpr (.inl ?_)
      omega
    · have := hrange b hb
      rw [hfirst a ha]
      omega
    · rcases List.mem_append.mp hn with hn | hn
      · rw [hfirst n hn]
        omega
      · have := hrange n hn
        omega

/-- Where the output lines of a segment are, and which number they show. -/
theorem exists_lines_of_segment (before : List Segment) (s : Segment) (after : List Segment) :
    ∃ above lines below,
      numberedLines lexer width 1 (before ++ s :: after) = above ++ lines ++ below ∧
      above.map NumberedLine.line = before.flatMap (Segment.output lexer width) ∧
      lines.map NumberedLine.line = s.output lexer width ∧
      ShowsFirst ((before.flatMap Segment.lines).length + 1) lines ∧
      ∀ t, s = .single t → lines ≠ [] := by
  let first := (before.flatMap Segment.lines).length + 1
  refine ⟨numberedLines lexer width 1 before, numberFirst first (s.output lexer width),
    numberedLines lexer width (first + s.lines.length) after, ?_,
    map_line_numberedLines lexer width 1 before, map_line_numberFirst first _,
    showsFirst_numberFirst first _, fun t ht hnil => ?_⟩
  · rw [numberedLines_append, numberedLines, Nat.add_comm 1, List.append_assoc]
  · have hlines := map_line_numberFirst first (s.output lexer width)
    rw [hnil, ht] at hlines
    exact Segment.output_single_ne_nil lexer width t hlines.symm

theorem numbers_singles (sources : List SourceLine) :
    numbers (numberedLines lexer width number (sources.map .single))
      = List.range' number sources.length := by
  induction sources generalizing number with
  | nil => rfl
  | cons s rest ih =>
    have hlength := List.length_pos_iff.mpr (Segment.output_single_ne_nil lexer width s)
    have hone : numbers (numberFirst number ((Segment.single s).output lexer width)) = [number] := by
      rw [numbers_of_showsFirst (showsFirst_numberFirst number _),
        ← List.length_map (f := NumberedLine.line), map_line_numberFirst,
        Nat.min_eq_right hlength]
      rfl
    rw [List.map_cons, numberedLines, numbers_append, hone, ih]
    rfl

end

/-! ## Pages -/

/-- How the output lines of a page with line numbers are numbered. -/
structure NumberedBy (g : Grammar) (profile : Profile) (options : PageOptions) (source : Text)
    (lineCount : Nat) (outputs : List NumberedLine) : Prop where
  /-- Each line of the page has its number in a gutter in front. -/
  page : (render g profile options source).lines = outputs.map fun out =>
    Markup.line out.line (some ⟨Markup.gutterWidth lineCount, out.number⟩)
  increasing : (numbers outputs).Pairwise (· < ·)
  range : ∀ n ∈ numbers outputs, 1 ≤ n ∧ n ≤ lineCount
  /-- All gutters are equally wide, and hold a number or nothing behind their padding. -/
  gutter : ∀ out ∈ outputs,
    (Markup.Gutter.text ⟨Markup.gutterWidth lineCount, out.number⟩).length
        = Markup.gutterWidth lineCount ∧
      Text.trimStart (Markup.Gutter.text ⟨Markup.gutterWidth lineCount, out.number⟩)
        = (out.number.map Text.ofNat).getD []
  /-- The output lines of a segment show the number of its first line on the first of them
  only.  A segment that is no comment group has such a line. -/
  segment : ∀ before s after,
    Segment.split options.reflowComments (sourceLines { grammar := g } options.tabWidth source)
      = before ++ s :: after →
    (sourceLines { grammar := g } options.tabWidth source)[(before.flatMap Segment.lines).length]?
        = s.lines.head? ∧
    ∃ above lines below, outputs = above ++ lines ++ below ∧
      above.map NumberedLine.line
        = before.flatMap (Segment.output { grammar := g } profile.maxWidth) ∧
      lines.map NumberedLine.line = s.output { grammar := g } profile.maxWidth ∧
      ShowsFirst ((before.flatMap Segment.lines).length + 1) lines ∧
      ∀ t, s = .single t → lines ≠ []
  /-- Without reflow every line shows its number. -/
  all : options.reflowComments = false → numbers outputs = List.range' 1 lineCount

theorem length_sourceLines (lexer : Lexer) (tabWidth : Nat) (source : Text) :
    (sourceLines lexer tabWidth source).length = (Text.lines source).length := by
  have h := congrArg List.length (map_text_sourceLines lexer tabWidth source)
  rwa [List.length_map, List.length_map] at h

/-- A page that shows line numbers is numbered by its source, whatever that is. -/
theorem numberedBy_source (g : Grammar) (profile : Profile) {options : PageOptions}
    (hnumbers : options.lineNumbers = true) (source : Text) :
    NumberedBy g profile options source (render g profile options source).lineCount
      (outputLines g profile.maxWidth options source) := by
  have hlength := length_sourceLines { grammar := g } options.tabWidth source
  have hcovers := Segment.split_lines options.reflowComments
    (sourceLines { grammar := g } options.tabWidth source)
  obtain ⟨hincreasing, hbounds⟩ := numbers_numberedLines { grammar := g } profile.maxWidth 1
    (Segment.split options.reflowComments
      (sourceLines { grammar := g } options.tabWidth source))
  rw [hcovers, hlength] at hbounds
  have hrange : ∀ n ∈ numbers (outputLines g profile.maxWidth options source),
      1 ≤ n ∧ n ≤ (Text.lines source).length := by
    intro n hn
    have := hbounds n hn
    omega
  exact
    { page := by
        simp only [render, hnumbers, if_true]
      increasing := hincreasing
      range := hrange
      gutter := by
        intro out hout
        refine ⟨Markup.length_gutterText fun n hn => ?_, Markup.trimStart_gutterText _⟩
        exact (hrange n (List.mem_filterMap.mpr ⟨out, hout, hn⟩)).2
      segment := by
        intro before s after hsplit
        constructor
        · rw [← hcovers, hsplit, List.flatMap_append, List.flatMap_cons,
            List.getElem?_append_right (Nat.le_refl _), Nat.sub_self, ← List.head?_eq_getElem?,
            List.head?_append_of_ne_nil _ (List.length_pos_iff.mp s.length_lines_pos)]
        · rw [outputLines, hsplit]
          exact exists_lines_of_segment { grammar := g } profile.maxWidth before s after
      all := by
        intro hreflow
        rw [outputLines, hreflow, Segment.split_of_not_reflow, numbers_singles, hlength]
        rfl }

/-- A language for the source below. -/
def dashed : Grammar := Grammar.ofDefinition { id := [], lineComments := ["--".toList] }

/-- Comments with nothing in them, a line that is wider than the page, and a border. -/
def vanishing : Text :=
  "--\n --\nf(aaaa, bbbb, cccc, dddd, eeee, ffff, gggg)\n====\n\n-- a\n-- b".toList

theorem numberedBy_source_vanishing :
    ({ lineNumbers := true } : PageOptions).lineNumbers = true ∧
    NumberedBy dashed { Profile.standard with maxWidth := 40 } { lineNumbers := true } vanishing
        7 (outputLines dashed 40 { lineNumbers := true } vanishing) ∧
      (outputLines dashed 40 { lineNumbers := true } vanishing).map NumberedLine.number
        = [some 3, none, some 4, some 5, some 6] := by
  have h : NumberedBy dashed { Profile.standard with maxWidth := 40 } { lineNumbers := true }
      vanishing (Text.lines vanishing).length
      (outputLines dashed 40 { lineNumbers := true } vanishing) :=
    numberedBy_source dashed { Profile.standard with maxWidth := 40 } rfl vanishing
  have hcount : (Text.lines vanishing).length = 7 := by decide +kernel
  rw [hcount] at h
  exact ⟨rfl, h, by decide +kernel⟩

end Page
end Listing
