/-
Prose is set without losing any.

A comment group is read line by line, as prose, borders and blank lines (`ReadAs`).
Its output, apart from the blank lines that separate its parts, has one stretch of
lines for each maximal run of prose and one line for each border, in the order of the
source (`exists_setAsProse`).  The lines of a run hold its ink: joining words, breaking
paragraphs and indenting lines only moves white space about.

A paragraph has no blank line of its own, since a line is broken in front of ink
(`ink_ne_nil_of_mem_line`).  So the blank lines of the output are the separators and
leaving them out leaves out nothing else.
-/
import Listing.Proofs.Prose.Lines
import Mathlib.Data.List.Forall2

namespace Listing

namespace Prose

/-! ## How lines are read -/

/-- What a line of a group may be read as.  A border is drawn by itself or as the prose
of a comment, and is shown with its own character. -/
inductive ReadAs (g : Grammar) (raw : Text) : Entry → Prop
  | text (hraw : Border.char? raw = none) (hbody : Comment.body g raw ≠ [])
      (hinside : Border.char? (Comment.body g raw) = none) :
      ReadAs g raw (.text (Comment.body g raw))
  | border {line : Line} {c : Char} (hshown : Border.char? line.text = some c)
      (hborder : Border.char? raw = some c ∨
        Border.char? raw = none ∧ Border.char? (Comment.body g raw) = some c) :
      ReadAs g raw (.border line)
  | blank (hblank : Text.allBlank raw = true ∨
      Border.char? raw = none ∧ Comment.body g raw = []) : ReadAs g raw .blank

theorem allBlank_groupIndent (width : Nat) (raws : List Text) :
    Text.allBlank (groupIndent width raws) = true := by
  unfold groupIndent
  split
  · rfl
  · split
    · exact Text.allBlank_indent _
    · rfl

theorem readAs_classify (g : Grammar) {indent : Text} (hindent : Text.allBlank indent = true)
    (width : Nat) (raw : Text) : ReadAs g raw (classify g indent width raw) := by
  obtain ⟨hread, hblank⟩ | ⟨border, hborder, hread⟩ | ⟨border, hraw, hborder, hread⟩ |
      ⟨hread, hraw, hbody, hinside⟩ := classify_cases g indent width raw
  · rw [hread]
    exact .blank hblank
  · obtain ⟨c, -, hc, hline⟩ := Border.exists_char?_of_fill? hborder
    rw [hread]
    refine .border (c := c) ?_ (.inl hc)
    rw [text_commentLine, Text.indent_append_trimStart, hline]
  · obtain ⟨c, hc, rfl⟩ := Option.map_eq_some_iff.mp hborder
    rw [hread]
    refine .border (c := c) ?_ (.inr ⟨hraw, hc⟩)
    -- The prose of a comment has no indentation, so the run stands behind that of the group.
    rw [text_commentLine, Comment.indent_body, List.nil_append]
    exact Border.char?_append_replicate hindent (Border.mem_characters_of_char? hc)
      (Border.minRun_le_runLength _ _)
  · rw [hread]
    exact .text hraw hbody hinside

/-! ## Blocks as they are shown -/

/-- The lines of a block by itself. -/
def Block.lines (indent : Text) (width : Nat) : Block → List Line
  | .paragraph bodies => paragraphLines indent width bodies
  | .border line => [line]
  | .gap => []

/-- What may be shown of a block, blank lines aside: the ink of a paragraph on one or
more lines, or a border. -/
inductive ShownAs : Block → List Line → Prop
  | paragraph {bodies : List Text} {lines : List Line} (hne : lines ≠ [])
      (hink : lines.flatMap (fun line => Text.ink line.text) = bodies.flatMap Text.ink) :
      ShownAs (.paragraph bodies) lines
  | border (line : Line) : ShownAs (.border line) [line]
  | gap : ShownAs .gap []

/-- There is something on a line with ink. -/
theorem isWritten_of_ink_ne_nil {line : Line} (h : Text.ink line.text ≠ []) :
    isWritten line = true := by
  unfold isWritten
  cases hspans : line.spans with
  | nil => exact absurd (by rw [Line.text, hspans]; rfl) h
  | cons s rest => rfl

theorem ink_joined (bodies : List Text) : Text.ink (joined bodies) = bodies.flatMap Text.ink := by
  rw [joined, Text.ink_join _ rfl, Text.flatMap_ink_words, Text.ink_join _ rfl]

theorem ink_paragraphLines {indent : Text} (hindent : Text.allBlank indent = true) (width : Nat)
    (bodies : List Text) :
    (paragraphLines indent width bodies).flatMap (fun line => Text.ink line.text)
      = bodies.flatMap Text.ink := by
  rw [← ink_joined, ← Wrap.ink_line (joined bodies) (width - Text.width indent), paragraphLines,
    List.flatMap_map]
  refine List.flatMap_congr fun t _ => ?_
  rw [text_commentLine, Text.ink_append, Text.ink_of_allBlank hindent, List.nil_append]

theorem ink_ne_nil_of_mem_paragraphLines {indent : Text} {width : Nat} {bodies : List Text}
    (hink : bodies.flatMap Text.ink ≠ []) {line : Line}
    (hline : line ∈ paragraphLines indent width bodies) : Text.ink line.text ≠ [] := by
  obtain ⟨t, ht, rfl⟩ := List.mem_map.mp hline
  have hne : joined bodies ≠ [] := by
    intro hnil
    rw [← ink_joined, hnil] at hink
    exact hink rfl
  have htext : Text.ink t ≠ [] := Wrap.ink_ne_nil_of_mem_line (indent_joined bodies) hne ht
  rw [text_commentLine, Text.ink_append]
  exact fun hnil => htext (List.append_eq_nil_iff.mp hnil).2

/-- Without its blank lines, the output of blocks whose own lines are all written is
those lines. -/
theorem filter_blockLines {indent : Text} {width : Nat} {blocks : List Block}
    (hwritten : ∀ block ∈ blocks, ∀ line ∈ block.lines indent width, isWritten line = true)
    (written : Bool) :
    (blockLines indent width written blocks).filter isWritten
      = blocks.flatMap (Block.lines indent width) := by
  induction blocks generalizing written with
  | nil => rfl
  | cons block rest ih =>
    have hblock := hwritten block List.mem_cons_self
    have hrest := ih fun b hb => hwritten b (List.mem_cons_of_mem block hb)
    rw [List.flatMap_cons]
    cases block with
    | paragraph bodies =>
      have hlines : (paragraphLines indent width bodies).filter isWritten
          = paragraphLines indent width bodies := List.filter_eq_self.mpr hblock
      rw [blockLines, List.filter_append, hlines, hrest]
      rfl
    | border line =>
      rw [blockLines, List.filter_cons_of_pos (hblock line List.mem_cons_self), hrest]
      rfl
    | gap =>
      rw [blockLines]
      split
      · rw [List.filter_cons_of_neg (by decide), hrest]
        rfl
      · rw [hrest]
        rfl

/-- Only blank lines are dropped at the end of a group. -/
theorem filter_dropBlankEnd (lines : List Line) :
    (dropBlankEnd lines).filter isWritten = lines.filter isWritten := by
  have hblank : (lines.reverse.takeWhile (!isWritten ·)).filter isWritten = [] := by
    rw [List.filter_eq_nil_iff]
    intro line hline hwritten
    have hnot := List.all_eq_true.mp (List.all_takeWhile (p := (!isWritten ·))) line hline
    rw [hwritten] at hnot
    exact absurd hnot (by decide)
  have hsplit := congrArg (List.filter isWritten)
    (List.takeWhile_append_dropWhile (p := (!isWritten ·)) (l := lines.reverse))
  rw [List.filter_append, hblank, List.nil_append, List.filter_reverse] at hsplit
  rw [dropBlankEnd, List.filter_reverse, hsplit, List.reverse_reverse]

/-! ## Groups -/

/-- How the lines `raws` of a group are set as prose: gathered into blocks, of which
each is shown by lines of its own. -/
structure SetAsProse (g : Grammar) (width : Nat) (raws : List Text) (blocks : List Block)
    (shown : List (List Line)) : Prop where
  /-- Each line is read as prose, a border or blank. -/
  read : ∀ raw ∈ raws, ReadAs g raw (classify g (groupIndent width raws) width raw)
  /-- The paragraphs are the maximal runs of lines that are prose. -/
  gathers : Gathers (raws.map (classify g (groupIndent width raws) width)) blocks
  /-- A paragraph is shown with its ink and a border as one line. -/
  shownAs : List.Forall₂ ShownAs blocks shown
  /-- The output is the lines of the blocks in order and, between them, blank lines. -/
  output : (reflow g width raws).filter isWritten = shown.flatten

theorem ReadAs.ink_ne_nil {g : Grammar} {raw body : Text} (h : ReadAs g raw (.text body)) :
    Text.ink body ≠ [] := by
  cases h with
  | text _ hbody _ => exact Text.ink_ne_nil_of_indent (Comment.indent_body g raw) hbody

theorem ReadAs.ink_line_ne_nil {g : Grammar} {raw : Text} {line : Line}
    (h : ReadAs g raw (.border line)) : Text.ink line.text ≠ [] := by
  cases h with
  | @border _ c hshown _ =>
    obtain ⟨-, n, hn, hrun⟩ := Border.char?_eq_some_iff.mp hshown
    obtain ⟨m, rfl⟩ := Border.exists_succ_of_minRun_le hn
    rw [← Text.ink_trimStart, ← Text.ink_trimEnd]
    refine Text.ink_ne_nil_of_indent (Text.indent_trim line.text) ?_
    show Text.trim line.text ≠ []
    rw [hrun]
    exact List.cons_ne_nil c _

section

variable {g : Grammar} {entries : List Entry} {blocks : List Block} {block : Block}

/-- A paragraph that was gathered from lines of a group has ink. -/
theorem Gathers.ink_ne_nil (h : Gathers entries blocks)
    (hread : ∀ entry ∈ entries, ∃ raw, ReadAs g raw entry) {bodies : List Text}
    (hblock : Block.paragraph bodies ∈ blocks) : bodies.flatMap Text.ink ≠ [] := by
  obtain ⟨body, rest, rfl⟩ := List.exists_cons_of_ne_nil (h.nonempty bodies hblock)
  obtain ⟨raw, hraw⟩ := hread _ (h.text_mem hblock List.mem_cons_self)
  rw [List.flatMap_cons]
  exact fun hnil => hraw.ink_ne_nil (List.append_eq_nil_iff.mp hnil).1

/-- Every line of a block that was gathered from lines of a group has ink. -/
theorem Gathers.ink_line_ne_nil (h : Gathers entries blocks)
    (hread : ∀ entry ∈ entries, ∃ raw, ReadAs g raw entry) {indent : Text} {width : Nat}
    (hblock : block ∈ blocks) {line : Line} (hline : line ∈ block.lines indent width) :
    Text.ink line.text ≠ [] := by
  cases block with
  | paragraph bodies => exact ink_ne_nil_of_mem_paragraphLines (h.ink_ne_nil hread hblock) hline
  | border shown =>
    obtain ⟨raw, hraw⟩ := hread _ (h.border_mem hblock)
    rw [List.mem_singleton.mp hline]
    exact hraw.ink_line_ne_nil
  | gap => exact absurd hline List.not_mem_nil

/-- A block that was gathered from lines of a group is shown as it should be, and none
of its own lines is blank. -/
theorem Gathers.shownAs (h : Gathers entries blocks)
    (hread : ∀ entry ∈ entries, ∃ raw, ReadAs g raw entry)
    {indent : Text} (hindent : Text.allBlank indent = true) (width : Nat)
    (hblock : block ∈ blocks) :
    ShownAs block (block.lines indent width) ∧
      ∀ line ∈ block.lines indent width, isWritten line = true := by
  refine ⟨?_, fun line hline => isWritten_of_ink_ne_nil (h.ink_line_ne_nil hread hblock hline)⟩
  cases block with
  | paragraph bodies =>
    have hlines := ink_paragraphLines hindent width bodies
    refine .paragraph (fun hnil => ?_) hlines
    -- Without a line there would be no ink.
    rw [show paragraphLines indent width bodies = [] from hnil] at hlines
    exact h.ink_ne_nil hread hblock hlines.symm
  | border line => exact .border line
  | gap => exact .gap

end

/-- Setting a comment group as prose loses none of it. -/
theorem exists_setAsProse (g : Grammar) (width : Nat) (raws : List Text) :
    ∃ blocks shown, SetAsProse g width raws blocks shown := by
  have hindent := allBlank_groupIndent width raws
  have hread := readAs_classify g hindent width
  have hgathers := gathers_gather (raws.map (classify g (groupIndent width raws) width))
  have hentries : ∀ entry ∈ raws.map (classify g (groupIndent width raws) width),
      ∃ raw, ReadAs g raw entry := by
    intro entry hentry
    obtain ⟨raw, -, rfl⟩ := List.mem_map.mp hentry
    exact ⟨raw, hread raw⟩
  refine ⟨_, _, fun raw _ => hread raw, hgathers,
    List.forall₂_map_right_iff.mpr (List.forall₂_same.mpr fun block hblock =>
      (hgathers.shownAs hentries hindent width hblock).1), ?_⟩
  rw [reflow, filter_dropBlankEnd, filter_blockLines fun block hblock =>
    (hgathers.shownAs hentries hindent width hblock).2]
  rfl

end Prose
end Listing
