/-
Blank lines between the parts of a comment group.

Only a gap is shown as a blank line, and only behind a paragraph or a border, so runs of
gaps make one blank line and the first line of a group is written.  What the gaps at the
end of a group leave behind is dropped again.  `SetApart` says which blank lines
are left: one between two parts exactly when a line between them was read as blank.

The lines of a paragraph or a border are written, whatever the width of the page
(`Gathers.shownAs`).  So the line before a block is written exactly when the block before
it is no gap, which is what `blockLines_append` needs to cut the output at any block.
-/
import Listing.Proofs.Prose.Paragraphs
import Mathlib.Data.List.DropRight

namespace Listing
namespace Prose

/-! ## Blocks one after the other -/

def Block.isContent : Block → Bool
  | .gap => false
  | _ => true

theorem Block.isContent_of_ne {block : Block} (h : block ≠ .gap) : block.isContent = true := by
  cases block with
  | gap => exact absurd rfl h
  | _ => rfl

theorem Block.eq_gap {block : Block} (h : block.isContent = false) : block = .gap := by
  cases block with
  | gap => rfl
  | _ => exact nomatch h

/-- Every block that is no gap has lines, and none of them is blank. -/
def AllWritten (indent : Text) (width : Nat) (blocks : List Block) : Prop :=
  ∀ block ∈ blocks, block.isContent = true →
    block.lines indent width ≠ [] ∧ ∀ line ∈ block.lines indent width, isWritten line = true

/-- A line is blank by having no spans. -/
theorem isWritten_iff {line : Line} : isWritten line = true ↔ line ≠ Line.blank := by
  obtain ⟨spans⟩ := line
  cases spans with
  | nil => exact ⟨(nomatch ·), fun h => absurd rfl h⟩
  | cons s rest => exact ⟨fun _ => (nomatch ·), fun _ => rfl⟩

section

variable {indent : Text} {width : Nat}

theorem AllWritten.of_append {before after : List Block}
    (h : AllWritten indent width (before ++ after)) :
    AllWritten indent width before ∧ AllWritten indent width after :=
  ⟨fun b hb => h b (List.mem_append_left after hb),
    fun b hb => h b (List.mem_append_right before hb)⟩

theorem AllWritten.tail {block : Block} {rest : List Block}
    (h : AllWritten indent width (block :: rest)) : AllWritten indent width rest :=
  fun b hb => h b (List.mem_cons_of_mem block hb)

theorem AllWritten.lines {blocks : List Block} (h : AllWritten indent width blocks) :
    ∀ block ∈ blocks, ∀ line ∈ block.lines indent width, isWritten line = true := by
  intro block hblock
  cases hcontent : block.isContent with
  | true => exact (h block hblock hcontent).2
  | false =>
    rw [Block.eq_gap hcontent]
    exact fun line hline => absurd hline List.not_mem_nil

theorem blockLines_gap (written : Bool) (rest : List Block) :
    blockLines indent width written (.gap :: rest) =
      List.replicate written.toNat Line.blank ++ blockLines indent width false rest := by
  cases written <;> rfl

theorem blockLines_content {block : Block} {rest : List Block}
    (h : AllWritten indent width (block :: rest)) (hcontent : block.isContent = true)
    (written : Bool) :
    blockLines indent width written (block :: rest) =
      block.lines indent width ++ blockLines indent width true rest := by
  obtain ⟨hne, hwritten⟩ := h block List.mem_cons_self hcontent
  cases block with
  | paragraph bodies =>
    have hlast : ((paragraphLines indent width bodies).getLast?.map isWritten).getD written
        = true := by
      rw [List.getLast?_eq_some_getLast (show paragraphLines indent width bodies ≠ [] from hne)]
      exact hwritten _ (List.getLast_mem hne)
    rw [blockLines, hlast]
    rfl
  | border line =>
    rw [blockLines, hwritten line List.mem_cons_self]
    rfl
  | gap => exact absurd hcontent Bool.false_ne_true

/-- Whether the line before what follows `blocks` is written, if `written` says so of the
line before them. -/
def writtenBehind (written : Bool) (blocks : List Block) : Bool :=
  (blocks.getLast?.map Block.isContent).getD written

theorem writtenBehind_cons (written : Bool) (block : Block) (rest : List Block) :
    writtenBehind written (block :: rest) = writtenBehind block.isContent rest := by
  unfold writtenBehind
  rw [List.getLast?_cons]
  cases rest.getLast? <;> rfl

/-- What blocks show depends on the blocks before them through one bit. -/
theorem blockLines_append {before after : List Block}
    (h : AllWritten indent width (before ++ after)) (written : Bool) :
    blockLines indent width written (before ++ after) =
      blockLines indent width written before ++
        blockLines indent width (writtenBehind written before) after := by
  induction before generalizing written with
  | nil => rfl
  | cons block rest ih =>
    have hbefore : AllWritten indent width (block :: rest) := h.of_append.1
    rw [List.cons_append] at h ⊢
    rw [writtenBehind_cons]
    cases hcontent : block.isContent with
    | true =>
      rw [blockLines_content h hcontent, ih h.tail,
        blockLines_content hbefore hcontent, List.append_assoc]
    | false =>
      obtain rfl := Block.eq_gap hcontent
      rw [blockLines_gap, ih h.tail, blockLines_gap, List.append_assoc]

/-- A run of gaps shows as one blank line, and as none if it is empty. -/
theorem blockLines_gaps (indent : Text) (width gaps : Nat) (rest : List Block) :
    ∃ written, blockLines indent width true (List.replicate gaps .gap ++ rest) =
      List.replicate (min gaps 1) Line.blank ++ blockLines indent width written rest := by
  have hsilent : ∀ n, blockLines indent width false (List.replicate n .gap ++ rest)
      = blockLines indent width false rest := by
    intro n
    induction n with
    | zero => rfl
    | succ n ih => rw [List.replicate_succ, List.cons_append, blockLines_gap, ih]; rfl
  cases gaps with
  | zero => exact ⟨true, rfl⟩
  | succ n =>
    refine ⟨false, ?_⟩
    rw [List.replicate_succ, List.cons_append, blockLines_gap, hsilent,
      Nat.min_eq_right (Nat.succ_pos n)]
    rfl

def OneWritten (a b : Line) : Prop := a ≠ Line.blank ∨ b ≠ Line.blank

/-- Blank lines are shown one at a time and, at the start, only behind a line that is
written. -/
theorem isChain_blockLines {blocks : List Block} (h : AllWritten indent width blocks)
    (written : Bool) :
    (blockLines indent width written blocks).IsChain OneWritten ∧
      (written = false → (blockLines indent width written blocks).head? ≠ some Line.blank) := by
  induction blocks generalizing written with
  | nil => exact ⟨.nil, fun _ h => nomatch h⟩
  | cons block rest ih =>
    cases hcontent : block.isContent with
    | true =>
      obtain ⟨hne, hwritten⟩ := h block List.mem_cons_self hcontent
      rw [blockLines_content h hcontent]
      refine ⟨List.isChain_append.mpr ⟨?_, (ih h.tail true).1, fun a ha b _ => ?_⟩, fun _ hhead => ?_⟩
      · refine (List.pairwise_of_forall_mem_list fun a ha b _ => ?_).isChain
        exact .inl (isWritten_iff.mp (hwritten a ha))
      · exact .inl (isWritten_iff.mp (hwritten a (List.mem_of_getLast? ha)))
      · obtain ⟨first, lines, hcons⟩ := List.exists_cons_of_ne_nil hne
        rw [hcons] at hhead hwritten
        obtain rfl := Option.some.inj hhead
        exact isWritten_iff.mp (hwritten _ List.mem_cons_self) rfl
    | false =>
      obtain rfl := Block.eq_gap hcontent
      obtain ⟨hchain, hhead⟩ := ih h.tail false
      rw [blockLines_gap]
      cases written with
      | true =>
        exact ⟨List.isChain_cons.mpr ⟨fun b hb => .inr fun heq => hhead rfl (heq ▸ hb), hchain⟩,
          fun h => nomatch h⟩
      | false => exact ⟨hchain, fun _ => hhead rfl⟩

end

/-! ## The end of a group -/

theorem dropBlankEnd_eq (lines : List Line) :
    dropBlankEnd lines = lines.rdropWhile (!isWritten ·) := rfl

theorem dropBlankEnd_eq_self {lines : List Line}
    (h : ∀ line ∈ lines.getLast?, isWritten line = true) : dropBlankEnd lines = lines := by
  rw [dropBlankEnd_eq, List.rdropWhile_eq_self_iff]
  intro hne
  rw [h _ (List.getLast?_eq_some_getLast hne)]
  exact Bool.false_ne_true

theorem isWritten_of_getLast?_dropBlankEnd {lines : List Line} {line : Line}
    (h : (dropBlankEnd lines).getLast? = some line) : isWritten line = true := by
  obtain ⟨hne, rfl⟩ := List.mem_getLast?_eq_getLast h
  rw [← Bool.not_eq_false]
  intro hblank
  refine List.rdropWhile_last_not (!isWritten ·) lines hne ?_
  rw [show isWritten ((lines.rdropWhile (!isWritten ·)).getLast hne) = false from hblank]
  rfl

theorem dropBlankEnd_append {lines : List Line} (hne : lines ≠ [])
    (h : ∀ line ∈ lines, isWritten line = true) (before after : List Line) :
    dropBlankEnd (before ++ lines ++ after) = before ++ lines ++ dropBlankEnd after := by
  have hlast : dropBlankEnd (before ++ lines) = before ++ lines := by
    refine dropBlankEnd_eq_self fun line hline => h line (List.mem_of_getLast? ?_)
    rwa [List.getLast?_append_of_ne_nil before hne] at hline
  have hreverse := List.reverse_injective (hlast.trans (List.reverse_reverse _).symm)
  rw [dropBlankEnd, List.reverse_append, List.dropWhile_append, hreverse]
  split
  · rename_i hnone
    rw [dropBlankEnd, List.isEmpty_iff.mp hnone, List.reverse_reverse, List.reverse_nil,
      List.append_nil]
  · rw [List.reverse_append, List.reverse_reverse]
    rfl

/-! ## Groups -/

/-- How the parts of a group `raws`, gathered into `blocks`, are set apart in its output. -/
structure SetApart (g : Grammar) (width : Nat) (raws : List Text) (blocks : List Block)
    (output : List Line) : Prop where
  /-- The gaps are the lines that were read as blank. -/
  gathers : Gathers (raws.map (classify g (groupIndent width raws) width)) blocks
  /-- A line is read as blank if it is white space or a comment with nothing in it. -/
  blank_iff : ∀ raw, classify g (groupIndent width raws) width raw = .blank ↔
    Text.allBlank raw = true ∨ Border.char? raw = none ∧ Comment.body g raw = []
  /-- A line of the output that is not blank has ink. -/
  ink : ∀ line ∈ output, line = Line.blank ∨ Text.ink line.text ≠ []
  head : output.head? ≠ some Line.blank
  last : output.getLast? ≠ some Line.blank
  oneByOne : output.IsChain OneWritten
  /-- The lines of a paragraph or a border are shown as they are, with no blank line between
  them. -/
  block : ∀ before b after, blocks = before ++ b :: after → b ≠ .gap →
    b.lines (groupIndent width raws) width ≠ [] ∧
    Line.blank ∉ b.lines (groupIndent width raws) width ∧
    ∃ above below, output = above ++ b.lines (groupIndent width raws) width ++ below ∧
      above.filter isWritten = before.flatMap (Block.lines (groupIndent width raws) width) ∧
      below.filter isWritten = after.flatMap (Block.lines (groupIndent width raws) width)
  /-- Between two parts there is one blank line if there is a gap between them at all. -/
  between : ∀ before b gaps c after,
    blocks = before ++ b :: (List.replicate gaps .gap ++ c :: after) → b ≠ .gap → c ≠ .gap →
    ∃ above below, output = above ++ b.lines (groupIndent width raws) width ++
        List.replicate (min gaps 1) Line.blank ++
        c.lines (groupIndent width raws) width ++ below ∧
      above.filter isWritten = before.flatMap (Block.lines (groupIndent width raws) width) ∧
      below.filter isWritten = after.flatMap (Block.lines (groupIndent width raws) width)

theorem classify_eq_blank_iff (g : Grammar) (indent : Text) (width : Nat) (raw : Text) :
    classify g indent width raw = .blank ↔
      Text.allBlank raw = true ∨ Border.char? raw = none ∧ Comment.body g raw = [] := by
  constructor
  · intro h
    obtain ⟨-, hblank⟩ | ⟨border, -, hread⟩ | ⟨border, -, -, hread⟩ | ⟨hread, -⟩ :=
      classify_cases g indent width raw
    · exact hblank
    · exact nomatch hread.symm.trans h
    · exact nomatch hread.symm.trans h
    · exact nomatch hread.symm.trans h
  · rintro (hblank | ⟨hraw, hbody⟩)
    · exact if_pos hblank
    · unfold classify
      rw [show Border.fill? raw width = none from Option.map_eq_none_iff.mpr hraw, hbody]
      exact ite_self _

theorem Gathers.allWritten {g : Grammar} {entries : List Entry} {blocks : List Block}
    (h : Gathers entries blocks) (hread : ∀ entry ∈ entries, ∃ raw, ReadAs g raw entry)
    {indent : Text} (hindent : Text.allBlank indent = true) (width : Nat) :
    AllWritten indent width blocks := by
  intro block hblock hcontent
  obtain ⟨hshown, hwritten⟩ := h.shownAs hread hindent width hblock
  refine ⟨?_, hwritten⟩
  generalize block.lines indent width = lines at hshown
  cases hshown with
  | paragraph hne _ => exact hne
  | border line => exact List.cons_ne_nil line []
  | gap => exact absurd hcontent Bool.false_ne_true

section

variable {indent : Text} {width : Nat} {blocks before after : List Block} {b c : Block}

/-- Where the lines of a block are in what is left of the output of all blocks. -/
theorem exists_block_shown (h : AllWritten indent width blocks)
    (hblocks : blocks = before ++ b :: after) (hb : b.isContent = true) :
    ∃ above below,
      dropBlankEnd (blockLines indent width false blocks)
        = above ++ b.lines indent width ++ below ∧
      above.filter isWritten = before.flatMap (Block.lines indent width) ∧
      below.filter isWritten = after.flatMap (Block.lines indent width) := by
  rw [hblocks] at h ⊢
  obtain ⟨hbefore, hrest⟩ := h.of_append
  obtain ⟨hne, hwritten⟩ := hrest b List.mem_cons_self hb
  refine ⟨blockLines indent width false before,
    dropBlankEnd (blockLines indent width true after), ?_, filter_blockLines hbefore.lines _, ?_⟩
  · rw [blockLines_append h, blockLines_content hrest hb, ← List.append_assoc,
      dropBlankEnd_append hne hwritten]
  · rw [filter_dropBlankEnd, filter_blockLines hrest.tail.lines]

/-- What is left between two blocks that have only gaps between them. -/
theorem exists_blocks_shown (h : AllWritten indent width blocks) {gaps : Nat}
    (hblocks : blocks = before ++ b :: (List.replicate gaps .gap ++ c :: after))
    (hb : b.isContent = true) (hc : c.isContent = true) :
    ∃ above below,
      dropBlankEnd (blockLines indent width false blocks)
        = above ++ b.lines indent width ++ List.replicate (min gaps 1) Line.blank ++
          c.lines indent width ++ below ∧
      above.filter isWritten = before.flatMap (Block.lines indent width) ∧
      below.filter isWritten = after.flatMap (Block.lines indent width) := by
  rw [hblocks] at h ⊢
  obtain ⟨hbefore, hrest⟩ := h.of_append
  obtain ⟨-, hlast⟩ := hrest.tail.of_append
  obtain ⟨hne, hwritten⟩ := hlast c List.mem_cons_self hc
  obtain ⟨written, hgaps⟩ := blockLines_gaps indent width gaps (c :: after)
  refine ⟨blockLines indent width false before,
    dropBlankEnd (blockLines indent width true after), ?_, filter_blockLines hbefore.lines _, ?_⟩
  · rw [blockLines_append h, blockLines_content hrest hb, hgaps, blockLines_content hlast hc]
    simp only [← List.append_assoc]
    rw [dropBlankEnd_append hne hwritten]
  · rw [filter_dropBlankEnd, filter_blockLines hlast.tail.lines]

end

/-- The blank lines of a comment group are those between its parts, one for each place
where the source has any. -/
theorem setApart_reflow (g : Grammar) (width : Nat) (raws : List Text) :
    SetApart g width raws (gather (raws.map (classify g (groupIndent width raws) width)))
      (reflow g width raws) := by
  have hindent := allBlank_groupIndent width raws
  have hgathers := gathers_gather (raws.map (classify g (groupIndent width raws) width))
  have hread : ∀ entry ∈ raws.map (classify g (groupIndent width raws) width),
      ∃ raw, ReadAs g raw entry := by
    intro entry hentry
    obtain ⟨raw, -, rfl⟩ := List.mem_map.mp hentry
    exact ⟨raw, readAs_classify g hindent width raw⟩
  have hwritten := hgathers.allWritten hread hindent width
  obtain ⟨hchain, hhead⟩ := isChain_blockLines hwritten false
  have hstart : reflow g width raws <+: blockLines (groupIndent width raws) width false
      (gather (raws.map (classify g (groupIndent width raws) width))) :=
    List.rdropWhile_prefix _ _
  exact
    { gathers := hgathers
      blank_iff := classify_eq_blank_iff g (groupIndent width raws) width
      ink := by
        intro line hline
        refine or_iff_not_imp_left.mpr fun hne => ?_
        have hmem : line ∈ (reflow g width raws).filter isWritten :=
          List.mem_filter.mpr ⟨hline, isWritten_iff.mpr hne⟩
        rw [reflow, filter_dropBlankEnd, filter_blockLines hwritten.lines] at hmem
        obtain ⟨block, hblock, hmem⟩ := List.mem_flatMap.mp hmem
        exact hgathers.ink_line_ne_nil hread hblock hmem
      head := by
        intro h
        obtain ⟨rest, hrest⟩ := List.head?_eq_some_iff.mp h
        obtain ⟨dropped, hdropped⟩ := hstart
        rw [← hdropped, hrest] at hhead
        exact hhead rfl rfl
      last := by
        intro h
        exact isWritten_iff.mp (isWritten_of_getLast?_dropBlankEnd h) rfl
      oneByOne := hchain.prefix hstart
      block := by
        intro before b after hblocks hb
        have hcontent := Block.isContent_of_ne hb
        have hmem : b ∈ gather (raws.map (classify g (groupIndent width raws) width)) := by
          rw [hblocks]
          exact List.mem_append_right before List.mem_cons_self
        obtain ⟨hne, hlines⟩ := hwritten b hmem hcontent
        exact ⟨hne, fun hblank => isWritten_iff.mp (hlines _ hblank) rfl,
          exists_block_shown hwritten hblocks hcontent⟩
      between := fun before b gaps c after hblocks hb hc =>
        exists_blocks_shown hwritten hblocks (Block.isContent_of_ne hb)
          (Block.isContent_of_ne hc) }

end Prose
end Listing
