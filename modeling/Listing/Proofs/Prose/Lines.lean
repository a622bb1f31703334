/-
Where the lines of a comment group come from, and how wide they are.

A line of a group is blank, a line of one of its paragraphs, or the border that
one of its source lines was read as (`mem_reflow`).  The widths follow case by
case.  The indentation of the group leaves room for a whole break window, so a
paragraph fits behind it and so does a border inside comment markers; only a
border that stands by itself keeps an indentation of its own.
-/
import Listing.Proofs.Border
import Listing.Proofs.Prose.Runs
import Listing.Proofs.Wrap.Fragments

namespace Listing

namespace Comment

theorem indent_body (g : Grammar) (t : Text) : Text.indent (body g t) = [] := by
  unfold body
  simp only
  split
  · exact Text.indent_trim _
  · split
    · exact Text.indent_trim _
    · exact Text.indent_trim t

end Comment

namespace Prose

/-! ## Provenance -/

theorem mem_blockLines {indent : Text} {width : Nat} {written : Bool} {blocks : List Block}
    {line : Line} (h : line ∈ blockLines indent width written blocks) :
    line = Line.blank ∨ (∃ bodies, line ∈ paragraphLines indent width bodies) ∨
      Block.border line ∈ blocks := by
  induction blocks generalizing written with
  | nil => exact absurd h List.not_mem_nil
  | cons block rest ih =>
    have hrest : ∀ {written : Bool}, line ∈ blockLines indent width written rest →
        line = Line.blank ∨ (∃ bodies, line ∈ paragraphLines indent width bodies) ∨
          Block.border line ∈ block :: rest := by
      intro written hmem
      exact (ih hmem).imp_right fun h => h.imp_right (List.mem_cons_of_mem block)
    cases block with
    | paragraph bodies =>
      rcases List.mem_append.mp h with h | h
      · exact .inr (.inl ⟨bodies, h⟩)
      · exact hrest h
    | border shown =>
      rcases List.mem_cons.mp h with rfl | h
      · exact .inr (.inr List.mem_cons_self)
      · exact hrest h
    | gap =>
      rw [blockLines] at h
      split at h
      · rcases List.mem_cons.mp h with h | h
        · exact .inl h
        · exact hrest h
      · exact hrest h

theorem mem_of_mem_dropBlankEnd {lines : List Line} {line : Line}
    (h : line ∈ dropBlankEnd lines) : line ∈ lines :=
  List.mem_reverse.mp (List.dropWhile_subset _ (List.mem_reverse.mp h))

/-- Every line of a group is blank, belongs to a paragraph, or is the border that a
line of the group was read as. -/
theorem mem_reflow {g : Grammar} {width : Nat} {raws : List Text} {line : Line}
    (h : line ∈ reflow g width raws) :
    line = Line.blank ∨
    (∃ bodies, line ∈ paragraphLines (groupIndent width raws) width bodies) ∨
    ∃ raw ∈ raws, classify g (groupIndent width raws) width raw = .border line := by
  refine (mem_blockLines (mem_of_mem_dropBlankEnd h)).imp_right fun h => h.imp_right fun h => ?_
  exact List.mem_map.mp ((gathers_gather _).border_mem h)

/-! ## Widths -/

theorem text_commentLine (indent text : Text) : (commentLine indent text).text = indent ++ text := by
  unfold commentLine
  split
  · rename_i hindent
    rw [List.isEmpty_iff.mp hindent, List.nil_append]
    exact Span.flatMap_text_unlessEmpty .comment text
  · simp [Line.text]

theorem width_commentLine (indent text : Text) :
    (commentLine indent text).width = Text.width indent + Text.width text := by
  rw [Line.width, text_commentLine, Text.width_append]

/-- The indentation of a group leaves room for a whole break window, on a page that
has that room at all. -/
theorem width_groupIndent_le {width : Nat} (raws : List Text) (h : Wrap.window ≤ width) :
    Text.width (groupIndent width raws) + Wrap.window ≤ width := by
  have hnone : Text.width [] + Wrap.window ≤ width := by
    rw [Text.width_nil, Nat.zero_add]
    exact h
  unfold groupIndent
  split
  · exact hnone
  · split
    · rename_i hroom
      exact hroom
    · exact hnone

/-- Prose that has been joined starts with a word, if there is anything in it. -/
theorem indent_joined (bodies : List Text) : Text.indent (joined bodies) = [] := by
  unfold joined
  cases hwords : Text.words (Text.join [' '] bodies) with
  | nil => rfl
  | cons w rest =>
    obtain ⟨hne, hw⟩ := Text.word_of_mem_words (hwords ▸ List.mem_cons_self)
    obtain ⟨c, w, rfl⟩ := List.exists_cons_of_ne_nil hne
    have hc := hw c List.mem_cons_self
    cases rest with
    | nil => exact Text.indent_append_cons (a := []) rfl hc _
    | cons v rest => exact Text.indent_append_cons (a := []) rfl hc _

theorem joined_eq_nil_of_allBlank {bodies : List Text}
    (h : Text.allBlank (joined bodies) = true) : joined bodies = [] := by
  by_contra hne
  exact Text.ink_ne_nil_of_indent (indent_joined bodies) hne (Text.ink_of_allBlank h)

theorem width_le_of_mem_paragraphLines {indent : Text} {width : Nat} {bodies : List Text}
    {line : Line} (hindent : Text.width indent + Wrap.window ≤ width)
    (h : line ∈ paragraphLines indent width bodies) : line.width ≤ width := by
  obtain ⟨t, ht, rfl⟩ := List.mem_map.mp h
  unfold Wrap.window at hindent
  have hfits : Text.width t ≤ width - Text.width indent := by
    by_cases hblank : Text.allBlank (joined bodies) = true
    · rw [joined_eq_nil_of_allBlank hblank] at ht
      have hnil : t = [] := by simpa [Wrap.line, Wrap.fragments, Text.allBlank,
        Wrap.Fragment.text] using ht
      rw [hnil]
      exact Nat.zero_le _
    · refine Wrap.width_le_of_mem_line ?_ (Bool.eq_false_iff.mpr hblank) ht
      unfold Wrap.charRoom
      omega
  rw [width_commentLine]
  omega

/-- The ways a line of a group is read: as blank, as a border that stands by itself or
inside comment markers, or as prose. -/
theorem classify_cases (g : Grammar) (indent : Text) (width : Nat) (raw : Text) :
    (classify g indent width raw = .blank ∧
      (Text.allBlank raw = true ∨ Border.char? raw = none ∧ Comment.body g raw = [])) ∨
    (∃ border, Border.fill? raw width = some border ∧
      classify g indent width raw
        = .border (commentLine (Text.indent border) (Text.trimStart border))) ∨
    (∃ border, Border.char? raw = none ∧
      Border.fill? (Comment.body g raw) (width - Text.width indent) = some border ∧
      classify g indent width raw = .border (commentLine indent border)) ∨
    (classify g indent width raw = .text (Comment.body g raw) ∧ Border.char? raw = none ∧
      Comment.body g raw ≠ [] ∧ Border.char? (Comment.body g raw) = none) := by
  unfold classify
  split
  · rename_i hblank
    exact .inl ⟨rfl, .inl hblank⟩
  · split
    · rename_i border hborder
      exact .inr (.inl ⟨border, hborder, rfl⟩)
    · rename_i hraw
      have hraw : Border.char? raw = none := Option.map_eq_none_iff.mp hraw
      simp only
      split
      · rename_i hbody
        exact .inl ⟨rfl, .inr ⟨hraw, List.isEmpty_iff.mp hbody⟩⟩
      · rename_i hbody
        have hbody : Comment.body g raw ≠ [] := fun hnil => hbody (List.isEmpty_iff.mpr hnil)
        split
        · rename_i border hborder
          exact .inr (.inr (.inl ⟨border, hraw, hborder, rfl⟩))
        · rename_i hinside
          exact .inr (.inr (.inr ⟨rfl, hraw, hbody, Option.map_eq_none_iff.mp hinside⟩))

/-- A line that is read as a border is one by itself and keeps its indentation, or its
prose is one and fills the page behind the indentation of the group. -/
theorem classify_border {g : Grammar} {indent raw : Text} {width : Nat} {line : Line}
    (hindent : Text.width indent + Wrap.window ≤ width)
    (h : classify g indent width raw = .border line) :
    Border.fill? raw width = some line.text ∨ line.width = width := by
  obtain ⟨hread, -⟩ | ⟨border, hborder, hread⟩ | ⟨border, -, hborder, hread⟩ | ⟨hread, -⟩ :=
    classify_cases g indent width raw
  · exact absurd (hread.symm.trans h) (by simp)
  · obtain rfl := Entry.border.inj (hread.symm.trans h)
    rw [text_commentLine, Text.indent_append_trimStart]
    exact .inl hborder
  · obtain rfl := Entry.border.inj (hread.symm.trans h)
    obtain ⟨-, -, -, hwidth⟩ := Border.fill?_spec hborder
    unfold Wrap.window at hindent
    rw [Comment.indent_body, Text.width_nil, Nat.zero_add, Border.minRun] at hwidth
    refine .inr ?_
    rw [width_commentLine]
    omega
  · exact absurd (hread.symm.trans h) (by simp)

end Prose
end Listing
