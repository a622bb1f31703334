/-
Drawing a border line again.

`fill?_spec` is all that the rest needs: the border drawn for a page keeps the
indentation and the character of the line it was drawn from, and it fills the
page unless its indentation leaves no room for the shortest run.
-/
import Listing.Border
import Listing.Proofs.Text.Blank

namespace Listing
namespace Border

theorem isBlank_of_mem_characters {c : Char} (h : c ∈ characters) : Text.isBlank c = false := by
  have hall : characters.all (fun d => Text.isBlank d == false) = true := by decide
  exact beq_iff_eq.mp (List.all_eq_true.mp hall c h)

theorem charWidth_of_mem_characters {c : Char} (h : c ∈ characters) : Text.charWidth c = 1 := by
  have hall : characters.all (fun d => Text.charWidth d == 1) = true := by decide
  exact beq_iff_eq.mp (List.all_eq_true.mp hall c h)

theorem exists_succ_of_minRun_le {n : Nat} (hn : minRun ≤ n) : ∃ m, n = m + 1 := by
  unfold minRun at hn
  exact ⟨n - 1, by omega⟩

/-- A border is a run of one border character with white space around it. -/
theorem char?_eq_some_iff {t : Text} {c : Char} :
    char? t = some c ↔ c ∈ characters ∧ ∃ n, minRun ≤ n ∧ Text.trim t = List.replicate n c := by
  unfold char?
  cases ht : Text.trim t with
  | nil =>
    constructor
    · intro h
      exact absurd h (by simp)
    · rintro ⟨-, n, hn, h⟩
      obtain ⟨m, rfl⟩ := exists_succ_of_minRun_le hn
      exact absurd h (by simp)
  | cons d r =>
    simp only [Bool.and_eq_true, List.contains_iff_mem, List.all_eq_true, beq_iff_eq,
      decide_eq_true_eq]
    constructor
    · intro h
      split at h
      · rename_i hrun
        obtain rfl := Option.some.inj h
        refine ⟨hrun.1.1, r.length + 1, hrun.2, ?_⟩
        rw [List.replicate_succ, List.cons_eq_cons]
        exact ⟨rfl, List.eq_replicate_of_mem hrun.1.2⟩
      · simp at h
    · rintro ⟨hc, n, hn, h⟩
      obtain ⟨m, rfl⟩ := exists_succ_of_minRun_le hn
      rw [List.replicate_succ, List.cons_eq_cons] at h
      obtain ⟨rfl, rfl⟩ := h
      rw [List.length_replicate]
      exact if_pos ⟨⟨hc, fun e he => List.eq_of_mem_replicate he⟩, hn⟩

/-- Three or more copies of one border character with white space around them. -/
def IsRun (t : Text) : Prop :=
  ∃ c ∈ characters, ∃ n, minRun ≤ n ∧ Text.trim t = List.replicate n c

theorem isSome_char?_iff {t : Text} : (char? t).isSome = true ↔ IsRun t := by
  rw [Option.isSome_iff_exists]
  exact exists_congr fun c => char?_eq_some_iff

theorem mem_characters_of_char? {t : Text} {c : Char} (h : char? t = some c) : c ∈ characters :=
  (char?_eq_some_iff.mp h).1

/-- Behind its indentation a border starts with its run. -/
theorem exists_trimStart_eq {t : Text} {c : Char} (h : char? t = some c) :
    ∃ r, Text.trimStart t = c :: r ∧ Text.isBlank c = false := by
  obtain ⟨hc, n, hn, hrun⟩ := char?_eq_some_iff.mp h
  obtain ⟨m, rfl⟩ := exists_succ_of_minRun_le hn
  have htrim := Text.trimEnd_append_tail (Text.trimStart t)
  rw [show Text.trimEnd (Text.trimStart t) = Text.trim t from rfl, hrun, List.replicate_succ,
    List.cons_append] at htrim
  exact ⟨_, htrim.symm, isBlank_of_mem_characters hc⟩

theorem allBlank_eq_false {t : Text} {c : Char} (h : char? t = some c) :
    Text.allBlank t = false := by
  obtain ⟨r, hrun, hc⟩ := exists_trimStart_eq h
  rw [Bool.eq_false_iff]
  intro hblank
  have hmem : c ∈ t := List.dropWhile_subset _ (hrun ▸ List.mem_cons_self)
  exact Bool.false_ne_true (hc.symm.trans (Text.isBlank_of_allBlank hblank hmem))

theorem char?_append_replicate {a : Text} (ha : Text.allBlank a = true) {c : Char}
    (hc : c ∈ characters) {n : Nat} (hn : minRun ≤ n) :
    char? (a ++ List.replicate n c) = some c := by
  refine char?_eq_some_iff.mpr ⟨hc, n, hn, ?_⟩
  have hblank := isBlank_of_mem_characters hc
  obtain ⟨m, rfl⟩ := exists_succ_of_minRun_le hn
  rw [Text.trim, List.replicate_succ, Text.trimStart_append_cons ha hblank, ← List.replicate_succ,
    Text.trimEnd, List.reverse_replicate, List.dropWhile_replicate, hblank,
    if_neg Bool.false_ne_true, List.reverse_replicate]

theorem minRun_le_runLength (indent : Text) (width : Nat) : minRun ≤ runLength indent width :=
  Nat.le_max_right _ _

/-- The border drawn for a page of `width` columns: same indentation, same
character, and as wide as the page or, if the indentation leaves less than the
shortest run, that much wider than the indentation. -/
theorem fill?_spec {t border : Text} {width : Nat} (h : fill? t width = some border) :
    (char? t).isSome = true ∧ Text.indent border = Text.indent t ∧ char? border = char? t ∧
      Text.width border = max width (Text.width (Text.indent t) + minRun) := by
  obtain ⟨c, hc, rfl⟩ := Option.map_eq_some_iff.mp h
  have hmem := mem_characters_of_char? hc
  have hrun := minRun_le_runLength (Text.indent t) width
  refine ⟨by rw [hc]; rfl, ?_, ?_, ?_⟩
  · obtain ⟨m, hm⟩ := exists_succ_of_minRun_le hrun
    rw [hm, List.replicate_succ]
    exact Text.indent_append_cons (Text.allBlank_indent t) (isBlank_of_mem_characters hmem) _
  · rw [char?_append_replicate (Text.allBlank_indent t) hmem hrun, hc]
  · rw [Text.width_append, Text.width_replicate, charWidth_of_mem_characters hmem, Nat.mul_one,
      runLength]
    omega

theorem exists_char?_of_fill? {t border : Text} {width : Nat} (h : fill? t width = some border) :
    ∃ c, c ∈ characters ∧ char? t = some c ∧ char? border = some c := by
  obtain ⟨hsome, -, hchar, -⟩ := fill?_spec h
  obtain ⟨c, hc⟩ := Option.isSome_iff_exists.mp hsome
  exact ⟨c, mem_characters_of_char? hc, hc, hchar.trans hc⟩

/-- Drawing a border a second time changes nothing. -/
theorem fill?_fill? {t border : Text} {width : Nat} (h : fill? t width = some border) :
    fill? border width = some border := by
  obtain ⟨-, hindent, hchar, -⟩ := fill?_spec h
  rw [fill?, hchar, hindent]
  exact h

/-- A border is drawn with nothing that is not in the line it is drawn from. -/
theorem mem_of_mem_fill? {t border : Text} {width : Nat} (h : fill? t width = some border)
    {d : Char} (hd : d ∈ border) : d ∈ t := by
  obtain ⟨c, hc, rfl⟩ := Option.map_eq_some_iff.mp h
  obtain ⟨-, n, hn, hrun⟩ := char?_eq_some_iff.mp hc
  rcases List.mem_append.mp hd with hd | hd
  · exact Text.mem_of_mem_indent hd
  · refine Text.mem_of_mem_trim ?_
    obtain ⟨m, rfl⟩ := exists_succ_of_minRun_le hn
    rw [hrun, List.eq_of_mem_replicate hd, List.replicate_succ]
    exact List.mem_cons_self

theorem fill?_isSome (t : Text) (width : Nat) : (fill? t width).isSome = (char? t).isSome :=
  Option.isSome_map

end Border
end Listing
