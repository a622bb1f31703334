/-
Wrapping a line that was wrapped.

An output line fits the page, or it is one character that no page of this width can hold
(`fits_or_single_of_mem_line`).  Neither is cut again, so wrapping is idempotent, whatever
the indentation of the output line is (`wrapped_is_stable`).
-/
import Listing.Proofs.Wrap.Fragments

namespace Listing
namespace Wrap

theorem line_of_whole {t : Text} {width : Nat}
    (h : width = 0 ∨ Text.allBlank t = true ∨ Text.width t ≤ width) : line t width = [t] := by
  rw [line, fragments_of_whole h]
  rfl

/-- A cut takes one character at least, so a character is never cut. -/
theorem fragmentsFrom_singleton {width least : Nat} {indent : Text} {c : Char}
    (hc : Text.isBlank c = false) :
    fragmentsFrom width indent [] least [] [c] = [⟨[], [], [c]⟩] := by
  have hcut : [c].length ≤ cutLength width least (Text.width []) [c] :=
    cutLength_pos (List.cons_ne_nil c [])
  have hnothing : Text.trimStart ([] : Text) = [] := rfl
  have hend : Text.trimEnd [c] = [c] :=
    Text.trimEnd_eq_self (Text.indent_of_forall_not_blank (by simpa using hc))
  rw [fragmentsFrom]
  simp only [List.take_of_length_le hcut, List.drop_of_length_le hcut, hnothing, hend]
  rw [fragmentsFrom]

theorem line_singleton (c : Char) (width : Nat) : line [c] width = [[c]] := by
  by_cases hwhole : width = 0 ∨ Text.allBlank [c] = true ∨ Text.width [c] ≤ width
  · exact line_of_whole hwhole
  · obtain ⟨hwidth, hblank, -⟩ := not_or.mp hwhole |>.imp_right not_or.mp
    have hc : Text.isBlank c = false := by
      rw [Bool.eq_false_iff]
      intro hc
      exact hblank (by rw [Text.allBlank, List.all_cons, hc]; rfl)
    have hindent : Text.indent [c] = [] := Text.indent_of_forall_not_blank (by simpa using hc)
    have hroom : ¬ width ≤ Text.width [] := by
      rw [Text.width_nil]
      omega
    have hcut : ¬ (decide (width = 0) || Text.allBlank [c] ||
        decide (Text.width [c] ≤ width)) = true := by
      rw [Bool.or_eq_true, Bool.or_eq_true, decide_eq_true_eq, decide_eq_true_eq, or_assoc]
      exact hwhole
    rw [line, fragments]
    simp only [hindent, ite_self, if_neg hroom]
    rw [if_neg hcut, fragmentsFrom_singleton hc]
    rfl

/-- Each output line fits the page, unless the page has no width, the line was white space,
or the output line is one character wider than the page.  And it is wrapped into itself. -/
theorem wrapped_is_stable {t o : Text} {width : Nat} (h : o ∈ line t width) :
    (width = 0 ∨ Text.allBlank t = true ∨ Text.width o ≤ width ∨
      ∃ c, o = [c] ∧ width < Text.charWidth c) ∧
    line o width = [o] := by
  have hfits := fits_or_single_of_mem_line h
  refine ⟨hfits, ?_⟩
  rcases hfits with hzero | hblank | hfits | ⟨c, rfl, -⟩
  · exact line_of_whole (.inl hzero)
  · have hwhole : line t width = [t] := line_of_whole (.inr (.inl hblank))
    rw [hwhole, List.mem_singleton] at h
    rw [h]
    exact hwhole
  · exact line_of_whole (.inr (.inr hfits))
  · exact line_singleton c width

/-- Two characters that are wider than the page, behind an indentation that fills it. -/
theorem wrapped_is_stable_wide :
    let t := "\t日, 本".toList
    line t 1 = ["日".toList, ",".toList, "本".toList] ∧
    "日".toList ∈ line t 1 ∧
    (1 = 0 ∨ Text.allBlank t = true ∨ Text.width "日".toList ≤ 1 ∨
      ∃ c, "日".toList = [c] ∧ 1 < Text.charWidth c) ∧
    line "日".toList 1 = ["日".toList] := by
  intro t
  have hlines : line t 1 = ["日".toList, ",".toList, "本".toList] := by decide +kernel
  have hmem : "日".toList ∈ line t 1 := by
    rw [hlines]
    exact List.mem_cons_self
  exact ⟨hlines, hmem, wrapped_is_stable hmem⟩

end Wrap
end Listing
