/-
Lines of a text.

A line feed ends a line and the next line starts afresh (`lines_append`), so a text
that was put together line by line is read line by line (`lines_cons`).
-/
import Listing.Text.Basic

namespace Listing
namespace Text

theorem linesAfter_cons_of_ne {c : Char} (hc : c ≠ '\n') (seen t : Text) :
    linesAfter seen (c :: t) = linesAfter (c :: seen) t := by
  rw [linesAfter.eq_def]
  exact if_neg hc

/-- The line that ends at a line feed does not depend on the text behind it. -/
theorem linesAfter_newline (seen t : Text) :
    linesAfter seen ('\n' :: t) = linesAfter seen ['\n'] ++ linesAfter [] t := by
  rw [linesAfter.eq_def, linesAfter.eq_def seen ['\n']]
  simp only [if_true]
  rfl

theorem linesAfter_append (seen a b : Text) :
    linesAfter seen (a ++ '\n' :: b) = linesAfter seen (a ++ ['\n']) ++ linesAfter [] b := by
  induction a generalizing seen with
  | nil => exact linesAfter_newline seen b
  | cons c r ih =>
    rw [List.cons_append, List.cons_append]
    by_cases hc : c = '\n'
    · rw [hc, linesAfter_newline, linesAfter_newline seen (r ++ ['\n']), ih, List.append_assoc]
    · rw [linesAfter_cons_of_ne hc, linesAfter_cons_of_ne hc]
      exact ih (c :: seen)

/-- A line feed ends a line and the next line starts afresh. -/
theorem lines_append {a : Text} (ha : a.getLast? = some '\n') (b : Text) :
    lines (a ++ b) = lines a ++ lines b := by
  obtain ⟨before, rfl⟩ := List.getLast?_eq_some_iff.mp ha
  rw [List.append_assoc, List.singleton_append]
  exact linesAfter_append [] before b

theorem linesAfter_append_of_not_mem (seen : Text) {line : Text} (h : '\n' ∉ line) (rest : Text) :
    linesAfter seen (line ++ rest) = linesAfter (line.reverse ++ seen) rest := by
  induction line generalizing seen with
  | nil => rfl
  | cons c r ih =>
    have hc : c ≠ '\n' := fun he => h (he ▸ List.mem_cons_self)
    rw [List.cons_append, linesAfter_cons_of_ne hc, ih (c :: seen) fun hr =>
      h (List.mem_cons_of_mem _ hr), List.reverse_cons, List.append_assoc]
    rfl

/-- A text without line feeds is one line, if there is anything in it. -/
theorem lines_of_not_mem {t : Text} (h : '\n' ∉ t) (hne : t ≠ []) : lines t = [t] := by
  have hread := linesAfter_append_of_not_mem [] h []
  rw [List.append_nil, List.append_nil, linesAfter, List.isEmpty_reverse,
    List.isEmpty_eq_false_iff.mpr hne, if_neg Bool.false_ne_true, List.reverse_reverse] at hread
  exact hread

/-- A line that does not end in a carriage return is read as it was written. -/
theorem lines_cons {line : Text} (h : '\n' ∉ line) (hreturn : line.getLast? ≠ some '\r')
    (rest : Text) : lines (line ++ '\n' :: rest) = line :: lines rest := by
  rw [lines, linesAfter_append_of_not_mem [] h, List.append_nil, linesAfter.eq_def]
  simp only [if_true]
  rw [lines, List.cons_eq_cons]
  refine ⟨?_, rfl⟩
  split
  · rename_i before hbefore
    refine absurd ?_ hreturn
    rw [← List.head?_reverse, hbefore, List.head?_cons]
  · exact List.reverse_reverse line

theorem not_mem_of_mem_linesAfter {seen t line : Text} (hseen : '\n' ∉ seen)
    (h : line ∈ linesAfter seen t) : '\n' ∉ line := by
  induction t generalizing seen with
  | nil =>
    rw [linesAfter] at h
    split at h
    · exact absurd h List.not_mem_nil
    · rw [List.mem_singleton.mp h, List.mem_reverse]
      exact hseen
  | cons c r ih =>
    by_cases hc : c = '\n'
    · rw [hc, linesAfter.eq_def] at h
      simp only [if_true] at h
      rcases List.mem_cons.mp h with rfl | h
      · split
        · rw [List.mem_reverse]
          exact fun hmem => hseen (List.mem_cons_of_mem _ hmem)
        · rw [List.mem_reverse]
          exact hseen
      · exact ih List.not_mem_nil h
    · rw [linesAfter_cons_of_ne hc] at h
      refine ih ?_ h
      rintro hmem
      rcases List.mem_cons.mp hmem with he | hmem
      · exact hc he.symm
      · exact hseen hmem

theorem not_mem_of_mem_lines {t line : Text} (h : line ∈ lines t) : '\n' ∉ line :=
  not_mem_of_mem_linesAfter List.not_mem_nil h

end Text
end Listing
