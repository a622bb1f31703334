/-
Words with white space between them.

White space ends a word wherever it stands (`words_append_cons`), so the words of a text
that was put together from words are these words, however wide the gaps are
(`Spread.words_eq`).
-/
import Listing.Proofs.Text.Blank

namespace Listing
namespace Text

theorem wordsAfter_cons_of_blank (seen : Text) {c : Char} (hc : isBlank c = true) (t : Text) :
    wordsAfter seen (c :: t) = wordsAfter seen [] ++ words t := by
  rw [wordsAfter.eq_def, words]
  simp only [if_pos hc]
  cases seen with
  | nil => rfl
  | cons d seen => rfl

theorem wordsAfter_cons_of_inked (seen : Text) {c : Char} (hc : isBlank c = false) (t : Text) :
    wordsAfter seen (c :: t) = wordsAfter (c :: seen) t := by
  rw [wordsAfter.eq_def]
  exact if_neg (Bool.eq_false_iff.mp hc)

theorem wordsAfter_append_cons (seen a : Text) {c : Char} (hc : isBlank c = true) (b : Text) :
    wordsAfter seen (a ++ c :: b) = wordsAfter seen a ++ words b := by
  induction a generalizing seen with
  | nil => exact wordsAfter_cons_of_blank seen hc b
  | cons d a ih =>
    rw [List.cons_append]
    cases hd : isBlank d with
    | true =>
      rw [wordsAfter_cons_of_blank seen hd, wordsAfter_cons_of_blank seen hd a, words, ih,
        List.append_assoc]
      rfl
    | false => rw [wordsAfter_cons_of_inked seen hd, wordsAfter_cons_of_inked seen hd, ih]

/-- A text is cut into words at any white space. -/
theorem words_append_cons (a : Text) {c : Char} (hc : isBlank c = true) (b : Text) :
    words (a ++ c :: b) = words a ++ words b :=
  wordsAfter_append_cons [] a hc b

theorem words_append_of_allBlank {gap : Text} (hgap : allBlank gap = true) (t : Text) :
    words (gap ++ t) = words t := by
  induction gap with
  | nil => rfl
  | cons c gap ih =>
    obtain ⟨hc, hrest⟩ := Bool.and_eq_true_iff.mp (List.all_cons.symm.trans hgap)
    have hcut := words_append_cons [] hc (gap ++ t)
    rw [List.nil_append] at hcut
    rw [List.cons_append, hcut, ih hrest]
    rfl

theorem wordsAfter_of_forall_not_blank (seen : Text) {w : Text}
    (hw : ∀ c ∈ w, isBlank c = false) : wordsAfter seen w = wordsAfter (w.reverse ++ seen) [] := by
  induction w generalizing seen with
  | nil => rfl
  | cons c w ih =>
    have hrest : ∀ d ∈ w, isBlank d = false := fun d hd => hw d (List.mem_cons_of_mem c hd)
    rw [wordsAfter_cons_of_inked seen (hw c List.mem_cons_self), ih _ hrest, List.reverse_cons,
      List.append_assoc]
    rfl

theorem words_of_forall_not_blank {w : Text} (hne : w ≠ []) (hw : ∀ c ∈ w, isBlank c = false) :
    words w = [w] := by
  have hreverse : w.reverse.isEmpty = false := by
    rw [List.isEmpty_reverse, List.isEmpty_eq_false_iff]
    exact hne
  rw [words, wordsAfter_of_forall_not_blank [] hw, List.append_nil, wordsAfter, hreverse,
    List.reverse_reverse]
  rfl

theorem words_join (texts : List Text) : words (join [' '] texts) = texts.flatMap words := by
  fun_induction join [' '] texts with
  | case1 => rfl
  | case2 t => exact (List.append_nil _).symm
  | case3 t rest _ ih =>
    rw [List.append_assoc, List.singleton_append, words_append_cons t rfl, ih, List.flatMap_cons]

/-! ## Words as they are written -/

/-- A text that holds these words, with white space between each and the next. -/
inductive Spread : List Text → Text → Prop
  | last (w : Text) : Spread [w] w
  | cons {w gap t : Text} {rest : List Text} (hne : gap ≠ []) (hgap : allBlank gap = true)
      (h : Spread rest t) : Spread (w :: rest) (w ++ gap ++ t)

namespace Spread

variable {ws : List Text} {t : Text}

theorem words_eq (h : Spread ws t) (hws : ∀ w ∈ ws, w ≠ [] ∧ ∀ c ∈ w, isBlank c = false) :
    words t = ws := by
  induction h with
  | last w =>
    obtain ⟨hne, hw⟩ := hws w List.mem_cons_self
    exact words_of_forall_not_blank hne hw
  | @cons w gap t rest hne hgap _ ih =>
    obtain ⟨hwne, hw⟩ := hws w List.mem_cons_self
    obtain ⟨c, gap, rfl⟩ := List.exists_cons_of_ne_nil hne
    obtain ⟨hc, hmore⟩ := Bool.and_eq_true_iff.mp (List.all_cons.symm.trans hgap)
    rw [List.append_assoc, List.cons_append, words_append_cons w hc,
      words_append_of_allBlank hmore, words_of_forall_not_blank hwne hw,
      ih fun v hv => hws v (List.mem_cons_of_mem w hv), List.singleton_append]

/-- There is no white space in front of the first word and none behind the last. -/
theorem ends_inked (h : Spread ws t) (hws : ∀ w ∈ ws, w ≠ [] ∧ ∀ c ∈ w, isBlank c = false) :
    t ≠ [] ∧ indent t = [] ∧ indent t.reverse = [] := by
  induction h with
  | last w =>
    obtain ⟨hne, hw⟩ := hws w List.mem_cons_self
    exact ⟨hne, indent_of_forall_not_blank hw,
      indent_of_forall_not_blank fun c hc => hw c (List.mem_reverse.mp hc)⟩
  | @cons w gap t rest _ _ _ ih =>
    obtain ⟨hwne, hw⟩ := hws w List.mem_cons_self
    obtain ⟨hne, -, hend⟩ := ih fun v hv => hws v (List.mem_cons_of_mem w hv)
    refine ⟨by simp [hne], ?_, ?_⟩
    · rw [List.append_assoc]
      exact indent_append_of_ne_nil (indent_of_forall_not_blank hw) hwne _
    · rw [List.reverse_append]
      exact indent_append_of_ne_nil hend (by simpa using hne) _

end Spread

end Text
end Listing
