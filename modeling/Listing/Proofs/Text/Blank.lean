/-
White space in texts.

The ink of a text is what is left of it without its white space.  Setting a text
on a page moves white space about, so ink is what two texts are compared by:
trimming keeps it, and cutting a text in two cuts its ink in two.
-/
import Listing.Text.Column
import Mathlib.Data.List.DropRight
import Mathlib.Data.List.TakeWhile

namespace Listing
namespace Text

/-- The characters of a text that are not white space, in order. -/
def ink (t : Text) : Text := t.filter (!isBlank ·)

@[simp] theorem ink_append (a b : Text) : ink (a ++ b) = ink a ++ ink b := List.filter_append ..

theorem isBlank_of_allBlank {t : Text} (h : allBlank t = true) {c : Char} (hc : c ∈ t) :
    isBlank c = true :=
  List.all_eq_true.mp h c hc

/-- The letters A to Z and the digits are code points that no white space is among. -/
theorem isBlank_of_isAlphanum {c : Char} (h : c.isAlphanum = true) : isBlank c = false := by
  have hval : ∀ d : Char, d.val.toNat = d.toNat := fun _ => rfl
  have hcodes : '0'.toNat = 48 ∧ '9'.toNat = 57 ∧ 'A'.toNat = 65 ∧ 'Z'.toNat = 90 ∧
      'a'.toNat = 97 ∧ 'z'.toNat = 122 := by decide
  have hclass : ((decide ('A'.val ≤ c.val ∧ c.val ≤ 'Z'.val) ||
      (decide ('a'.val ≤ c.val) && decide (c.val ≤ 'z'.val))) ||
        (decide ('0'.val ≤ c.val) && decide (c.val ≤ '9'.val))) = true := h
  simp only [Bool.or_eq_true, Bool.and_eq_true, decide_eq_true_eq, UInt32.le_iff_toNat_le,
    hval] at hclass
  simp only [isBlank, Bool.or_eq_false_iff, Bool.and_eq_false_iff, decide_eq_false_iff_not,
    beq_eq_false_iff_ne]
  omega

theorem isBlank_of_isDigit {c : Char} (h : c.isDigit = true) : isBlank c = false := by
  refine isBlank_of_isAlphanum ?_
  show (c.isAlpha || c.isDigit) = true
  rw [h, Bool.or_true]

theorem ink_eq_nil_iff {t : Text} : ink t = [] ↔ allBlank t = true := by
  simp [ink, allBlank]

theorem ink_of_allBlank {t : Text} (h : allBlank t = true) : ink t = [] := ink_eq_nil_iff.mpr h

@[simp] theorem allBlank_indent (t : Text) : allBlank (indent t) = true := List.all_takeWhile

@[simp] theorem ink_indent (t : Text) : ink (indent t) = [] := ink_of_allBlank (allBlank_indent t)

@[simp] theorem ink_trimStart (t : Text) : ink (trimStart t) = ink t := by
  have h := congrArg ink (indent_append_trimStart t)
  rwa [ink_append, ink_indent, List.nil_append] at h

@[simp] theorem ink_trimEnd (t : Text) : ink (trimEnd t) = ink t := by
  have htail : ink (t.reverse.takeWhile isBlank).reverse = [] :=
    ink_of_allBlank (by rw [allBlank, List.all_reverse]; exact List.all_takeWhile)
  have h := congrArg ink (trimEnd_append_tail t)
  rwa [ink_append, htail, List.append_nil] at h

/-! ## Indentation -/

/-- White space in front of a text that starts with ink is its indentation. -/
theorem indent_append_cons {a : Text} (ha : allBlank a = true) {c : Char}
    (hc : isBlank c = false) (r : Text) : indent (a ++ c :: r) = a := by
  rw [indent, List.takeWhile_append_of_pos fun d hd => isBlank_of_allBlank ha hd,
    List.takeWhile_cons_of_neg (by rw [hc]; exact Bool.false_ne_true), List.append_nil]

theorem trimStart_append_cons {a : Text} (ha : allBlank a = true) {c : Char}
    (hc : isBlank c = false) (r : Text) : trimStart (a ++ c :: r) = c :: r := by
  rw [trimStart, List.dropWhile_append_of_pos fun d hd => isBlank_of_allBlank ha hd,
    List.dropWhile_cons_of_neg (by rw [hc]; exact Bool.false_ne_true)]

theorem indent_eq_nil_iff {t : Text} : indent t = [] ↔ trimStart t = t := by
  have h := indent_append_trimStart t
  constructor
  · intro he
    rwa [he, List.nil_append] at h
  · intro he
    rw [he] at h
    exact List.append_left_eq_self.mp h

theorem trimStart_append {a : Text} (ha : allBlank a = true) {t : Text} (ht : indent t = []) :
    trimStart (a ++ t) = t := by
  rw [trimStart, List.dropWhile_append_of_pos fun d hd => isBlank_of_allBlank ha hd]
  exact indent_eq_nil_iff.mp ht

theorem head_trimStart_not_blank {t : Text} {c : Char} {r : Text} (h : trimStart t = c :: r) :
    isBlank c = false := by
  have hhead := List.head?_dropWhile_not isBlank t
  rw [show t.dropWhile isBlank = c :: r from h] at hhead
  exact hhead

/-- A text with ink has its first sign behind its indentation. -/
theorem exists_trimStart_eq_cons {t : Text} (h : allBlank t = false) :
    ∃ c r, trimStart t = c :: r ∧ isBlank c = false ∧ t = indent t ++ c :: r := by
  have ht := indent_append_trimStart t
  cases hstart : trimStart t with
  | nil =>
    rw [hstart, List.append_nil] at ht
    rw [← ht, allBlank_indent] at h
    exact absurd h.symm Bool.false_ne_true
  | cons c r =>
    rw [hstart] at ht
    exact ⟨c, r, rfl, head_trimStart_not_blank hstart, ht.symm⟩

@[simp] theorem indent_trimStart (t : Text) : indent (trimStart t) = [] := by
  cases h : trimStart t with
  | nil => rfl
  | cons c r => exact indent_append_cons (a := []) rfl (head_trimStart_not_blank h) r

/-- Trimming the end of a text puts no white space at its start. -/
theorem indent_trimEnd {t : Text} (h : indent t = []) : indent (trimEnd t) = [] := by
  have happ := trimEnd_append_tail t
  cases hend : trimEnd t with
  | nil => rfl
  | cons c r =>
    rw [hend, List.cons_append] at happ
    have hstart : trimStart t = c :: (r ++ (t.reverse.takeWhile isBlank).reverse) := by
      rw [indent_eq_nil_iff.mp h, happ]
    exact indent_append_cons (a := []) rfl (head_trimStart_not_blank hstart) r

@[simp] theorem indent_trim (t : Text) : indent (trim t) = [] := indent_trimEnd (indent_trimStart t)

theorem trimEnd_trimEnd (t : Text) : trimEnd (trimEnd t) = trimEnd t :=
  List.rdropWhile_idempotent isBlank t

@[simp] theorem trim_trim (t : Text) : trim (trim t) = trim t := by
  rw [trim, indent_eq_nil_iff.mp (indent_trim t), trim, trimEnd_trimEnd]

theorem trim_cons_of_isBlank {c : Char} (h : isBlank c = true) (t : Text) :
    trim (c :: t) = trim t := by
  rw [trim, trim, trimStart, trimStart, List.dropWhile_cons_of_pos h]

@[simp] theorem indent_reverse_trim (t : Text) : indent (trim t).reverse = [] := by
  rw [trim, trimEnd, List.reverse_reverse]
  exact indent_trimStart _

theorem mem_of_mem_indent {c : Char} {t : Text} (h : c ∈ indent t) : c ∈ t :=
  List.takeWhile_subset isBlank h

theorem mem_of_mem_trim {c : Char} {t : Text} (h : c ∈ trim t) : c ∈ t := by
  have hstart : c ∈ trimStart t := by
    rw [← trimEnd_append_tail (trimStart t)]
    exact List.mem_append_left _ h
  rw [← indent_append_trimStart t]
  exact List.mem_append_right _ hstart

theorem trimEnd_eq_self {t : Text} (h : indent t.reverse = []) : trimEnd t = t := by
  have hreverse : trimStart t.reverse = t.reverse := indent_eq_nil_iff.mp h
  show (trimStart t.reverse).reverse = t
  rw [hreverse, List.reverse_reverse]

theorem trimEnd_of_allBlank {t : Text} (h : allBlank t = true) : trimEnd t = [] := by
  have hreverse : allBlank t.reverse = true := by rw [allBlank, List.all_reverse]; exact h
  rw [trimEnd, List.dropWhile_eq_nil_iff.mpr fun c hc => isBlank_of_allBlank hreverse hc,
    List.reverse_nil]

/-- Nothing is trimmed off a text with ink at both its ends. -/
theorem trim_eq_self {t : Text} (hstart : indent t = []) (hend : indent t.reverse = []) :
    trim t = t := by
  rw [trim, indent_eq_nil_iff.mp hstart, trimEnd_eq_self hend]

theorem indent_append_of_ne_nil {a : Text} (h : indent a = []) (hne : a ≠ []) (b : Text) :
    indent (a ++ b) = [] := by
  obtain ⟨c, r, rfl⟩ := List.exists_cons_of_ne_nil hne
  have hc : isBlank c = false := head_trimStart_not_blank (indent_eq_nil_iff.mp h)
  exact indent_append_cons (a := []) rfl hc (r ++ b)

theorem indent_of_forall_not_blank {t : Text} (h : ∀ c ∈ t, isBlank c = false) :
    indent t = [] := by
  cases t with
  | nil => rfl
  | cons c r => exact indent_append_cons (a := []) rfl (h c List.mem_cons_self) r

theorem trim_of_forall_not_blank {t : Text} (h : ∀ c ∈ t, isBlank c = false) : trim t = t :=
  trim_eq_self (indent_of_forall_not_blank h)
    (indent_of_forall_not_blank fun c hc => h c (List.mem_reverse.mp hc))

theorem trimEnd_append_blank {blank : Text} (h : allBlank blank = true) (t : Text) :
    trimEnd (t ++ blank) = trimEnd t := by
  rw [trimEnd, trimEnd, List.reverse_append, List.dropWhile_append_of_pos]
  intro c hc
  exact isBlank_of_allBlank h (List.mem_reverse.mp hc)

/-- A text that starts with ink has some. -/
theorem ink_ne_nil_of_indent {t : Text} (hstart : indent t = []) (hne : t ≠ []) : ink t ≠ [] := by
  intro hink
  have hblank : allBlank t = true := ink_eq_nil_iff.mp hink
  obtain ⟨c, r, rfl⟩ := List.exists_cons_of_ne_nil hne
  have hc : isBlank c = false := head_trimStart_not_blank (indent_eq_nil_iff.mp hstart)
  rw [isBlank_of_allBlank hblank List.mem_cons_self] at hc
  exact Bool.false_ne_true hc.symm

/-! ## Trimming -/

theorem indent_eq_nil_iff_head? {t : Text} :
    indent t = [] ↔ ∀ c, t.head? = some c → isBlank c = false := by
  cases t with
  | nil => exact iff_of_true rfl fun c h => absurd h (by simp)
  | cons d r =>
    constructor
    · intro h c hc
      obtain rfl := Option.some.inj hc
      exact head_trimStart_not_blank (indent_eq_nil_iff.mp h)
    · intro h
      exact indent_append_cons (a := []) rfl (h d rfl) r

/-- `inner` is `t` without the white space around it, which is `before` and `behind`. -/
structure Trims (t before inner behind : Text) : Prop where
  eq : t = before ++ inner ++ behind
  before : allBlank before = true
  behind : allBlank behind = true
  start : ∀ c, inner.head? = some c → isBlank c = false
  stop : ∀ c, inner.getLast? = some c → isBlank c = false

namespace Trims

variable {before inner behind t : Text}

theorem of_indent (hbefore : allBlank before = true) (hbehind : allBlank behind = true)
    (hstart : indent inner = []) (hstop : indent inner.reverse = []) :
    Trims (before ++ inner ++ behind) before inner behind where
  eq := rfl
  before := hbefore
  behind := hbehind
  start := indent_eq_nil_iff_head?.mp hstart
  stop := by
    rw [← List.head?_reverse]
    exact indent_eq_nil_iff_head?.mp hstop

theorem indent_eq_nil (h : Trims t before inner behind) : indent inner = [] :=
  indent_eq_nil_iff_head?.mpr h.start

theorem indent_reverse_eq_nil (h : Trims t before inner behind) : indent inner.reverse = [] := by
  rw [indent_eq_nil_iff_head?, List.head?_reverse]
  exact h.stop

end Trims

theorem exists_trims (t : Text) : ∃ before behind, Trims t before (trim t) behind := by
  have hbehind : allBlank ((trimStart t).reverse.takeWhile isBlank).reverse = true := by
    rw [allBlank, List.all_reverse]
    exact List.all_takeWhile
  have hsplit : indent t ++ trim t ++ ((trimStart t).reverse.takeWhile isBlank).reverse = t := by
    rw [List.append_assoc, trim, trimEnd_append_tail, indent_append_trimStart]
  have htrims := Trims.of_indent (allBlank_indent t) hbehind (indent_trim t) (indent_reverse_trim t)
  rw [hsplit] at htrims
  exact ⟨_, _, htrims⟩

theorem trim_of_allBlank {t : Text} (h : allBlank t = true) : trim t = [] := by
  have hstart : trimStart t = [] :=
    List.dropWhile_eq_nil_iff.mpr fun c hc => isBlank_of_allBlank h hc
  rw [trim, hstart]
  rfl

theorem Trims.eq_trim {t before inner behind : Text} (h : Trims t before inner behind) :
    inner = trim t := by
  rw [h.eq, List.append_assoc]
  by_cases hne : inner = []
  · -- All of the text is white space, and where it is split does not matter.
    subst hne
    have hblank : allBlank (before ++ ([] ++ behind)) = true := by
      rw [List.nil_append, allBlank, List.all_append]
      exact Bool.and_eq_true_iff.mpr ⟨h.before, h.behind⟩
    exact (trim_of_allBlank hblank).symm
  · rw [trim, trimStart_append h.before (indent_append_of_ne_nil h.indent_eq_nil hne behind),
      trimEnd_append_blank h.behind, trimEnd_eq_self h.indent_reverse_eq_nil]

/-! ## Widths -/

theorem width_le_of_isPrefix {a b : Text} (h : a <+: b) : width a ≤ width b := by
  obtain ⟨c, rfl⟩ := h
  rw [width_append]
  omega

theorem width_trimEnd_le (t : Text) : width (trimEnd t) ≤ width t := by
  have h := congrArg width (trimEnd_append_tail t)
  rw [width_append] at h
  omega

@[simp] theorem width_replicate (n : Nat) (c : Char) :
    width (List.replicate n c) = n * charWidth c := by
  induction n with
  | zero => rw [List.replicate_zero, width_nil, Nat.zero_mul]
  | succ n ih => rw [List.replicate_succ, width_cons, ih, Nat.succ_mul, Nat.add_comm]

theorem charWidth_space : charWidth ' ' = 1 := by decide

/-! ## Words -/

/-- The words of a text are not empty and hold no white space.  The word that is
being read is part of the induction. -/
theorem word_of_mem_wordsAfter {seen t w : Text} (hseen : ∀ c ∈ seen, isBlank c = false)
    (hw : w ∈ wordsAfter seen t) : w ≠ [] ∧ ∀ c ∈ w, isBlank c = false := by
  induction t generalizing seen with
  | nil =>
    cases seen with
    | nil => exact absurd hw List.not_mem_nil
    | cons d seen =>
      rw [wordsAfter, List.isEmpty_cons, if_neg Bool.false_ne_true, List.mem_singleton] at hw
      subst hw
      exact ⟨by simp, fun c hc => hseen c (List.mem_reverse.mp hc)⟩
  | cons c r ih =>
    have hnone : ∀ d ∈ ([] : Text), isBlank d = false := fun d hd => absurd hd List.not_mem_nil
    rw [wordsAfter] at hw
    by_cases hc : isBlank c = true
    · rw [if_pos hc] at hw
      cases seen with
      | nil => exact ih hnone hw
      | cons d seen =>
        rw [List.isEmpty_cons, if_neg Bool.false_ne_true] at hw
        rcases List.mem_cons.mp hw with rfl | hw
        · exact ⟨by simp, fun c hc => hseen c (List.mem_reverse.mp hc)⟩
        · exact ih hnone hw
    · rw [if_neg hc] at hw
      refine ih (fun d hd => ?_) hw
      rcases List.mem_cons.mp hd with rfl | hd
      · exact Bool.eq_false_iff.mpr hc
      · exact hseen d hd

theorem word_of_mem_words {t w : Text} (hw : w ∈ words t) :
    w ≠ [] ∧ ∀ c ∈ w, isBlank c = false :=
  word_of_mem_wordsAfter (fun _ hc => absurd hc List.not_mem_nil) hw

theorem ink_join (between : Text) (hbetween : allBlank between = true) (texts : List Text) :
    ink (join between texts) = texts.flatMap ink := by
  fun_induction join between texts with
  | case1 => rfl
  | case2 t => exact (List.append_nil (ink t)).symm
  | case3 t rest hrest ih =>
    rw [ink_append, ink_append, ink_of_allBlank hbetween, List.append_nil, ih, List.flatMap_cons]

/-- The words of a text hold its ink.  The word that is being read is part of the
induction. -/
theorem flatMap_ink_wordsAfter (seen t : Text) :
    (wordsAfter seen t).flatMap ink = ink seen.reverse ++ ink t := by
  induction t generalizing seen with
  | nil =>
    cases seen with
    | nil => rfl
    | cons d seen => rfl
  | cons c r ih =>
    rw [wordsAfter]
    by_cases hc : isBlank c = true
    · have hskip : ink (c :: r) = ink r := by
        rw [ink, List.filter_cons_of_neg (by rw [hc]; decide), ink]
      rw [if_pos hc, hskip]
      cases seen with
      | nil => exact ih []
      | cons d seen =>
        rw [List.isEmpty_cons, if_neg Bool.false_ne_true, List.flatMap_cons, ih]
        rfl
    · rw [if_neg hc, ih, List.reverse_cons, ink_append, List.append_assoc, ← ink_append]
      rfl

theorem flatMap_ink_words (t : Text) : (words t).flatMap ink = ink t :=
  flatMap_ink_wordsAfter [] t

end Text
end Listing
