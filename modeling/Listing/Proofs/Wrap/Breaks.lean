/-
Where a line is cut.

A cut is looked for by a scan from left to right that remembers the last place to break.
Here it is described without the scan (`CutsAt`): the text fits, or it is cut right behind
the last character that allows a break, or in front of the first character that does not
fit if none does, or behind a character that is alone too wide.  The description and the
scan agree (`cutsAt_cutLength`, `cutLength_of_cutsAt`), so a cut may be found or foretold
from what is known about the text.
-/
import Listing.Proofs.Wrap.Ranges

namespace Listing
namespace Wrap

theorem charWidth_of_mem_breakChars {b : Char} (h : b ∈ breakChars) : Text.charWidth b = 1 := by
  have hall : breakChars.all (fun c => Text.charWidth c == 1) = true := by decide
  exact beq_iff_eq.mp (List.all_eq_true.mp hall b h)

/-- A line that starts at `column` may be broken right behind `b`, which follows `before`. -/
structure MayBreak (width least column : Nat) (before : Text) (b : Char) : Prop where
  char : b ∈ breakChars
  allowed : least ≤ column + Text.width before
  inWindow : width ≤ column + Text.width before + window
  fits : column + Text.width before + Text.charWidth b ≤ width

theorem mayBreak_cons {width least column : Nat} {c b : Char} {before : Text} :
    MayBreak width least column (c :: before) b ↔
      MayBreak width least (column + Text.charWidth c) before b := by
  have hcolumn : column + Text.width (c :: before) =
      column + Text.charWidth c + Text.width before := by
    rw [Text.width_cons, Nat.add_assoc]
  constructor
  · rintro ⟨hchar, hleast, hwindow, hfits⟩
    rw [hcolumn] at hleast hwindow hfits
    exact ⟨hchar, hleast, hwindow, hfits⟩
  · rintro ⟨hchar, hleast, hwindow, hfits⟩
    rw [← hcolumn] at hleast hwindow hfits
    exact ⟨hchar, hleast, hwindow, hfits⟩

/-! ## The scan for a break -/

/-- What the scan asks of a character that fits. -/
theorem mayBreak_nil_iff {width least column : Nat} {c : Char}
    (h : column + Text.charWidth c ≤ width) :
    MayBreak width least column [] c ↔
      (decide (least ≤ column) && decide (width ≤ column + window) && breakChars.contains c)
        = true := by
  simp only [Bool.and_eq_true, decide_eq_true_eq, List.contains_iff_mem]
  constructor
  · intro hbreak
    exact ⟨⟨hbreak.allowed, hbreak.inWindow⟩, hbreak.char⟩
  · rintro ⟨⟨hleast, hwindow⟩, hchar⟩
    exact ⟨hchar, hleast, hwindow, h⟩

theorem breakLength?_eq_none_iff {width least column : Nat} {t : Text} :
    breakLength? width least column t = none ↔
      ∀ before b after, t = before ++ b :: after → ¬ MayBreak width least column before b := by
  induction t generalizing column with
  | nil => exact iff_of_true rfl fun before b after h => absurd h (by simp)
  | cons c r ih =>
    -- A place to break is the first character, or one behind it.
    have hsplit : (∀ before b after, c :: r = before ++ b :: after →
          ¬ MayBreak width least column before b) ↔
        ¬ MayBreak width least column [] c ∧ ∀ before b after, r = before ++ b :: after →
          ¬ MayBreak width least (column + Text.charWidth c) before b := by
      constructor
      · intro h
        refine ⟨h [] c r rfl, fun before b after hr => ?_⟩
        rw [← mayBreak_cons]
        exact h (c :: before) b after (by rw [hr]; rfl)
      · rintro ⟨hfirst, hrest⟩ before b after ht
        cases before with
        | nil =>
          obtain ⟨rfl, -⟩ := List.cons_eq_cons.mp ht
          exact hfirst
        | cons d before =>
          obtain ⟨rfl, hr⟩ := List.cons_eq_cons.mp ht
          rw [mayBreak_cons]
          exact hrest before b after hr
    rw [hsplit, ← ih, breakLength?]
    by_cases hwide : width < column + Text.charWidth c
    · have hnone : breakLength? width least (column + Text.charWidth c) r = none := by
        rw [ih]
        intro before b after _ hbreak
        have := hbreak.fits
        omega
      rw [if_pos hwide]
      refine iff_of_true rfl ⟨fun hbreak => ?_, hnone⟩
      have := hbreak.fits
      rw [Text.width_nil] at this
      omega
    · rw [if_neg hwide]
      cases breakLength? width least (column + Text.charWidth c) r with
      | some n => simp
      | none =>
        rw [mayBreak_nil_iff (Nat.le_of_not_lt hwide)]
        by_cases hhere : (decide (least ≤ column) && decide (width ≤ column + window) &&
            breakChars.contains c) = true
        · simp only [if_pos hhere]
          exact iff_of_false (by simp) fun h => h.1 hhere
        · simp only [if_neg hhere]
          exact iff_of_true trivial ⟨hhere, trivial⟩

/-- The scan finds the last place to break. -/
theorem exists_of_breakLength?_eq_some {width least column n : Nat} {t : Text}
    (h : breakLength? width least column t = some n) :
    ∃ before b after, t = before ++ b :: after ∧ n = before.length + 1 ∧
      MayBreak width least column before b ∧
      ∀ mid c rest, after = mid ++ c :: rest →
        ¬ MayBreak width least column (before ++ b :: mid) c := by
  induction t generalizing column n with
  | nil => simp [breakLength?] at h
  | cons c r ih =>
    rw [breakLength?] at h
    split at h
    · simp at h
    · rename_i hwide
      split at h
      · rename_i m hm
        obtain ⟨before, b, after, rfl, rfl, hbreak, hlast⟩ := ih hm
        refine ⟨c :: before, b, after, rfl, (Option.some.inj h).symm, mayBreak_cons.mpr hbreak,
          fun mid d rest hafter hbreak' => hlast mid d rest hafter (mayBreak_cons.mp hbreak')⟩
      · rename_i hnone
        split at h
        · rename_i hhere
          refine ⟨[], c, r, rfl, (Option.some.inj h).symm,
            (mayBreak_nil_iff (Nat.le_of_not_lt hwide)).mpr hhere, fun mid d rest hr => ?_⟩
          rw [List.nil_append, mayBreak_cons]
          exact breakLength?_eq_none_iff.mp hnone mid d rest hr
        · simp at h

/-- Any place to break with none behind it is the one the scan finds. -/
theorem breakLength?_of_last {width least column : Nat} {before after : Text} {b : Char}
    (hbreak : MayBreak width least column before b)
    (hlast : ∀ mid c rest, after = mid ++ c :: rest →
      ¬ MayBreak width least column (before ++ b :: mid) c) :
    breakLength? width least column (before ++ b :: after) = some (before.length + 1) := by
  induction before generalizing column with
  | nil =>
    have hnone : breakLength? width least (column + Text.charWidth b) after = none := by
      rw [breakLength?_eq_none_iff]
      intro mid c rest hafter
      rw [← mayBreak_cons]
      exact hlast mid c rest hafter
    have hfits : column + Text.charWidth b ≤ width := hbreak.fits
    rw [List.nil_append, breakLength?, if_neg (Nat.not_lt.mpr hfits), hnone]
    exact if_pos ((mayBreak_nil_iff hfits).mp hbreak)
  | cons c before ih =>
    have hwide : ¬ width < column + Text.charWidth c := by
      have := hbreak.fits
      rw [Text.width_cons] at this
      omega
    have hrest := ih (mayBreak_cons.mp hbreak) fun mid d rest hafter hbreak' =>
      hlast mid d rest hafter (mayBreak_cons.mpr hbreak')
    rw [List.cons_append, breakLength?, if_neg hwide, hrest]
    rfl

/-! ## What fits -/

theorem fitLength_append {width column : Nat} {a : Text} (h : column + Text.width a ≤ width)
    (b : Text) : fitLength width column (a ++ b) =
      a.length + fitLength width (column + Text.width a) b := by
  induction a generalizing column with
  | nil => rw [List.nil_append, List.length_nil, Nat.zero_add, Text.width_nil, Nat.add_zero]
  | cons c r ih =>
    rw [Text.width_cons] at h ⊢
    rw [List.cons_append, fitLength, if_neg (by omega), ih (by omega), List.length_cons,
      Nat.add_assoc column]
    omega

/-- The first character that is left out does not fit. -/
theorem fitLength_stops {width column : Nat} {t : Text} {c : Char} {r : Text}
    (h : t.drop (fitLength width column t) = c :: r) :
    width < column + Text.width (t.take (fitLength width column t)) + Text.charWidth c := by
  induction t generalizing column with
  | nil => simp [fitLength] at h
  | cons d t ih =>
    rw [fitLength] at h ⊢
    split at h
    · rename_i hwide
      rw [List.drop_zero, List.cons_eq_cons] at h
      rw [if_pos hwide, ← h.1]
      exact hwide
    · rename_i hwide
      rw [if_neg hwide, List.take_succ_cons, Text.width_cons, ← Nat.add_assoc]
      exact ih h

/-! ## The cut -/

/-- A text that starts at `column` is cut between `taken` and `rest`. -/
inductive CutsAt (width least column : Nat) : Text → Text → Prop
  /-- All of it fits. -/
  | whole {taken : Text} (hfits : column + Text.width taken ≤ width) :
      CutsAt width least column taken []
  /-- It does not fit and is broken at the last place for it. -/
  | atBreak {before rest : Text} {b : Char}
      (hwide : width < column + Text.width (before ++ b :: rest))
      (hbreak : MayBreak width least column before b)
      (hlast : ∀ mid c after, rest = mid ++ c :: after →
        ¬ MayBreak width least column (before ++ b :: mid) c) :
      CutsAt width least column (before ++ [b]) rest
  /-- There is no place to break it, and it is cut where the page ends. -/
  | atWidth {taken rest : Text} {c : Char} (hne : taken ≠ [])
      (hfits : column + Text.width taken ≤ width)
      (hnext : width < column + Text.width taken + Text.charWidth c)
      (hnone : ∀ before b after, taken = before ++ b :: after →
        ¬ MayBreak width least column before b) :
      CutsAt width least column taken (c :: rest)
  /-- Not even its first character fits. -/
  | single {c : Char} {rest : Text} (hwide : width < column + Text.charWidth c) :
      CutsAt width least column [c] rest

/-- What is asked before a break is looked for. -/
theorem fitsBehind_iff {width column : Nat} {t : Text} :
    (decide (column ≤ width) && Text.fits (width - column) t) = true ↔
      column + Text.width t ≤ width := by
  rw [Bool.and_eq_true, decide_eq_true_eq, Text.fits_iff]
  omega

/-- Up to a character inside it a text is as wide as its first character. -/
theorem charWidth_le_of_cons_eq {c d : Char} {rest mid after : Text}
    (h : d :: rest = mid ++ c :: after) :
    Text.charWidth d ≤ Text.width mid + Text.charWidth c := by
  cases mid with
  | nil =>
    rw [(List.cons_eq_cons.mp h).1]
    omega
  | cons e mid =>
    rw [(List.cons_eq_cons.mp h).1, Text.width_cons]
    omega

/-- Without a place to break, a text is cut by what fits, but is never left as it is. -/
theorem cutsAt_fitLength {width least column : Nat} {t : Text} (hne : t ≠ [])
    (hwide : width < column + Text.width t)
    (hnone : ∀ before b after, t = before ++ b :: after → ¬ MayBreak width least column before b) :
    CutsAt width least column (t.take (max (fitLength width column t) 1))
      (t.drop (max (fitLength width column t) 1)) := by
  by_cases hzero : fitLength width column t = 0
  · obtain ⟨c, r, rfl⟩ := List.exists_cons_of_ne_nil hne
    rw [hzero]
    refine .single ?_
    have hstops := fitLength_stops (by rw [hzero]; rfl : (c :: r).drop _ = c :: r)
    rwa [hzero, List.take_zero, Text.width_nil, Nat.add_zero] at hstops
  · rw [Nat.max_eq_left (Nat.pos_of_ne_zero hzero)]
    have hcolumn : column ≤ width := by
      by_contra hover
      obtain ⟨c, r, rfl⟩ := List.exists_cons_of_ne_nil hne
      exact hzero (by rw [fitLength, if_pos (by omega)])
    have hroom := fitLength_width_le t hcolumn
    have hsplit := List.take_append_drop (fitLength width column t) t
    cases hrest : t.drop (fitLength width column t) with
    | nil =>
      rw [hrest, List.append_nil] at hsplit
      rw [hsplit] at hroom
      exact absurd hroom (Nat.not_le.mpr hwide)
    | cons c r =>
      refine .atWidth ?_ hroom (fitLength_stops hrest) fun before b after htaken => ?_
      · rw [ne_eq, List.take_eq_nil_iff, not_or]
        exact ⟨hzero, hne⟩
      · refine hnone before b (after ++ c :: r) ?_
        rw [← hsplit, hrest, htaken, List.append_assoc, List.cons_append]

/-- The cut of a text is one by the description. -/
theorem cutsAt_cutLength (width least column : Nat) {t : Text} (hne : t ≠ []) :
    CutsAt width least column (t.take (cutLength width least column t))
      (t.drop (cutLength width least column t)) := by
  unfold cutLength
  by_cases hfits : column + Text.width t ≤ width
  · rw [if_pos (fitsBehind_iff.mpr hfits), List.take_length, List.drop_length]
    exact .whole hfits
  · rw [if_neg (mt fitsBehind_iff.mp hfits)]
    cases hbreak : breakLength? width least column t with
    | some n =>
      obtain ⟨before, b, after, rfl, rfl, hmay, hlast⟩ := exists_of_breakLength?_eq_some hbreak
      have hlength : before.length + 1 = (before ++ [b]).length := by simp
      have htext : before ++ b :: after = before ++ [b] ++ after := by simp
      simp only
      rw [htext, hlength, List.take_left, List.drop_left]
      exact .atBreak (Nat.lt_of_not_le hfits) hmay hlast
    | none =>
      exact cutsAt_fitLength hne (Nat.lt_of_not_le hfits) (breakLength?_eq_none_iff.mp hbreak)

theorem exists_cutsAt (width least column : Nat) {t : Text} (hne : t ≠ []) :
    ∃ taken rest, taken ++ rest = t ∧ taken ≠ [] ∧ CutsAt width least column taken rest := by
  refine ⟨_, _, List.take_append_drop (cutLength width least column t) t, ?_,
    cutsAt_cutLength width least column hne⟩
  rw [ne_eq, List.take_eq_nil_iff, not_or]
  exact ⟨Nat.ne_of_gt (cutLength_pos hne), hne⟩

/-- There is no other cut by the description. -/
theorem cutLength_of_cutsAt {width least column : Nat} {taken rest : Text}
    (h : CutsAt width least column taken rest) :
    cutLength width least column (taken ++ rest) = taken.length := by
  have hroom : ∀ t : Text, width < column + Text.width t →
      ¬ (decide (column ≤ width) && Text.fits (width - column) t) = true :=
    fun t hwide => mt fitsBehind_iff.mp (Nat.not_le.mpr hwide)
  unfold cutLength
  cases h with
  | whole hfits => rw [List.append_nil, if_pos (fitsBehind_iff.mpr hfits)]
  | @atBreak before _ b hwide hbreak hlast =>
    have htext : before ++ [b] ++ rest = before ++ b :: rest := by simp
    rw [htext, if_neg (hroom _ hwide), breakLength?_of_last hbreak hlast, List.length_append]
    rfl
  | @atWidth _ rest c hne hfits hnext hnone =>
    have hwide : width < column + Text.width (taken ++ c :: rest) := by
      rw [Text.width_append, Text.width_cons]
      omega
    have hbreak : breakLength? width least column (taken ++ c :: rest) = none := by
      rw [breakLength?_eq_none_iff]
      intro before b after htext hbreak
      rcases cut_of_append_eq htext with ⟨z, htaken⟩ | ⟨z, rfl, hz⟩
      · exact hnone before b z htaken hbreak
      · -- Behind what is taken nothing fits.
        have hfits' := hbreak.fits
        have hcover := charWidth_le_of_cons_eq hz
        rw [Text.width_append] at hfits'
        omega
    have hstop : fitLength width (column + Text.width taken) (c :: rest) = 0 := by
      rw [fitLength, if_pos hnext]
    have hpos : 0 < taken.length := List.length_pos_iff.mpr hne
    rw [if_neg (hroom _ hwide), hbreak]
    simp only
    rw [fitLength_append hfits, hstop]
    omega
  | @single c rest hwide =>
    have hover : width < column + Text.width ([c] ++ rest) := by
      rw [List.singleton_append, Text.width_cons]
      omega
    rw [if_neg (hroom _ hover), List.singleton_append, breakLength?, if_pos hwide, fitLength,
      if_pos hwide]
    rfl

/-- A text is shown up to its first cut, and what is left is broken by itself. -/
theorem fragmentsFrom_of_cutsAt {width least : Nat} {indent shown gap taken rest : Text}
    (h : CutsAt width least (Text.width shown) taken rest) (hne : taken ≠ []) :
    fragmentsFrom width indent shown least gap (taken ++ rest) =
      ⟨gap, shown, Text.trimEnd taken⟩ ::
        fragmentsFrom width indent indent (Text.width indent)
          (blankTail taken ++ Text.indent rest) (Text.trimStart rest) := by
  have hcut := cutLength_of_cutsAt h
  obtain ⟨c, r, ht⟩ := List.exists_cons_of_ne_nil
    (fun hnil => hne (List.append_eq_nil_iff.mp hnil).1 : taken ++ rest ≠ [])
  rw [ht] at hcut
  rw [ht, fragmentsFrom, hcut, ← ht]
  simp only [List.take_left, List.drop_left]

/-- No place to break is left behind the cut that would fit. -/
theorem CutsAt.not_fits {width least column : Nat} {taken rest : Text}
    (h : CutsAt width least column taken rest) {mid after : Text} {c : Char}
    (hrest : rest = mid ++ c :: after) (hc : c ∈ breakChars) :
    width < column + Text.width taken + Text.width mid + Text.charWidth c := by
  cases h with
  | whole _ => exact absurd hrest (by simp)
  | @atBreak before _ b _ hbreak hlast =>
    by_contra hfits
    have hwidth : Text.width (before ++ b :: mid) = Text.width (before ++ [b]) + Text.width mid := by
      simp only [Text.width_append, Text.width_cons, Text.width_nil]
      omega
    have hmore : Text.width before ≤ Text.width (before ++ b :: mid) := by
      rw [Text.width_append]
      omega
    have hallowed := hbreak.allowed
    have hwindow := hbreak.inWindow
    refine hlast mid c after hrest ⟨hc, by omega, by omega, ?_⟩
    omega
  | @atWidth _ rest d _ _ hnext _ =>
    have hcover := charWidth_le_of_cons_eq hrest
    omega
  | @single d _ hwide =>
    rw [Text.width_cons, Text.width_nil]
    omega

end Wrap
end Listing
