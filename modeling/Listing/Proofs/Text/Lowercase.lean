/-
Lower case is stable.

No small letter of the table is a capital of it (`find?_smallLetter`), so writing a
text in lower case once is enough.  And white space is neither made nor changed, nor
does it count for the sigma at the end of a word.  So a name has one canonical form,
whether it is trimmed or written in lower case first (`canonical_lowercase`).
-/
import Listing.Proofs.Text.Blank
import Listing.Text.Lowercase

namespace Listing
namespace Text

/-! ## The table

Everything that is asked of the tables is that some of their ranges do not meet, which
is settled by comparing the ends of each with the ends of each other. -/

/-- No range of one set meets a range of the other. -/
def Ranges.apart (ranges others : Ranges) : Bool :=
  ranges.all fun r => others.all fun s => Nat.blt r.2 s.1 || Nat.blt s.2 r.1

theorem Ranges.has_eq_false_of_apart {ranges others : Ranges} (h : ranges.apart others = true)
    {c : Char} (hc : ranges.has c = true) : others.has c = false := by
  obtain ⟨r, hr, hrange⟩ := List.any_eq_true.mp hc
  refine List.any_eq_false.mpr ?_
  intro s hs
  have hapart := List.all_eq_true.mp (List.all_eq_true.mp h r hr) s hs
  simp only [Bool.or_eq_true, Nat.blt_eq] at hapart
  simp only [Bool.and_eq_true, decide_eq_true_eq] at hrange ⊢
  omega

def blanks : Ranges :=
  [(0x9, 0xD), (0x20, 0x20), (0x85, 0x85), (0xA0, 0xA0), (0x1680, 0x1680), (0x2000, 0x200A),
    (0x2028, 0x2029), (0x202F, 0x202F), (0x205F, 0x205F), (0x3000, 0x3000)]

theorem has_blanks (c : Char) : blanks.has c = isBlank c := by
  rw [Bool.eq_iff_iff]
  simp only [blanks, Ranges.has, isBlank, List.any_cons, List.any_nil, Bool.or_eq_true,
    Bool.and_eq_true, decide_eq_true_eq, beq_iff_eq, Bool.or_false]
  omega

/-- The first and the last small letter of a run. -/
def CaseRun.image (run : CaseRun) : Nat × Nat :=
  ((run.first + run.offset).toNat, (run.last + run.offset).toNat)

/-- The small letters of one run are not among the capitals of the other: they lie
before or behind them, or in the gaps between them. -/
def CaseRun.apart (run other : CaseRun) : Bool :=
  Nat.blt other.last run.image.1 || Nat.blt run.image.2 other.first ||
    (Nat.beq other.step 2 && (Nat.beq run.step 2 || Nat.beq run.first run.last) &&
      Nat.beq ((run.image.1 + other.first) % 2) 1)

/-- The small letters of a run are characters. -/
def CaseRun.maps (run : CaseRun) : Bool :=
  decide (0 ≤ run.first + run.offset) &&
    (decide (run.image.2 < 0xD800) ||
      decide (0xDFFF < run.image.1) && decide (run.image.2 < 0x110000))

theorem apart_of_mem {run other : CaseRun} (hrun : run ∈ caseRuns) (hother : other ∈ caseRuns) :
    run.apart other = true := by
  have hall : (caseRuns.all fun r => caseRuns.all fun s => r.apart s) = true := by decide +kernel
  exact List.all_eq_true.mp (List.all_eq_true.mp hall run hrun) other hother

theorem maps_of_mem {run : CaseRun} (hrun : run ∈ caseRuns) : run.maps = true := by
  have hall : caseRuns.all CaseRun.maps = true := by decide +kernel
  exact List.all_eq_true.mp hall run hrun

def capitals : Ranges := caseRuns.map fun run => (run.first, run.last)

def smallLetters : Ranges := caseRuns.map CaseRun.image

theorem has_capitals_of_mem {run : CaseRun} (hrun : run ∈ caseRuns) {c : Char}
    (hc : run.has c = true) : capitals.has c = true := by
  refine List.any_eq_true.mpr ⟨(run.first, run.last), List.mem_map.mpr ⟨run, hrun, rfl⟩, ?_⟩
  simp only [CaseRun.has, Bool.and_eq_true] at hc ⊢
  exact hc.1

/-! ## Small letters -/

theorem toNat_ofNat {n : Nat} (h : n.isValidChar) : (Char.ofNat n).toNat = n := by
  rw [Char.ofNat, dif_pos h]
  rfl

theorem smallLetter_cases (c : Char) :
    (∀ run ∈ caseRuns, run.has c = false) ∧ smallLetter c = c ∨
      ∃ run ∈ caseRuns, run.has c = true ∧
        (smallLetter c).toNat = (c.toNat + run.offset).toNat := by
  unfold smallLetter
  cases hfind : caseRuns.find? (·.has c) with
  | none =>
    refine .inl ⟨?_, rfl⟩
    intro run hrun
    simpa using List.find?_eq_none.mp hfind run hrun
  | some run =>
    have hrun := List.mem_of_find?_eq_some hfind
    have hhas : run.has c = true := by simpa using List.find?_some hfind
    have hmaps := maps_of_mem hrun
    refine .inr ⟨run, hrun, hhas, ?_⟩
    simp only [CaseRun.maps, Bool.and_eq_true, Bool.or_eq_true, decide_eq_true_eq] at hmaps
    simp only [CaseRun.image] at hmaps
    simp only [CaseRun.has, Bool.and_eq_true, decide_eq_true_eq] at hhas
    refine toNat_ofNat ?_
    unfold Nat.isValidChar
    omega

/-- A small letter is no capital. -/
theorem has_smallLetter (c : Char) {run : CaseRun} (hrun : run ∈ caseRuns) :
    run.has (smallLetter c) = false := by
  obtain ⟨hnone, hsmall⟩ | ⟨own, hown, hhas, hsmall⟩ := smallLetter_cases c
  · rw [hsmall]
    exact hnone run hrun
  · have hapart := apart_of_mem hown hrun
    have hmaps := maps_of_mem hown
    rw [Bool.eq_false_iff]
    intro hrunHas
    simp only [CaseRun.has, Bool.and_eq_true, decide_eq_true_eq, beq_iff_eq, hsmall]
      at hhas hrunHas
    simp only [CaseRun.maps, Bool.and_eq_true, decide_eq_true_eq] at hmaps
    simp only [CaseRun.apart, CaseRun.image, Bool.or_eq_true, Bool.and_eq_true, Nat.blt_eq,
      Nat.beq_eq] at hapart
    obtain (hbefore | hbehind) | ⟨⟨htwo, hgaps⟩, hodd⟩ := hapart
    · omega
    · omega
    · rw [htwo] at hrunHas
      rcases hgaps with hgaps | hgaps
      · rw [hgaps] at hhas
        omega
      · omega

theorem find?_smallLetter (c : Char) : caseRuns.find? (·.has (smallLetter c)) = none := by
  refine List.find?_eq_none.mpr ?_
  intro run hrun
  rw [has_smallLetter c hrun]
  exact Bool.false_ne_true

theorem has_smallLetters {run : CaseRun} (hrun : run ∈ caseRuns) {c d : Char}
    (hc : run.has c = true) (hd : d.toNat = (c.toNat + run.offset).toNat) :
    smallLetters.has d = true := by
  refine List.any_eq_true.mpr ⟨run.image, List.mem_map.mpr ⟨run, hrun, rfl⟩, ?_⟩
  simp only [CaseRun.has, Bool.and_eq_true, decide_eq_true_eq] at hc
  simp only [Bool.and_eq_true, decide_eq_true_eq]
  simp only [CaseRun.image]
  omega

theorem isBlank_smallLetter (c : Char) : isBlank (smallLetter c) = isBlank c := by
  obtain ⟨-, hsmall⟩ | ⟨run, hrun, hhas, hsmall⟩ := smallLetter_cases c
  · rw [hsmall]
  · have hcapital : isBlank c = false := by
      have hapart : capitals.apart blanks = true := by decide +kernel
      rw [← has_blanks]
      exact Ranges.has_eq_false_of_apart hapart (has_capitals_of_mem hrun hhas)
    have hletter : isBlank (smallLetter c) = false := by
      have hapart : smallLetters.apart blanks = true := by decide +kernel
      rw [← has_blanks]
      exact Ranges.has_eq_false_of_apart hapart (has_smallLetters hrun hhas hsmall)
    rw [hcapital, hletter]

/-- A character that lower case leaves as it is, wherever it stands. -/
structure IsSmall (c : Char) : Prop where
  smallLetter : smallLetter c = c
  ne_sigma : c ≠ 'Σ'
  ne_dotted : c ≠ 'İ'

theorem isSmall_of_find? {c : Char} (hfind : caseRuns.find? (·.has c) = none) (hdotted : c ≠ 'İ') :
    IsSmall c := by
  refine ⟨?_, ?_, hdotted⟩
  · rw [Text.smallLetter, hfind]
  · rintro rfl
    exact absurd hfind (by decide)

theorem isSmall_smallLetter {c : Char} (h : c ≠ 'İ') : IsSmall (smallLetter c) := by
  refine isSmall_of_find? (find?_smallLetter c) ?_
  obtain ⟨-, hsmall⟩ | ⟨run, hrun, hhas, hsmall⟩ := smallLetter_cases c
  · rw [hsmall]
    exact h
  · intro hdotted
    have hapart : smallLetters.apart [(0x130, 0x130)] = true := by decide +kernel
    have hletter := Ranges.has_eq_false_of_apart hapart (has_smallLetters hrun hhas hsmall)
    rw [hdotted] at hletter
    exact absurd hletter (by decide)

theorem isSmall_of_isBlank {c : Char} (h : isBlank c = true) : IsSmall c := by
  have hapart : blanks.apart capitals = true := by decide +kernel
  have hcapital := Ranges.has_eq_false_of_apart hapart (by rw [has_blanks]; exact h)
  obtain ⟨hnone, hsmall⟩ | ⟨run, hrun, hhas, -⟩ := smallLetter_cases c
  · refine ⟨hsmall, ?_, ?_⟩
    · rintro rfl
      exact absurd h (by decide)
    · rintro rfl
      exact absurd h (by decide)
  · rw [has_capitals_of_mem hrun hhas] at hcapital
    exact absurd hcapital (by decide)

/-! ## Lower case twice -/

theorem isSmall_of_mem_lowercaseAt {before after : Text} {c d : Char}
    (h : d ∈ lowercaseAt before c after) : IsSmall d := by
  unfold lowercaseAt at h
  split at h
  · obtain rfl := List.mem_singleton.mp h
    split
    · exact isSmall_of_find? (by decide +kernel) (by decide)
    · exact isSmall_of_find? (by decide +kernel) (by decide)
  · split at h
    · simp only [List.mem_cons, List.not_mem_nil, or_false] at h
      rcases h with rfl | rfl
      · exact isSmall_of_find? (by decide +kernel) (by decide)
      · exact isSmall_of_find? (by decide +kernel) (by decide)
    · rename_i hdotted
      obtain rfl := List.mem_singleton.mp h
      exact isSmall_smallLetter hdotted

theorem isSmall_of_mem_lowercaseAfter {before t : Text} {c : Char}
    (h : c ∈ lowercaseAfter before t) : IsSmall c := by
  induction t generalizing before with
  | nil => exact absurd h List.not_mem_nil
  | cons d r ih =>
    rw [lowercaseAfter] at h
    rcases List.mem_append.mp h with h | h
    · exact isSmall_of_mem_lowercaseAt h
    · exact ih h

theorem lowercaseAt_of_isSmall {c : Char} (h : IsSmall c) (before after : Text) :
    lowercaseAt before c after = [c] := by
  rw [lowercaseAt, if_neg h.ne_sigma, if_neg h.ne_dotted, h.smallLetter]

theorem lowercaseAfter_of_isSmall {t : Text} (h : ∀ c ∈ t, IsSmall c) (before : Text) :
    lowercaseAfter before t = t := by
  induction t generalizing before with
  | nil => rfl
  | cons c r ih =>
    rw [lowercaseAfter, lowercaseAt_of_isSmall (h c List.mem_cons_self),
      ih fun d hd => h d (List.mem_cons_of_mem _ hd)]
    rfl

@[simp] theorem lowercase_lowercase (t : Text) : lowercase (lowercase t) = lowercase t :=
  lowercaseAfter_of_isSmall (fun _ hc => isSmall_of_mem_lowercaseAfter hc) []

/-! ## White space -/

/-- White space is neither cased nor passed over in the search for a cased letter, so
past it there is nothing that counts. -/
theorem meetsCased_append {t blank : Text} (h : allBlank blank = true) :
    meetsCased (t ++ blank) = meetsCased t := by
  have hapart : blanks.apart (cased ++ caseIgnorable) = true := by decide +kernel
  induction t with
  | nil =>
    cases blank with
    | nil => rfl
    | cons c r =>
      have hc : isBlank c = true := isBlank_of_allBlank h List.mem_cons_self
      have hnone := Ranges.has_eq_false_of_apart hapart (by rw [has_blanks]; exact hc)
      rw [Ranges.has, List.any_append, Bool.or_eq_false_iff] at hnone
      have hcased : cased.has c = false := hnone.1
      have hignorable : caseIgnorable.has c = false := hnone.2
      simp [meetsCased, hcased, hignorable]
  | cons c r ih =>
    unfold meetsCased at ih ⊢
    by_cases hc : caseIgnorable.has c = true
    · rw [List.cons_append, List.dropWhile_cons_of_pos hc, List.dropWhile_cons_of_pos hc]
      exact ih
    · rw [List.cons_append, List.dropWhile_cons_of_neg hc, List.dropWhile_cons_of_neg hc]

theorem lowercaseAfter_blank_before {blank : Text} (h : allBlank blank = true) (before t : Text) :
    lowercaseAfter (before ++ blank) t = lowercaseAfter before t := by
  induction t generalizing before with
  | nil => rfl
  | cons c r ih =>
    rw [lowercaseAfter, lowercaseAfter, ← List.cons_append, ih (c :: before)]
    unfold lowercaseAt
    rw [meetsCased_append h]

theorem lowercaseAfter_append_blank {blank : Text} (h : allBlank blank = true) (before t : Text) :
    lowercaseAfter before (t ++ blank) = lowercaseAfter before t ++ blank := by
  induction t generalizing before with
  | nil =>
    exact lowercaseAfter_of_isSmall (fun c hc => isSmall_of_isBlank (isBlank_of_allBlank h hc)) _
  | cons c r ih =>
    rw [List.cons_append, lowercaseAfter, lowercaseAfter, ih (c :: before), List.append_assoc]
    unfold lowercaseAt
    rw [meetsCased_append h]

theorem isBlank_of_mem_lowercaseAt {before after : Text} {c d : Char}
    (hc : isBlank c = false) (h : d ∈ lowercaseAt before c after) : isBlank d = false := by
  unfold lowercaseAt at h
  split at h
  · obtain rfl := List.mem_singleton.mp h
    split <;> decide
  · split at h
    · simp only [List.mem_cons, List.not_mem_nil, or_false] at h
      rcases h with rfl | rfl <;> decide
    · obtain rfl := List.mem_singleton.mp h
      rw [isBlank_smallLetter, hc]

theorem lowercaseAt_ne_nil (before : Text) (c : Char) (after : Text) :
    lowercaseAt before c after ≠ [] := by
  unfold lowercaseAt
  split
  · simp
  · split <;> simp

theorem lowercase_ne_nil {t : Text} (h : t ≠ []) : lowercase t ≠ [] := by
  obtain ⟨c, r, rfl⟩ := List.exists_cons_of_ne_nil h
  intro hnil
  exact lowercaseAt_ne_nil [] c r (List.append_eq_nil_iff.mp hnil).1

theorem trimStart_lowercaseAfter (before t : Text) :
    trimStart (lowercaseAfter before t) =
      lowercaseAfter ((indent t).reverse ++ before) (trimStart t) := by
  induction t generalizing before with
  | nil => rfl
  | cons c r ih =>
    by_cases hc : isBlank c = true
    · have hindent : indent (c :: r) = c :: indent r := List.takeWhile_cons_of_pos hc
      have htrim : trimStart (c :: r) = trimStart r := List.dropWhile_cons_of_pos hc
      rw [lowercaseAfter, lowercaseAt_of_isSmall (isSmall_of_isBlank hc), hindent, htrim,
        List.reverse_cons, List.append_assoc]
      simp only [List.singleton_append]
      rw [← ih (c :: before)]
      exact List.dropWhile_cons_of_pos hc
    · have hink : isBlank c = false := Bool.eq_false_iff.mpr hc
      have hindent : indent (c :: r) = [] := List.takeWhile_cons_of_neg hc
      have htrim : trimStart (c :: r) = c :: r := List.dropWhile_cons_of_neg hc
      have hlower : indent (lowercaseAt before c r) = [] :=
        indent_of_forall_not_blank fun d hd => isBlank_of_mem_lowercaseAt hink hd
      rw [hindent, htrim, List.reverse_nil, List.nil_append, lowercaseAfter]
      exact indent_eq_nil_iff.mp
        (indent_append_of_ne_nil hlower (lowercaseAt_ne_nil before c r) _)

/-- Lower case ends with the lower case of the last character. -/
theorem exists_lowercaseAfter_concat (before t : Text) (c : Char) :
    ∃ a, lowercaseAfter before (t ++ [c]) = a ++ lowercaseAt (t.reverse ++ before) c [] := by
  induction t generalizing before with
  | nil => exact ⟨[], by rw [List.nil_append, lowercaseAfter, lowercaseAfter, List.append_nil]; rfl⟩
  | cons d r ih =>
    obtain ⟨a, ha⟩ := ih (d :: before)
    refine ⟨lowercaseAt before d (r ++ [c]) ++ a, ?_⟩
    rw [List.cons_append, lowercaseAfter, ha, List.append_assoc, List.reverse_cons,
      List.append_assoc, List.singleton_append]

theorem trimEnd_lowercaseAfter (before t : Text) :
    trimEnd (lowercaseAfter before t) = lowercaseAfter before (trimEnd t) := by
  have htail : allBlank (t.reverse.takeWhile isBlank).reverse = true := by
    rw [allBlank, List.all_reverse]
    exact List.all_takeWhile
  have hend : indent (trimEnd t).reverse = [] := by
    rw [trimEnd, List.reverse_reverse]
    exact indent_trimStart _
  conv => lhs; rw [← trimEnd_append_tail t]
  rw [lowercaseAfter_append_blank htail, trimEnd_append_blank htail]
  rcases List.eq_nil_or_concat (trimEnd t) with hnil | ⟨r, c, hconcat⟩
  · rw [hnil]
    rfl
  · rw [hconcat, List.concat_eq_append] at hend ⊢
    rw [List.reverse_append, List.reverse_singleton, List.singleton_append] at hend
    have hc : isBlank c = false := head_trimStart_not_blank (indent_eq_nil_iff.mp hend)
    obtain ⟨a, ha⟩ := exists_lowercaseAfter_concat before r c
    rw [ha]
    refine trimEnd_eq_self ?_
    rw [List.reverse_append]
    refine indent_append_of_ne_nil (indent_of_forall_not_blank fun d hd => ?_) ?_ _
    · exact isBlank_of_mem_lowercaseAt hc (List.mem_reverse.mp hd)
    · simpa using lowercaseAt_ne_nil _ c []

theorem trim_lowercase (t : Text) : trim (lowercase t) = lowercase (trim t) := by
  have hindent : allBlank (indent t).reverse = true := by
    rw [allBlank, List.all_reverse]
    exact allBlank_indent t
  rw [trim, lowercase, trimStart_lowercaseAfter, trimEnd_lowercaseAfter, List.append_nil]
  exact lowercaseAfter_blank_before hindent [] _

/-! ## Characters -/

/-- The characters that lower case can put in the place of others. -/
def madeByCase : Ranges := smallLetters ++ [(0x69, 0x69), (0x307, 0x307), (0x3C2, 0x3C3)]

theorem eq_of_mem_lowercaseAt {before after : Text} {c d : Char} (hd : madeByCase.has d = false)
    (h : d ∈ lowercaseAt before c after) : d = c := by
  unfold madeByCase Ranges.has at hd
  rw [List.any_append, Bool.or_eq_false_iff] at hd
  unfold lowercaseAt at h
  split at h
  · obtain rfl := List.mem_singleton.mp h
    split at hd <;> exact absurd hd.2 (by decide)
  · split at h
    · simp only [List.mem_cons, List.not_mem_nil, or_false] at h
      rcases h with rfl | rfl <;> exact absurd hd.2 (by decide)
    · obtain rfl := List.mem_singleton.mp h
      obtain ⟨-, hsmall⟩ | ⟨run, hrun, hhas, hsmall⟩ := smallLetter_cases c
      · exact hsmall
      · have hletter : smallLetters.has (smallLetter c) = true := has_smallLetters hrun hhas hsmall
        exact absurd (hletter.symm.trans hd.1) (by decide)

/-- What lower case does not make was there before. -/
theorem mem_of_mem_lowercase {t : Text} {d : Char} (hd : madeByCase.has d = false)
    (h : d ∈ lowercase t) : d ∈ t := by
  unfold lowercase at h
  generalize ([] : Text) = before at h
  induction t generalizing before with
  | nil => exact h
  | cons c r ih =>
    rw [lowercaseAfter] at h
    rcases List.mem_append.mp h with h | h
    · exact eq_of_mem_lowercaseAt hd h ▸ List.mem_cons_self
    · exact List.mem_cons_of_mem _ (ih (c :: before) h)

theorem canonical_trim (t : Text) : canonical (trim t) = canonical t := by
  rw [canonical, trim_trim, canonical]

/-- A name in lower case has the canonical form of the name. -/
theorem canonical_lowercase (t : Text) : canonical (lowercase t) = canonical t := by
  rw [canonical, trim_lowercase, lowercase_lowercase, canonical]

/-! ## Letters A to Z -/

theorem toLower_toLower (c : Char) : c.toLower.toLower = c.toLower := by
  by_cases hc : c.val ≥ 'A'.val ∧ c.val ≤ 'Z'.val
  · have hval : c.toLower.val = c.val + 32 := by
      unfold Char.toLower
      rw [dif_pos hc]
      rfl
    have hlt : 'Z'.val < c.toLower.val := by
      rw [hval]
      have h65 := UInt32.le_iff_toNat_le.mp hc.1
      have h90 := UInt32.le_iff_toNat_le.mp hc.2
      rw [UInt32.lt_iff_toNat_lt, UInt32.toNat_add]
      simp only [Char.reduceVal, UInt32.reduceToNat] at h65 h90 ⊢
      omega
    exact dif_neg fun h => absurd h.2 (UInt32.not_le.mpr hlt)
  · have hself : c.toLower = c := dif_neg hc
    rw [hself, hself]

theorem asciiLowercase_asciiLowercase (t : Text) :
    asciiLowercase (asciiLowercase t) = asciiLowercase t := by
  unfold asciiLowercase
  rw [List.map_map]
  exact List.map_congr_left fun c _ => toLower_toLower c

end Text
end Listing
