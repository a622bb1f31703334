/-
The decimal that a number is written with reads back to the number.

A candidate is only taken if it reads back, and where none does the exact expansion is
written, which reads back because it is the number (`toBinary64_exact`).  Written with a
point and no exponent, the digits on its two sides say the same decimal
(`positional_says`).
-/
import Listing.Proofs.Number.Rounding
import Listing.Proofs.Text.Digits

namespace Listing
namespace Binary64
namespace Decimal

/-! ## The exact expansion -/

theorem two_pow_le_ten_pow {a b : Nat} (k : Nat) (ha : a ≤ 23 * k) (hb : 7 * k ≤ b) :
    2 ^ a ≤ 10 ^ b := by
  calc 2 ^ a ≤ 2 ^ (23 * k) := Nat.pow_le_pow_right (by decide) ha
    _ = (2 ^ 23) ^ k := Nat.pow_mul ..
    _ ≤ (10 ^ 7) ^ k := Nat.pow_le_pow_left (by decide) k
    _ = 10 ^ (7 * k) := (Nat.pow_mul ..).symm
    _ ≤ 10 ^ b := Nat.pow_le_pow_right (by decide) hb

/-- The exact expansion of a finite number is never taken for one out of range. -/
theorem size_exact {m : Nat} {e : Int} (hm : m ≠ 0) (hlt : m < 2 * fieldUnit)
    (hle : -1074 ≤ e) (hge : e ≤ 971) :
    -330 ≤ ((Nat.toDigits 10 (exact m e).digits).length : Int) + (exact m e).exponent ∧
      ((Nat.toDigits 10 (exact m e).digits).length : Int) + (exact m e).exponent ≤ 330 := by
  unfold exact
  rw [if_neg hm]
  simp only
  generalize hlen : (Nat.toDigits 10 (m * Nat.pow 2 e.toNat * Nat.pow 5 (-e).toNat)).length = len
  have hpos : 0 < len := hlen ▸ Nat.length_toDigits_pos
  have hiff : ∀ {k}, 0 < k → (len ≤ k ↔ m * 2 ^ e.toNat * 5 ^ (-e).toNat < 10 ^ k) :=
    fun hk => hlen ▸ Nat.length_toDigits_le_iff (by decide) hk
  rcases Int.lt_or_le e 0 with hneg | hnonneg
  · have hnum : e.toNat = 0 := by omega
    generalize hk : (-e).toNat = k at hiff
    rw [hnum, Nat.pow_zero, Nat.mul_one] at hiff
    have hten : 10 ^ k = 5 ^ k * 2 ^ k := by rw [← Nat.mul_pow]
    have hshort : len ≤ 21 + k := by
      refine (hiff (by omega)).mpr ?_
      calc m * 5 ^ k < 2 ^ 53 * 5 ^ k :=
            Nat.mul_lt_mul_of_pos_right hlt (Nat.pow_pos (by decide))
        _ ≤ 10 ^ 21 * 10 ^ k :=
            Nat.mul_le_mul (two_pow_le_ten_pow 3 (by decide) (by decide))
              (Nat.pow_le_pow_left (by decide) k)
        _ = 10 ^ (21 + k) := (Nat.pow_add ..).symm
    have hlong : ∀ excess, k = len + excess → excess ≤ 330 := by
      intro excess hexcess
      refine Nat.le_of_not_lt fun hlarge => ?_
      have hdigits : m * 5 ^ k < 10 ^ len := (hiff hpos).mp (Nat.le_refl _)
      have hfive : 5 ^ k * 10 ^ excess < 5 ^ k * 2 ^ k := by
        calc 5 ^ k * 10 ^ excess ≤ m * 5 ^ k * 10 ^ excess :=
              Nat.mul_le_mul_right _ (Nat.le_mul_of_pos_left _ (Nat.pos_of_ne_zero hm))
          _ < 10 ^ len * 10 ^ excess :=
              Nat.mul_lt_mul_of_pos_right hdigits (Nat.pow_pos (by decide))
          _ = 10 ^ k := by rw [hexcess, Nat.pow_add]
          _ = 5 ^ k * 2 ^ k := hten
      have hpow : 2 ^ k ≤ 10 ^ excess := two_pow_le_ten_pow 47 (by omega) (by omega)
      exact absurd (Nat.lt_of_mul_lt_mul_left hfive) (Nat.not_lt.mpr hpow)
    have := hlong (k - len)
    omega
  · have hden : (-e).toNat = 0 := by omega
    rw [hden, Nat.pow_zero, Nat.mul_one] at hiff
    have hshort : len ≤ 330 := by
      refine (hiff (by omega)).mpr ?_
      calc m * 2 ^ e.toNat < 2 ^ 53 * 2 ^ e.toNat :=
            Nat.mul_lt_mul_of_pos_right hlt (Nat.two_pow_pos _)
        _ = 2 ^ (53 + e.toNat) := (Nat.pow_add ..).symm
        _ ≤ 10 ^ 330 := two_pow_le_ten_pow 45 (by omega) (by decide)
    omega

theorem toBinary64_exact {x : Binary64} {negative : Bool} {m : Nat} {e : Int}
    (h : x.value = .finite negative m e) : (exact m e).toBinary64 negative = x := by
  obtain ⟨hle, hge, hlt, hnormal, hx⟩ := value_eq_finite h
  by_cases hm : m = 0
  · subst hm
    rw [toBinary64, exact, if_pos rfl, ofDecimal_zero, ← ofRatio_value h, Nat.zero_mul, ofRatio,
      if_pos rfl]
  · obtain ⟨hlow, hhigh⟩ := size_exact hm hlt hle hge
    have hpow : ∀ b k : Nat, 0 < b → b ^ k ≠ 0 := fun b k hb => Nat.ne_of_gt (Nat.pow_pos hb)
    have hdigits : (exact m e).digits = m * 2 ^ e.toNat * 5 ^ (-e).toNat := by
      rw [exact, if_neg hm]
      rfl
    have hexponent : (exact m e).exponent = min e 0 := by rw [exact, if_neg hm]
    have hzero : (exact m e).digits ≠ 0 := by
      rw [hdigits]
      exact Nat.mul_ne_zero (Nat.mul_ne_zero hm (hpow 2 _ (by decide))) (hpow 5 _ (by decide))
    have hratio : ofRatio negative ((exact m e).digits * 10 ^ (exact m e).exponent.toNat)
        (10 ^ (-(exact m e).exponent).toNat) = x := by
      have hnum : (min e 0).toNat = 0 := by omega
      have hden : (-min e 0).toNat = (-e).toNat := by omega
      have hten : 10 ^ (-e).toNat = 2 ^ (-e).toNat * 5 ^ (-e).toNat := by rw [← Nat.mul_pow]
      rw [hexponent, hdigits, hnum, hden, Nat.pow_zero, Nat.mul_one, hten,
        ofRatio_mul negative _ (hpow 2 _ (by decide)) (Nat.pow_pos (by decide))]
      exact ofRatio_value h
    unfold toBinary64 ofDecimal
    simp only [hzero, decide_false, Bool.false_or, decide_eq_true_eq]
    rw [if_neg (by omega), if_neg (by omega)]
    exact hratio

/-! ## The shortest decimal -/

theorem toBinary64_of_candidate? {tie : Tie} {negative : Bool} {x : Binary64} {d c : Decimal}
    {n : Nat} (h : candidate? tie negative x d n = some c) : c.toBinary64 negative = x := by
  have hpick : ∀ first second : Decimal,
      (if first.toBinary64 negative = x then some first
        else if second.toBinary64 negative = x then some second else none) = some c →
      c.toBinary64 negative = x := by
    intro first second h
    split at h
    · rename_i hfirst
      exact Option.some.inj h ▸ hfirst
    · split at h
      · rename_i hsecond
        exact Option.some.inj h ▸ hsecond
      · exact absurd h (by simp)
  exact hpick _ _ h

theorem toBinary64_stripFrom (negative : Bool) (fuel : Nat) (d : Decimal) :
    (stripFrom fuel d).toBinary64 negative = d.toBinary64 negative := by
  induction fuel generalizing d with
  | zero => rfl
  | succ fuel ih =>
    rw [stripFrom]
    split
    · rename_i h
      rw [Bool.and_eq_true, bne_iff_ne, beq_iff_eq] at h
      have hten : d.digits / 10 * 10 = d.digits := by omega
      rw [ih, toBinary64, toBinary64, ← ofDecimal_mul_ten, hten]
    · rfl

theorem toBinary64_shortest (tie : Tie) {x : Binary64} {negative : Bool} {m : Nat} {e : Int}
    (h : x.value = .finite negative m e) :
    (shortest tie x negative m e).toBinary64 negative = x := by
  unfold shortest strip
  rw [toBinary64_stripFrom]
  cases hfind : (List.range' 1 17).findSome? (candidate? tie negative x (exact m e)) with
  | none => exact toBinary64_exact h
  | some c =>
    obtain ⟨n, -, hcandidate⟩ := List.exists_of_findSome?_eq_some hfind
    exact toBinary64_of_candidate? hcandidate

theorem shortest_zero (tie : Tie) {x : Binary64} {negative : Bool} {e : Int}
    (h : x.value = .finite negative 0 e) : shortest tie x negative 0 e = ⟨0, 0⟩ := by
  have hx : (⟨0, 0⟩ : Decimal).toBinary64 negative = x := toBinary64_exact h
  have hfirst : candidate? tie negative x ⟨0, 0⟩ 1 = some ⟨0, 0⟩ := by
    have hcut : cut tie ⟨0, 0⟩ 1 = (⟨0, 0⟩, false) := by
      cases tie
      · rfl
      · rfl
    unfold candidate?
    rw [hcut]
    exact if_pos hx
  have hfind : (List.range' 1 17).findSome? (candidate? tie negative x ⟨0, 0⟩) =
      some ⟨0, 0⟩ := by
    rw [List.range', List.findSome?_cons, hfirst]
  show (((List.range' 1 17).findSome? (candidate? tie negative x ⟨0, 0⟩)).getD ⟨0, 0⟩).strip = _
  rw [hfind]
  rfl

/-- A zero has no exponent. -/
theorem exponent_shortest {tie : Tie} {x : Binary64} {negative : Bool} {m : Nat} {e : Int}
    (h : x.value = .finite negative m e) (hzero : (shortest tie x negative m e).digits = 0) :
    (shortest tie x negative m e).exponent = 0 := by
  have hm : m = 0 := by
    have hx := toBinary64_shortest tie h
    rw [toBinary64, hzero, ofDecimal_zero] at hx
    subst hx
    cases negative
    · exact (Value.finite.inj h).2.1.symm
    · exact (Value.finite.inj h).2.1.symm
  subst hm
  rw [shortest_zero tie h]

/-! ## Digits on both sides of a point -/

/-- Digits in front of a point and after it that say a decimal. -/
structure Says (d : Decimal) (whole part : Text) : Prop where
  whole_digits : ∀ c ∈ whole, c.isDigit = true
  part_digits : ∀ c ∈ part, c.isDigit = true
  whole_ne_nil : whole ≠ []
  part_ne_nil : part ≠ []
  plain : whole.head? = some '0' → whole.length = 1
  value : ∀ negative,
    ofDecimal negative (Text.digitValue (whole ++ part)) (-part.length) = d.toBinary64 negative

theorem isDigit_of_mem_zeros {n : Nat} {c : Char} (h : c ∈ List.replicate n '0') :
    c.isDigit = true := by
  rw [List.eq_of_mem_replicate h]
  rfl

/-- All digits stand after the point, behind as many zeros as it takes. -/
theorem says_below (d : Decimal) {zeros : Nat}
    (h : (zeros : Int) + (Text.ofNat d.digits).length = -d.exponent) :
    d.Says ['0'] (List.replicate zeros '0' ++ Text.ofNat d.digits) where
  whole_digits := by simp
  part_digits := by
    intro c hc
    rcases List.mem_append.mp hc with hc | hc
    · exact isDigit_of_mem_zeros hc
    · exact Text.isDigit_of_mem_ofNat hc
  whole_ne_nil := by simp
  part_ne_nil := by simp [Text.ofNat_ne_nil]
  plain := fun _ => rfl
  value := by
    intro negative
    have hvalue : Text.digitValue (['0'] ++ (List.replicate zeros '0' ++ Text.ofNat d.digits)) =
        d.digits := by
      rw [Text.digitValue_append, Text.digitValue_append, Text.digitValue_zeros,
        Text.digitValue_ofNat]
      simp [Text.digitValue]
    have hexponent : -((List.replicate zeros '0' ++ Text.ofNat d.digits).length : Int) =
        d.exponent := by
      rw [List.length_append, List.length_replicate]
      omega
    rw [hvalue, hexponent, toBinary64]

/-- The point stands between two digits. -/
theorem says_between (d : Decimal) {point : Nat} (hpos : 0 < point)
    (hlt : point < (Text.ofNat d.digits).length)
    (h : (point : Int) - (Text.ofNat d.digits).length = d.exponent) :
    d.Says ((Text.ofNat d.digits).take point) ((Text.ofNat d.digits).drop point) where
  whole_digits := fun c hc => Text.isDigit_of_mem_ofNat (List.mem_of_mem_take hc)
  part_digits := fun c hc => Text.isDigit_of_mem_ofNat (List.mem_of_mem_drop hc)
  whole_ne_nil := by
    rw [← List.length_pos_iff, List.length_take]
    omega
  part_ne_nil := by
    rw [← List.length_pos_iff, List.length_drop]
    omega
  plain := by
    intro hhead
    rw [List.head?_take, if_neg (Nat.ne_of_gt hpos)] at hhead
    -- More than one digit, so the number is not zero.
    have hnonzero : d.digits ≠ 0 := by
      intro hzero
      rw [hzero] at hlt
      exact absurd hlt (Nat.not_lt.mpr hpos)
    exact absurd hhead (Text.head?_ofNat hnonzero)
  value := by
    intro negative
    rw [List.take_append_drop, Text.digitValue_ofNat, List.length_drop, toBinary64]
    congr 1
    omega

/-- The point stands after all digits and some zeros. -/
theorem says_above (d : Decimal) (hzero : d.digits = 0 → d.exponent = 0) (zeros : Nat)
    (h : (zeros : Int) = d.exponent) :
    d.Says (Text.ofNat d.digits ++ List.replicate zeros '0') ['0'] where
  whole_digits := by
    intro c hc
    rcases List.mem_append.mp hc with hc | hc
    · exact Text.isDigit_of_mem_ofNat hc
    · exact isDigit_of_mem_zeros hc
  part_digits := by simp
  whole_ne_nil := by simp [Text.ofNat_ne_nil]
  part_ne_nil := by simp
  plain := by
    intro hhead
    by_cases hdigits : d.digits = 0
    · have hnone : zeros = 0 := by
        have := hzero hdigits
        omega
      rw [hdigits, hnone]
      rfl
    · rw [List.head?_append] at hhead
      obtain ⟨c, r, hcons⟩ := List.exists_cons_of_ne_nil (Text.ofNat_ne_nil d.digits)
      have hne := Text.head?_ofNat hdigits
      rw [hcons] at hhead hne
      exact absurd hhead hne
  value := by
    intro negative
    have hvalue : Text.digitValue (Text.ofNat d.digits ++ List.replicate zeros '0' ++ ['0']) =
        d.digits * 10 ^ (zeros + 1) := by
      rw [Text.digitValue_append, Text.digitValue_append, Text.digitValue_zeros,
        Text.digitValue_ofNat, List.length_replicate, Nat.pow_succ]
      simp [Text.digitValue, Nat.mul_assoc]
    rw [hvalue, ofDecimal_mul_pow, toBinary64]
    congr 1
    simp only [List.length_singleton]
    omega

theorem positional_says (d : Decimal) (hzero : d.digits = 0 → d.exponent = 0) :
    ∃ whole part, d.positional = whole ++ '.' :: part ∧ d.Says whole part := by
  generalize hpoint : ((Text.ofNat d.digits).length : Int) + d.exponent = point
  have hlayout : d.layout = (Text.ofNat d.digits, point) := by rw [layout, hpoint]
  unfold positional
  rw [hlayout]
  simp only
  split
  · exact ⟨['0'], List.replicate (-point).toNat '0' ++ Text.ofNat d.digits, rfl,
      d.says_below (by omega)⟩
  · by_cases hbetween : point.toNat < (Text.ofNat d.digits).length
    · refine ⟨_, _, ?_, d.says_between (by omega) hbetween (by omega)⟩
      have hnone : point.toNat - (Text.ofNat d.digits).length = 0 := by omega
      have hpart : ((Text.ofNat d.digits).drop point.toNat).isEmpty = false := by
        rw [List.isEmpty_eq_false_iff, ← List.length_pos_iff, List.length_drop]
        omega
      rw [hnone, hpart]
      simp
    · refine ⟨_, _, ?_, d.says_above hzero (point.toNat - (Text.ofNat d.digits).length)
        (by omega)⟩
      rw [List.take_of_length_le (by omega), List.drop_of_length_le (by omega)]
      rfl

end Decimal
end Binary64
end Listing
