/-
Rounding depends on the value of a fraction and not on how it is written.

The exponent that a fraction is rounded at is the one at which its mantissa has 53
binary digits, or the least one (`IsExponent`), and there is only one such exponent.
So cancelling a fraction changes nothing (`ofRatio_mul`), a number is what its own value
is rounded to (`ofRatio_value`), and a zero may move between the digits of a decimal and
its exponent (`ofDecimal_mul_pow`).
-/
import Listing.Number.Decimal
import Mathlib.Tactic.Ring

namespace Listing
namespace Binary64

/-- The least exponent of a mantissa, without its sign. -/
def lowest : Nat := 1074

/-- The fraction has 53 binary digits in front of the point when it is divided by
`2 ^ (e - lowest)`, or fewer where `e` is least. -/
structure IsExponent (num den e : Nat) : Prop where
  lt : num * 2 ^ lowest < 2 ^ 53 * (den * 2 ^ e)
  least : e = 0 ∨ 2 ^ 52 * (den * 2 ^ e) ≤ num * 2 ^ lowest

theorem IsExponent.unique {num den e e' : Nat} (h : IsExponent num den e)
    (h' : IsExponent num den e') : e = e' := by
  have hle : ∀ {a b : Nat}, IsExponent num den a → IsExponent num den b → b ≤ a := by
    intro a b ha hb
    rcases hb.least with hzero | hb
    · omega
    · rcases Nat.lt_or_ge a b with hlt | hge
      · have hpow : den * 2 ^ (a + 1) ≤ den * 2 ^ b :=
          Nat.mul_le_mul_left den (Nat.pow_le_pow_right (by decide) hlt)
        have ha := ha.lt
        rw [Nat.pow_succ, ← Nat.mul_assoc] at hpow
        omega
      · exact hge
  exact Nat.le_antisymm (hle h' h) (hle h h')

theorem IsExponent.mul {num den e : Nat} (h : IsExponent num den e) {k : Nat} (hk : 0 < k) :
    IsExponent (num * k) (den * k) e := by
  have hnum : num * k * 2 ^ lowest = num * 2 ^ lowest * k := Nat.mul_right_comm ..
  have hden : ∀ c, c * (den * k * 2 ^ e) = c * (den * 2 ^ e) * k := by
    intro c
    ring
  refine ⟨?_, h.least.imp id fun hle => ?_⟩
  · rw [hnum, hden]
    exact Nat.mul_lt_mul_of_pos_right h.lt hk
  · rw [hnum, hden]
    exact Nat.mul_le_mul_right k hle

/-- A bound on the scaled fraction, without the sign of the exponent. -/
theorem scale_le_iff {exponent : Int} (hexp : -1074 ≤ exponent) (num den c : Nat) :
    c * (scale num den exponent).2 ≤ (scale num den exponent).1 ↔
      c * (den * 2 ^ (exponent + 1074).toNat) ≤ num * 2 ^ lowest := by
  have hpow : 2 ^ (-exponent).toNat * 2 ^ (exponent + 1074).toNat =
      2 ^ lowest * 2 ^ exponent.toNat := by
    have hsum : (-exponent).toNat + (exponent + 1074).toNat = lowest + exponent.toNat := by
      unfold lowest
      omega
    rw [← Nat.pow_add, hsum, Nat.pow_add]
  have hnum : num * 2 ^ (-exponent).toNat * 2 ^ (exponent + 1074).toNat =
      num * 2 ^ lowest * 2 ^ exponent.toNat := by
    rw [Nat.mul_assoc, hpow, Nat.mul_assoc]
  have hden : c * (den * 2 ^ exponent.toNat) * 2 ^ (exponent + 1074).toNat =
      c * (den * 2 ^ (exponent + 1074).toNat) * 2 ^ exponent.toNat := by
    ring
  have hscaled : ∀ k, 0 < 2 ^ k := fun k => Nat.two_pow_pos k
  show c * (den * 2 ^ exponent.toNat) ≤ num * 2 ^ (-exponent).toNat ↔ _
  rw [← Nat.mul_le_mul_right_iff (hscaled (exponent + 1074).toNat), hnum, hden,
    Nat.mul_le_mul_right_iff (hscaled _)]

theorem isExponent_ratioExponent {num den : Nat} (hnum : num ≠ 0) (hden : den ≠ 0) :
    -1074 ≤ ratioExponent num den ∧
      IsExponent num den (ratioExponent num den + 1074).toNat := by
  generalize hlow : max ((num.log2 : Int) - den.log2 - 53) (-1074) = low
  have hnum_le : 2 ^ num.log2 ≤ num := Nat.log2_self_le hnum
  have hnum_lt : num < 2 ^ (num.log2 + 1) := Nat.lt_log2_self
  have hden_le : 2 ^ den.log2 ≤ den := Nat.log2_self_le hden
  have hden_lt : den < 2 ^ (den.log2 + 1) := Nat.lt_log2_self
  have hlow_le : -1074 ≤ low := by omega
  -- The first guess has at most one binary digit too many, and none too few.
  have hupper : num * 2 ^ lowest < 2 ^ 54 * (den * 2 ^ (low + 1074).toNat) := by
    calc num * 2 ^ lowest < 2 ^ (num.log2 + 1) * 2 ^ lowest :=
          Nat.mul_lt_mul_of_pos_right hnum_lt (Nat.two_pow_pos _)
      _ = 2 ^ (num.log2 + 1 + lowest) := (Nat.pow_add ..).symm
      _ ≤ 2 ^ (54 + (den.log2 + (low + 1074).toNat)) :=
          Nat.pow_le_pow_right (by decide) (by unfold lowest; omega)
      _ = 2 ^ 54 * (2 ^ den.log2 * 2 ^ (low + 1074).toNat) := by rw [Nat.pow_add, Nat.pow_add]
      _ ≤ 2 ^ 54 * (den * 2 ^ (low + 1074).toNat) :=
          Nat.mul_le_mul_left _ (Nat.mul_le_mul_right _ hden_le)
  have hlower : (low + 1074).toNat = 0 ∨
      2 ^ 52 * (den * 2 ^ (low + 1074).toNat) ≤ num * 2 ^ lowest := by
    rcases Nat.eq_zero_or_pos (low + 1074).toNat with hzero | hpos
    · exact .inl hzero
    · right
      calc 2 ^ 52 * (den * 2 ^ (low + 1074).toNat)
          ≤ 2 ^ 52 * (2 ^ (den.log2 + 1) * 2 ^ (low + 1074).toNat) :=
            Nat.mul_le_mul_left _ (Nat.mul_le_mul_right _ (Nat.le_of_lt hden_lt))
        _ = 2 ^ (52 + (den.log2 + 1 + (low + 1074).toNat)) := by
            rw [Nat.pow_add 2 52, Nat.pow_add 2 (den.log2 + 1)]
        _ ≤ 2 ^ (num.log2 + lowest) :=
            Nat.pow_le_pow_right (by decide) (by unfold lowest; omega)
        _ = 2 ^ num.log2 * 2 ^ lowest := Nat.pow_add ..
        _ ≤ num * 2 ^ lowest := Nat.mul_le_mul_right _ hnum_le
  have hquotient : 2 * fieldUnit ≤ (scale num den low).1 / (scale num den low).2 ↔
      2 ^ 53 * (den * 2 ^ (low + 1074).toNat) ≤ num * 2 ^ lowest := by
    have hpos : 0 < (scale num den low).2 :=
      Nat.mul_pos (Nat.pos_of_ne_zero hden) (Nat.two_pow_pos _)
    rw [Nat.le_div_iff_mul_le hpos]
    exact scale_le_iff hlow_le num den (2 ^ 53)
  have hexponent : ratioExponent num den =
      if 2 * fieldUnit ≤ (scale num den low).1 / (scale num den low).2 then low + 1
      else low := by
    rw [← hlow]
    rfl
  rw [hexponent]
  split
  · rename_i hbig
    have hnext : (low + 1 + 1074).toNat = (low + 1074).toNat + 1 := by omega
    have hdouble : den * 2 ^ ((low + 1074).toNat + 1) = 2 * (den * 2 ^ (low + 1074).toNat) := by
      rw [Nat.pow_succ, ← Nat.mul_assoc, Nat.mul_comm]
    have hbig := hquotient.mp hbig
    refine ⟨by omega, ?_, .inr ?_⟩
    · rw [hnext, hdouble]
      omega
    · rw [hnext, hdouble]
      omega
  · rename_i hsmall
    have hsmall := fun h => hsmall (hquotient.mpr h)
    exact ⟨hlow_le, by omega, hlower⟩

theorem ratioExponent_eq {num den : Nat} (hnum : num ≠ 0) (hden : den ≠ 0) {exponent : Int}
    (hexp : -1074 ≤ exponent) (h : IsExponent num den (exponent + 1074).toNat) :
    ratioExponent num den = exponent := by
  obtain ⟨hle, hratio⟩ := isExponent_ratioExponent hnum hden
  have := hratio.unique h
  omega

theorem divideToEven_mul (num den : Nat) {k : Nat} (hk : 0 < k) :
    divideToEven (num * k) (den * k) = divideToEven num den := by
  have hless : den * k < 2 * (num % den * k) ↔ den < 2 * (num % den) := by
    rw [← Nat.mul_assoc, Nat.mul_lt_mul_right hk]
  have heq : 2 * (num % den * k) = den * k ↔ 2 * (num % den) = den := by
    rw [← Nat.mul_assoc, Nat.mul_left_inj (Nat.ne_of_gt hk)]
  unfold divideToEven
  simp only [Nat.mul_div_mul_right _ _ hk, Nat.mul_mod_mul_right, hless, beq_eq_decide, heq]

theorem divideToEven_one (num : Nat) : divideToEven num 1 = num := by
  simp [divideToEven, Nat.mod_one]

theorem scale_mul (num den k : Nat) (exponent : Int) :
    scale (num * k) (den * k) exponent =
      ((scale num den exponent).1 * k, (scale num den exponent).2 * k) := by
  unfold scale
  rw [Nat.mul_right_comm num, Nat.mul_right_comm den]

theorem ofRatio_of_ne_zero (negative : Bool) {num : Nat} (hnum : num ≠ 0) (den : Nat) :
    ofRatio negative num den =
      ofMagnitude negative (min ((ratioExponent num den + 1074).toNat * fieldUnit +
        divideToEven (scale num den (ratioExponent num den)).1
          (scale num den (ratioExponent num den)).2) infiniteMagnitude) := by
  rw [ofRatio, if_neg hnum]

theorem ofRatio_mul (negative : Bool) (num : Nat) {den : Nat} (hden : den ≠ 0) {k : Nat}
    (hk : 0 < k) : ofRatio negative (num * k) (den * k) = ofRatio negative num den := by
  by_cases hnum : num = 0
  · subst hnum
    rw [Nat.zero_mul, ofRatio, if_pos rfl, ofRatio, if_pos rfl]
  · obtain ⟨hle, hratio⟩ := isExponent_ratioExponent hnum hden
    have hnum' : num * k ≠ 0 := Nat.mul_ne_zero hnum (Nat.ne_of_gt hk)
    have hden' : den * k ≠ 0 := Nat.mul_ne_zero hden (Nat.ne_of_gt hk)
    have hsame := ratioExponent_eq hnum' hden' hle (hratio.mul hk)
    rw [ofRatio_of_ne_zero negative hnum', ofRatio_of_ne_zero negative hnum, hsame, scale_mul,
      divideToEven_mul _ _ hk]

/-! ## Numbers and their bits -/

/-- What the bits of a finite number say about its mantissa and exponent. -/
theorem value_eq_finite {x : Binary64} {negative : Bool} {m : Nat} {e : Int}
    (h : x.value = .finite negative m e) :
    -1074 ≤ e ∧ e ≤ 971 ∧ m < 2 * fieldUnit ∧ (e = -1074 ∨ fieldUnit ≤ m) ∧
      x = ofMagnitude negative ((e + 1074).toNat * fieldUnit + m) := by
  have hbits : x.bits.toNat < 2 ^ 64 := x.bits.toNat_lt
  have hself : x = ⟨UInt64.ofNat x.bits.toNat⟩ := by rw [UInt64.ofNat_toNat]
  have hparts : ∀ magnitude, (negative = true → x.bits.toNat = signBit + magnitude) →
      (negative = false → x.bits.toNat = magnitude) → x = ofMagnitude negative magnitude := by
    intro magnitude hneg hpos
    unfold ofMagnitude
    cases negative with
    | true => rw [if_pos rfl, ← hneg rfl, ← hself]
    | false => rw [if_neg Bool.false_ne_true, ← hpos rfl, ← hself]
  unfold value at h
  simp only at h
  split at h
  · split at h
    · cases h
    · cases h
  · rename_i hinfinite
    split at h
    · rename_i hfield
      obtain ⟨rfl, rfl, rfl⟩ := Value.finite.inj h
      unfold fieldUnit fieldCount signBit at *
      refine ⟨by omega, by omega, by omega, .inl rfl, hparts _ (fun hs => ?_) fun hs => ?_⟩
      · have := of_decide_eq_true hs
        omega
      · have := of_decide_eq_false hs
        omega
    · rename_i hfield
      obtain ⟨rfl, rfl, rfl⟩ := Value.finite.inj h
      unfold fieldUnit fieldCount signBit at *
      refine ⟨by omega, by omega, by omega, .inr (by omega), hparts _ (fun hs => ?_) fun hs => ?_⟩
      · have := of_decide_eq_true hs
        omega
      · have := of_decide_eq_false hs
        omega

/-- A number is what its own value is rounded to. -/
theorem ofRatio_value {x : Binary64} {negative : Bool} {m : Nat} {e : Int}
    (h : x.value = .finite negative m e) :
    ofRatio negative (m * 2 ^ e.toNat) (2 ^ (-e).toNat) = x := by
  obtain ⟨hle, hge, hm, hnormal, hx⟩ := value_eq_finite h
  by_cases hzero : m = 0
  · have he : e = -1074 := hnormal.resolve_right (by rw [hzero]; decide)
    subst hzero he
    rw [Nat.zero_mul, ofRatio, if_pos rfl, hx]
    rfl
  · have hnum : m * 2 ^ e.toNat ≠ 0 := Nat.mul_ne_zero hzero (Nat.ne_of_gt (Nat.two_pow_pos _))
    have hden : 2 ^ (-e).toNat ≠ 0 := Nat.ne_of_gt (Nat.two_pow_pos _)
    have hpow : 2 ^ (-e).toNat * 2 ^ (e + 1074).toNat = 2 ^ e.toNat * 2 ^ lowest := by
      have hsum : (-e).toNat + (e + 1074).toNat = e.toNat + lowest := by
        unfold lowest
        omega
      rw [← Nat.pow_add, hsum, Nat.pow_add]
    have hexponent : IsExponent (m * 2 ^ e.toNat) (2 ^ (-e).toNat) (e + 1074).toNat := by
      have hpos : 0 < 2 ^ e.toNat * 2 ^ lowest :=
        Nat.mul_pos (Nat.two_pow_pos _) (Nat.two_pow_pos _)
      constructor
      · rw [hpow, Nat.mul_assoc]
        exact Nat.mul_lt_mul_of_pos_right hm hpos
      · rw [hpow, Nat.mul_assoc]
        exact hnormal.imp (fun he => by omega) (Nat.mul_le_mul_right _)
    have hscale : scale (m * 2 ^ e.toNat) (2 ^ (-e).toNat) e =
        (m * (2 ^ e.toNat * 2 ^ (-e).toNat), 1 * (2 ^ e.toNat * 2 ^ (-e).toNat)) := by
      unfold scale
      rw [Nat.mul_assoc, Nat.one_mul, Nat.mul_comm (2 ^ (-e).toNat)]
      rfl
    have hmagnitude : (e + 1074).toNat * fieldUnit + m ≤ infiniteMagnitude := by
      unfold fieldUnit infiniteMagnitude at *
      unfold fieldUnit at *
      omega
    rw [ofRatio_of_ne_zero negative hnum, ratioExponent_eq hnum hden hle hexponent, hscale,
      divideToEven_mul _ _ (Nat.mul_pos (Nat.two_pow_pos _) (Nat.two_pow_pos _)),
      divideToEven_one, Nat.min_eq_left hmagnitude, hx]

/-! ## Decimals -/

theorem length_toDigits_mul_ten {n : Nat} (hn : n ≠ 0) :
    (Nat.toDigits 10 (n * 10)).length = (Nat.toDigits 10 n).length + 1 := by
  rw [Nat.toDigits_eq_if (by decide), if_neg (by omega), List.length_append,
    Nat.mul_div_cancel n (by decide)]
  rfl

theorem ofDecimal_zero (negative : Bool) (exponent : Int) :
    ofDecimal negative 0 exponent = zero negative := by
  simp [ofDecimal]

theorem ofDecimal_mul_ten (negative : Bool) (digits : Nat) (exponent : Int) :
    ofDecimal negative (digits * 10) exponent = ofDecimal negative digits (exponent + 1) := by
  by_cases hdigits : digits = 0
  · rw [hdigits, Nat.zero_mul, ofDecimal_zero, ofDecimal_zero]
  · have hten : digits * 10 ≠ 0 := by omega
    have hsize : ((Nat.toDigits 10 (digits * 10)).length : Int) + exponent =
        (Nat.toDigits 10 digits).length + (exponent + 1) := by
      rw [length_toDigits_mul_ten hdigits]
      omega
    have hratio : ofRatio negative (digits * 10 * 10 ^ exponent.toNat) (10 ^ (-exponent).toNat) =
        ofRatio negative (digits * 10 ^ (exponent + 1).toNat) (10 ^ (-(exponent + 1)).toNat) := by
      rcases Int.lt_or_le exponent 0 with hneg | hpos
      · have hnum : exponent.toNat = 0 := by omega
        have hnum' : (exponent + 1).toNat = 0 := by omega
        have hden : (-exponent).toNat = (-(exponent + 1)).toNat + 1 := by omega
        rw [hnum, hnum', hden, Nat.pow_zero, Nat.mul_one, Nat.mul_one, Nat.pow_succ]
        exact ofRatio_mul negative digits (Nat.ne_of_gt (Nat.pow_pos (by decide))) (by decide)
      · have hnum : (exponent + 1).toNat = exponent.toNat + 1 := by omega
        have hden : (-exponent).toNat = 0 := by omega
        have hden' : (-(exponent + 1)).toNat = 0 := by omega
        rw [hnum, hden, hden', Nat.pow_succ, Nat.mul_assoc, Nat.mul_comm 10]
    unfold ofDecimal
    simp only [hsize, hdigits, hten, decide_false]
    split
    · rfl
    · split
      · rfl
      · exact hratio

/-- Zeros at the end of the digits count towards the exponent. -/
theorem ofDecimal_mul_pow (negative : Bool) (digits k : Nat) (exponent : Int) :
    ofDecimal negative (digits * 10 ^ k) exponent =
      ofDecimal negative digits (exponent + k) := by
  induction k generalizing exponent with
  | zero => simp
  | succ k ih =>
    rw [Nat.pow_succ, ← Nat.mul_assoc, ofDecimal_mul_ten, ih]
    congr 1
    omega

end Binary64
end Listing
