/-
Decimal digits: a number is read back from the digits it is written in.
-/
import Listing.Text.Basic
import Mathlib.Tactic.Ring

namespace Listing
namespace Text

theorem digitValue_eq_ofDigitChars (t : Text) : digitValue t = Nat.ofDigitChars 10 t 0 :=
  Nat.ofDigitChars_eq_foldl.symm

theorem digitValue_ofNat (n : Nat) : digitValue (ofNat n) = n := by
  rw [digitValue_eq_ofDigitChars, ofNat, Nat.ofDigitChars_ten_toDigits]

theorem ofNat_ne_nil (n : Nat) : ofNat n ≠ [] := Nat.toDigits_ne_nil

theorem digitValue_append (a b : Text) :
    digitValue (a ++ b) = digitValue a * 10 ^ b.length + digitValue b := by
  simp only [digitValue_eq_ofDigitChars, Nat.ofDigitChars_append]
  rw [Nat.ofDigitChars_eq_ofDigitChars_zero, Nat.mul_comm]

theorem digitValue_zeros (n : Nat) : digitValue (List.replicate n '0') = 0 := by
  rw [digitValue_eq_ofDigitChars, Nat.ofDigitChars_replicate_zero, Nat.mul_zero]

/-- Only zero is written with a zero in front. -/
theorem head?_ofNat {n : Nat} (h : n ≠ 0) : (ofNat n).head? ≠ some '0' := by
  induction n using Nat.strongRecOn with
  | _ n ih =>
    rw [ofNat, Nat.toDigits_eq_if (by decide)]
    split
    · rename_i hlt
      have hdigit : ∀ d < 10, d ≠ 0 → Nat.digitChar d ≠ '0' := by decide
      intro hhead
      exact hdigit n hlt h (Option.some.inj hhead)
    · rename_i hge
      obtain ⟨c, r, hcons⟩ := List.exists_cons_of_ne_nil (ofNat_ne_nil (n / 10))
      have hrest := ih (n / 10) (by omega) (by omega)
      rw [hcons] at hrest
      show (ofNat (n / 10) ++ _).head? ≠ _
      rw [hcons]
      exact hrest

theorem isDigit_of_mem_ofNat {n : Nat} {c : Char} (h : c ∈ ofNat n) : c.isDigit = true :=
  Nat.isDigit_of_mem_toDigits (by decide) (by decide) h

theorem natural?_ofNat {limit n : Nat} (h : n ≤ limit) : natural? limit (ofNat n) = some n := by
  have hplus : ∀ r, ofNat n ≠ '+' :: r := by
    intro r hr
    have hdigit : '+'.isDigit = true := isDigit_of_mem_ofNat (n := n) (by rw [hr]; simp)
    exact absurd hdigit (by decide)
  have hall : (ofNat n).all Char.isDigit = true :=
    List.all_eq_true.mpr fun c hc => isDigit_of_mem_ofNat hc
  unfold natural?
  split
  · rename_i r hr
    exact absurd hr (hplus r)
  · simp [hall, digitValue_ofNat, h, ofNat_ne_nil]

end Text
end Listing
