/-
The order of texts and the order of their bytes.

Texts are compared character by character.  Of two characters the one with the smaller code
point has the smaller byte where their UTF-8 forms first differ, so this is the order of the
UTF-8 forms byte by byte (`bytesBefore_iff`): the order that names are sorted in.
-/
import Listing.Dict
import Listing.Text.Utf8

namespace Listing
namespace Text

/-- The bytes of the UTF-8 form. -/
def bytes (t : Text) : List UInt8 := t.flatMap String.utf8EncodeChar

theorem toByteArray_bytes (t : Text) : (bytes t).toByteArray = encode t := by
  rw [encode, String.toUTF8_eq_toByteArray, String.toByteArray_ofList]
  rfl

theorem bytes_cons (c : Char) (t : Text) : bytes (c :: t) = String.utf8EncodeChar c ++ bytes t :=
  List.flatMap_cons

/-- The UTF-8 form of `a` comes before that of `b`, byte by byte. -/
def BytesBefore (a b : Text) : Prop := List.Lex (· < ·) (bytes a) (bytes b)

/-! ## Two characters -/

/-- A character has one to four bytes.  The first of them says how many, and each of the
others holds six bits. -/
theorem utf8EncodeChar_cases (c : Char) :
    (c.toNat < 0x80 ∧ String.utf8EncodeChar c = [UInt8.ofNat c.toNat]) ∨
    ((0x80 ≤ c.toNat ∧ c.toNat < 0x800) ∧ String.utf8EncodeChar c =
      [UInt8.ofNat (c.toNat / 64 + 0xC0), UInt8.ofNat (c.toNat % 64 + 0x80)]) ∨
    ((0x800 ≤ c.toNat ∧ c.toNat < 0x10000) ∧ String.utf8EncodeChar c =
      [UInt8.ofNat (c.toNat / 4096 + 0xE0), UInt8.ofNat (c.toNat / 64 % 64 + 0x80),
        UInt8.ofNat (c.toNat % 64 + 0x80)]) ∨
    ((0x10000 ≤ c.toNat ∧ c.toNat < 0x110000) ∧ String.utf8EncodeChar c =
      [UInt8.ofNat (c.toNat / 262144 + 0xF0), UInt8.ofNat (c.toNat / 4096 % 64 + 0x80),
        UInt8.ofNat (c.toNat / 64 % 64 + 0x80), UInt8.ofNat (c.toNat % 64 + 0x80)]) := by
  have hval : c.val.toNat = c.toNat := rfl
  have hlimit : c.toNat < 0x110000 := by
    have hvalid : c.toNat < 0xd800 ∨ 0xdfff < c.toNat ∧ c.toNat < 0x110000 := c.valid
    omega
  by_cases hone : c.toNat ≤ 127
  · exact .inl ⟨by omega, if_pos hone⟩
  · by_cases htwo : c.toNat ≤ 2047
    · have hlead : c.toNat / 64 % 32 = c.toNat / 64 := by omega
      have hbody : String.utf8EncodeChar c = _ := (if_neg hone).trans (if_pos htwo)
      rw [hval, hlead] at hbody
      exact .inr (.inl ⟨by omega, hbody⟩)
    · by_cases hthree : c.toNat ≤ 65535
      · have hlead : c.toNat / 4096 % 16 = c.toNat / 4096 := by omega
        have hbody : String.utf8EncodeChar c = _ :=
          (if_neg hone).trans ((if_neg htwo).trans (if_pos hthree))
        rw [hval, hlead] at hbody
        exact .inr (.inr (.inl ⟨by omega, hbody⟩))
      · have hlead : c.toNat / 262144 % 8 = c.toNat / 262144 := by omega
        have hbody : String.utf8EncodeChar c = _ :=
          (if_neg hone).trans ((if_neg htwo).trans (if_neg hthree))
        rw [hval, hlead] at hbody
        exact .inr (.inr (.inr ⟨by omega, hbody⟩))

/-- Two forms are compared by their first bytes, and by the others if these are equal. -/
theorem lex_cons {m n : Nat} {l l' : List UInt8} {Q : Prop} (hn : n < 256)
    (h : m < n ∨ m = n ∧ Q) (hQ : Q → List.Lex (· < ·) l l') :
    List.Lex (· < ·) (UInt8.ofNat m :: l) (UInt8.ofNat n :: l') := by
  rcases h with hlt | ⟨rfl, hq⟩
  · exact .rel ((UInt8.ofNat_lt_iff_lt (Nat.lt_trans hlt hn) hn).mpr hlt)
  · exact .cons (hQ hq)

theorem lex_first {m n : Nat} {l l' : List UInt8} (hn : n < 256) (h : m < n) :
    List.Lex (· < ·) (UInt8.ofNat m :: l) (UInt8.ofNat n :: l') :=
  lex_cons (Q := False) hn (.inl h) False.elim

/-- The forms differ in a byte before either of them ends, so whatever follows them does not
count. -/
theorem lex_utf8EncodeChar {c d : Char} (h : c < d) (s t : List UInt8) :
    List.Lex (· < ·) (String.utf8EncodeChar c ++ s) (String.utf8EncodeChar d ++ t) := by
  have hlt : c.toNat < d.toNat := h
  -- A form with fewer bytes has the smaller first byte; forms of one length are two numbers
  -- in base 64, written with as many digits.
  obtain ⟨hc, ec⟩ | ⟨hc, ec⟩ | ⟨hc, ec⟩ | ⟨hc, ec⟩ := utf8EncodeChar_cases c <;>
    obtain ⟨hd, ed⟩ | ⟨hd, ed⟩ | ⟨hd, ed⟩ | ⟨hd, ed⟩ := utf8EncodeChar_cases d <;>
    rw [ec, ed]
  · exact lex_first (by omega) hlt
  · exact lex_first (by omega) (by omega)
  · exact lex_first (by omega) (by omega)
  · exact lex_first (by omega) (by omega)
  · omega
  · exact lex_cons (by omega) (by omega) fun h => lex_first (by omega) h
  · exact lex_first (by omega) (by omega)
  · exact lex_first (by omega) (by omega)
  · omega
  · omega
  · exact lex_cons (by omega) (by omega) fun h => lex_cons (by omega) h fun h =>
      lex_first (by omega) h
  · exact lex_first (by omega) (by omega)
  · omega
  · omega
  · omega
  · exact lex_cons (by omega) (by omega) fun h => lex_cons (by omega) h fun h =>
      lex_cons (by omega) h fun h => lex_first (by omega) h

/-! ## Texts -/

theorem bytesBefore_of_lt {a b : Text} (h : a < b) : BytesBefore a b := by
  induction h with
  | @nil d b =>
    obtain ⟨byte, rest, hbytes⟩ :=
      List.exists_cons_of_ne_nil (String.utf8EncodeChar_ne_nil (c := d))
    rw [BytesBefore, bytes_cons, hbytes]
    exact .nil
  | rel hcd =>
    rw [BytesBefore, bytes_cons, bytes_cons]
    exact lex_utf8EncodeChar hcd _ _
  | @cons c a b _ ih =>
    rw [BytesBefore, bytes_cons, bytes_cons]
    exact List.append_left_lt ih

theorem bytesBefore_iff {a b : Text} : BytesBefore a b ↔ a < b := by
  refine ⟨fun h => ?_, bytesBefore_of_lt⟩
  cases hcompare : compare a b with
  | lt => exact compare_eq_lt_iff.mp hcompare
  | eq =>
    rw [compare_eq_eq_iff.mp hcompare] at h
    exact absurd h (List.lt_irrefl (bytes b))
  | gt =>
    have hback : BytesBefore b a := bytesBefore_of_lt (Dict.lt_of_compare_eq_gt hcompare)
    exact absurd h (List.lt_asymm hback)

end Text
end Listing
