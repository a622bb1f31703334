/-
Base64 as it is written.

Three bytes are a number of 24 bits, which is written as four symbols of six bits each.  One or
two bytes at the end are filled up with zero bits, and only the symbols that hold bits of theirs
are written.  What was written so is read back (`decode_encode`): no symbol is out of the
alphabet, the length leaves no remainder of one, and the bits to spare are zero.
-/
import Listing.Base64

namespace Listing
namespace Base64

/-- The symbols in the order of their values. -/
def alphabet : Text := "ABCDEFGHIJKLMNOPQRSTUVWXYZabcdefghijklmnopqrstuvwxyz0123456789+/".toList

def symbol (n : Nat) : Char := alphabet.getD n '='

/-- The values of the four symbols of three bytes. -/
def group (a b c : UInt8) : List Nat :=
  let n := a.toNat * 0x10000 + b.toNat * 0x100 + c.toNat
  [n / 0x40000, n / 0x1000 % 64, n / 64 % 64, n % 64]

/-- The values of the symbols of some bytes. -/
def sextets : List UInt8 → List Nat
  | a :: b :: c :: rest => group a b c ++ sextets rest
  | [a, b] => (group a b 0).take 3
  | [a] => (group a 0 0).take 2
  | [] => []

/-- Bytes under base64, without padding. -/
def encode (bytes : List UInt8) : Text := (sextets bytes).map symbol

/-- What fills a text up to a multiple of four characters. -/
def padding (t : Text) : Text := List.replicate ((4 - t.length % 4) % 4) '='

/-! ## Symbols -/

theorem symbol?_symbol {n : Nat} (h : n < 64) : symbol? (symbol n) = some n := by
  have hall : ∀ n < 64, symbol? (symbol n) = some n := by decide +kernel
  exact hall n h

theorem symbol_mem {n : Nat} (h : n < 64) : symbol n ∈ alphabet := by
  have hlength : n < alphabet.length := h
  rw [symbol, List.getD_eq_getElem?_getD, List.getElem?_eq_getElem hlength, Option.getD_some]
  exact List.getElem_mem hlength

theorem symbols_map {ns : List Nat} (h : ∀ n ∈ ns, n < 64) (offset : Nat) :
    symbols offset (ns.map symbol) = .ok ns := by
  induction ns generalizing offset with
  | nil => rfl
  | cons n rest ih =>
    rw [List.map_cons, symbols, symbol?_symbol (h n List.mem_cons_self)]
    simp only [ih fun m hm => h m (List.mem_cons_of_mem n hm)]

/-! ## Groups -/

theorem lt_of_mem_group {a b c : UInt8} {n : Nat} (h : n ∈ group a b c) : n < 64 := by
  have ha := a.toNat_lt
  have hb := b.toNat_lt
  have hc := c.toNat_lt
  simp only [group, List.mem_cons, List.not_mem_nil, or_false] at h
  omega

theorem bytes_group (a b c : UInt8) (rest : List Nat) :
    bytes (group a b c ++ rest) = a :: b :: c :: bytes rest := by
  have ha := a.toNat_lt
  have hb := b.toNat_lt
  have hc := c.toNat_lt
  simp only [group, List.cons_append, List.nil_append, bytes]
  generalize hn : a.toNat * 0x10000 + b.toNat * 0x100 + c.toNat = n
  have hfirst : n / 0x40000 * 4 + n / 0x1000 % 64 / 16 = a.toNat := by omega
  have hsecond : n / 0x1000 % 64 % 16 * 16 + n / 64 % 64 / 4 = b.toNat := by omega
  have hthird : n / 64 % 64 % 4 * 64 + n % 64 = c.toNat := by omega
  rw [hfirst, hsecond, hthird, UInt8.ofNat_toNat, UInt8.ofNat_toNat, UInt8.ofNat_toNat]

theorem length_group_append (a b c : UInt8) (rest : List Nat) :
    (group a b c ++ rest).length % 4 = rest.length % 4 := by
  rw [List.length_append]
  exact Nat.add_mod_left 4 rest.length

theorem spareBits_group (a b c : UInt8) (rest : List Nat) :
    spareBits (group a b c ++ rest) = spareBits rest := by
  unfold spareBits
  rw [length_group_append, List.getLast?_append]
  cases hlast : rest.getLast? with
  | none =>
    obtain rfl := List.getLast?_eq_none_iff.mp hlast
    rfl
  | some last => rfl

theorem spareBits_two (m n : Nat) : spareBits [m, n] = n % 16 := rfl

theorem spareBits_three (k m n : Nat) : spareBits [k, m, n] = n % 4 := rfl

/-! ## All of the bytes -/

theorem lt_of_mem_sextets {bs : List UInt8} {n : Nat} (h : n ∈ sextets bs) : n < 64 := by
  induction bs using sextets.induct with
  | case1 a b c rest ih =>
    rw [sextets] at h
    exact (List.mem_append.mp h).elim lt_of_mem_group ih
  | case2 a b => exact lt_of_mem_group (List.mem_of_mem_take h)
  | case3 a => exact lt_of_mem_group (List.mem_of_mem_take h)
  | case4 => exact absurd h List.not_mem_nil

theorem length_sextets (bs : List UInt8) : (sextets bs).length % 4 ≠ 1 := by
  induction bs using sextets.induct with
  | case1 a b c rest ih => rwa [sextets, length_group_append]
  | case2 a b => exact (by decide : 3 % 4 ≠ 1)
  | case3 a => exact (by decide : 2 % 4 ≠ 1)
  | case4 => exact (by decide : 0 % 4 ≠ 1)

/-- The bits to spare are among those that the last bytes were filled up with. -/
theorem spareBits_sextets (bs : List UInt8) : spareBits (sextets bs) = 0 := by
  have hfill : (0 : UInt8).toNat = 0 := rfl
  induction bs using sextets.induct with
  | case1 a b c rest ih => rw [sextets, spareBits_group, ih]
  | case2 a b =>
    refine (spareBits_three _ _ _).trans ?_
    omega
  | case3 a =>
    refine (spareBits_two _ _).trans ?_
    omega
  | case4 => rfl

theorem bytes_sextets (bs : List UInt8) : bytes (sextets bs) = bs := by
  induction bs using sextets.induct with
  | case1 a b c rest ih => rw [sextets, bytes_group, ih]
  | case2 a b =>
    show (bytes (group a b 0 ++ [])).take 2 = [a, b]
    rw [bytes_group]
    rfl
  | case3 a =>
    show (bytes (group a 0 0 ++ [])).take 1 = [a]
    rw [bytes_group]
    rfl
  | case4 => rfl

/-- What was written is read back. -/
theorem decode_encode (bs : List UInt8) : decode (encode bs) = .ok bs := by
  unfold decode encode
  rw [symbols_map fun n hn => lt_of_mem_sextets hn]
  simp only [if_neg (length_sextets bs), spareBits_sextets bs, bytes_sextets bs]
  rfl

example : encode [0x66, 0x6F, 0x6F, 0x62, 0x61] = "Zm9vYmE".toList := by decide +kernel

theorem mem_alphabet_of_mem_encode {bs : List UInt8} {c : Char} (h : c ∈ encode bs) :
    c ∈ alphabet := by
  obtain ⟨n, hn, rfl⟩ := List.mem_map.mp h
  exact symbol_mem (lt_of_mem_sextets hn)

end Base64
end Listing
