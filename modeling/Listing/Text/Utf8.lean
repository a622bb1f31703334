/-
Bytes and the texts they encode.
-/
import Listing.Text.Basic

namespace Listing
namespace Text

/-- The UTF-8 bytes of a text. -/
def encode (t : Text) : ByteArray := (String.ofList t).toUTF8

/-- The text of well-formed UTF-8 bytes. -/
def decode? (bytes : ByteArray) : Option Text := (String.fromUTF8? bytes).map String.toList

/-- What decodes is what was encoded. -/
theorem decode?_encode (t : Text) : decode? (encode t) = some t := by
  have valid : (encode t).IsValidUTF8 := (String.ofList t).isValidUTF8
  have back : String.fromUTF8? (encode t) = some (String.ofList t) := dif_pos valid
  rw [decode?, back, Option.map_some, String.toList_ofList]

/-- Stands for bytes that encode no character. -/
def replacement : Char := '\uFFFD'

/-- Takes `count` continuation bytes, the first of them between `low` and `high`,
onto the bits in `value`.  Stops in front of the first byte that does not fit. -/
def continueFrom (value low high : Nat) : Nat → List UInt8 → Option Nat × List UInt8
  | 0, bytes => (some value, bytes)
  | _ + 1, [] => (none, [])
  | count + 1, b :: rest =>
    if low ≤ b.toNat && b.toNat ≤ high then
      continueFrom (64 * value + (b.toNat - 0x80)) 0x80 0xBF count rest
    else (none, b :: rest)

theorem continueFrom_length_le (value low high count : Nat) (bytes : List UInt8) :
    (continueFrom value low high count bytes).2.length ≤ bytes.length := by
  induction count generalizing value low high bytes with
  | zero => simp [continueFrom]
  | succ count ih =>
    cases bytes with
    | nil => simp [continueFrom]
    | cons b rest =>
      rw [continueFrom]
      split
      · exact Nat.le_trans (ih _ _ _ _) (Nat.le_succ _)
      · exact Nat.le_refl _

/-- The code point that starts with byte `b`, or none, and the bytes after it.
The second byte is bounded so that no form is longer than needed, no surrogate
and nothing past U+10FFFF is read. -/
def leadByte (b : Nat) (rest : List UInt8) : Option Nat × List UInt8 :=
  if b < 0x80 then (some b, rest)
  else if b < 0xC2 then (none, rest)
  else if b < 0xE0 then continueFrom (b - 0xC0) 0x80 0xBF 1 rest
  else if b = 0xE0 then continueFrom 0 0xA0 0xBF 2 rest
  else if b = 0xED then continueFrom 0xD 0x80 0x9F 2 rest
  else if b < 0xF0 then continueFrom (b - 0xE0) 0x80 0xBF 2 rest
  else if b = 0xF0 then continueFrom 0 0x90 0xBF 3 rest
  else if b < 0xF4 then continueFrom (b - 0xF0) 0x80 0xBF 3 rest
  else if b = 0xF4 then continueFrom 4 0x80 0x8F 3 rest
  else (none, rest)

theorem leadByte_length_le (b : Nat) (rest : List UInt8) :
    (leadByte b rest).2.length ≤ rest.length := by
  unfold leadByte
  repeat' split
  any_goals exact continueFrom_length_le ..
  all_goals exact Nat.le_refl _

/-- The text of any bytes.  Each longest run of bytes that starts a character and
does not complete it gives one replacement character. -/
def decodeLossy : List UInt8 → Text
  | [] => []
  | b :: rest =>
    (match (leadByte b.toNat rest).1 with
      | some n => Char.ofNat n
      | none => replacement) :: decodeLossy (leadByte b.toNat rest).2
termination_by bytes => bytes.length
decreasing_by
  have := leadByte_length_le b.toNat rest
  simp only [List.length_cons]
  omega

end Text
end Listing
