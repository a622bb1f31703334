/-
Base64 without padding.

Four symbols stand for three bytes.  The last group may have two or three symbols,
and the bits that such a group has to spare are zero.
-/
import Listing.Text.Basic

namespace Listing
namespace Base64

/-- Why a text is not base64. -/
inductive Fault where
  | invalidSymbol (symbol offset : Nat)
  | invalidLength (length : Nat)
  /-- The bits to spare of the last symbol are not zero. -/
  | invalidLast (symbol offset : Nat)
deriving DecidableEq

/-- The value of a symbol. -/
def symbol? (c : Char) : Option Nat :=
  if 'A' ≤ c && c ≤ 'Z' then some (c.toNat - 'A'.toNat)
  else if 'a' ≤ c && c ≤ 'z' then some (c.toNat - 'a'.toNat + 26)
  else if '0' ≤ c && c ≤ '9' then some (c.toNat - '0'.toNat + 52)
  else if c = '+' then some 62
  else if c = '/' then some 63
  else none

/-- The values of symbols, or the first character that is none. -/
def symbols (offset : Nat) : Text → Except Fault (List Nat)
  | [] => .ok []
  | c :: r =>
    match symbol? c with
    | none => .error (.invalidSymbol c.toNat offset)
    | some n =>
      match symbols (offset + 1) r with
      | .ok ns => .ok (n :: ns)
      | .error e => .error e

/-- The bytes of symbols, of which there are not one more than a multiple of four.
Bits to spare are left out. -/
def bytes : List Nat → List UInt8
  | a :: b :: c :: d :: r =>
    UInt8.ofNat (a * 4 + b / 16) :: UInt8.ofNat (b % 16 * 16 + c / 4)
      :: UInt8.ofNat (c % 4 * 64 + d) :: bytes r
  | [a, b, c] => [UInt8.ofNat (a * 4 + b / 16), UInt8.ofNat (b % 16 * 16 + c / 4)]
  | [a, b] => [UInt8.ofNat (a * 4 + b / 16)]
  | _ => []

/-- The bits that the last symbol has to spare. -/
def spareBits (symbols : List Nat) : Nat :=
  match symbols.getLast? with
  | none => 0
  | some last =>
    if symbols.length % 4 = 2 then last % 16
    else if symbols.length % 4 = 3 then last % 4
    else 0

/-- The bytes that a text stands for. -/
def decode (t : Text) : Except Fault (List UInt8) :=
  match symbols 0 t with
  | .error e => .error e
  | .ok ns =>
    if ns.length % 4 = 1 then .error (.invalidLength ns.length)
    else if spareBits ns ≠ 0 then
      .error (.invalidLast ((t.getLast?.getD '=').toNat) (ns.length - 1))
    else .ok (bytes ns)

/-- The wording of a fault. -/
def Fault.message : Fault → Text
  | .invalidSymbol symbol offset =>
    "Invalid symbol ".toList ++ Text.ofNat symbol ++ ", offset ".toList ++ Text.ofNat offset
      ++ ['.']
  | .invalidLength length => "Invalid input length: ".toList ++ Text.ofNat length
  | .invalidLast symbol offset =>
    "Invalid last symbol ".toList ++ Text.ofNat symbol ++ ", offset ".toList
      ++ Text.ofNat offset ++ ['.']

end Base64
end Listing
