/-
Decimal texts of binary64 numbers.

Writing takes the fewest digits that read back to the same number, and of those
the digits nearest to it.  The candidates on the grid of `n` digits are the two
neighbours of the number there, so the first grid on which one of them reads back
decides.  A number can lie in the middle between two neighbours that both read
back; which of them is written is up to the format.  The number itself has a finite
decimal expansion, which is what stands if no shorter one reads back.
-/
import Listing.Number.Binary64
import Listing.Text.Basic

namespace Listing
namespace Binary64

/-- The decimal number `digits * 10 ^ exponent`. -/
structure Decimal where
  digits : Nat
  exponent : Int
deriving DecidableEq

namespace Decimal

/-- The decimal expansion of `mantissa * 2 ^ exponent`: a negative power of two is
a power of five over a power of ten. -/
def exact (mantissa : Nat) (exponent : Int) : Decimal :=
  if mantissa = 0 then ⟨0, 0⟩
  else ⟨mantissa * Nat.pow 2 exponent.toNat * Nat.pow 5 (-exponent).toNat, min exponent 0⟩

/-- Which of two neighbours stands for a number in the middle between them. -/
inductive Tie where
  /-- The one whose last digit is even. -/
  | toEven
  /-- The one further from zero. -/
  | away
deriving DecidableEq

/-- Whether a number in the middle goes to the neighbour above `digits`. -/
def Tie.goesUp (tie : Tie) (digits : Nat) : Bool :=
  match tie with
  | .toEven => digits % 2 == 1
  | .away => true

/-- The decimal cut to its first `n` digits, and whether the neighbour above the cut
is the one to take: the cut-off part is more than half a unit of the last digit, or
just half of it and the tie goes up. -/
def cut (tie : Tie) (d : Decimal) (n : Nat) : Decimal × Bool :=
  let length := (Nat.toDigits 10 d.digits).length
  let unit := Nat.pow 10 (length - n)
  let kept := d.digits / unit
  let dropped := d.digits % unit
  (⟨kept, d.exponent + (length - n : Nat)⟩,
    decide (unit < 2 * dropped) || (unit == 2 * dropped && tie.goesUp kept))

/-- The number nearest to a decimal. -/
def toBinary64 (negative : Bool) (d : Decimal) : Binary64 := ofDecimal negative d.digits d.exponent

/-- The neighbour of `d` with `n` digits that reads back to `x`, the nearer one if
both do. -/
def candidate? (tie : Tie) (negative : Bool) (x : Binary64) (d : Decimal) (n : Nat) :
    Option Decimal :=
  let (below, up) := d.cut tie n
  let above : Decimal := ⟨below.digits + 1, below.exponent⟩
  let (first, second) := if up then (above, below) else (below, above)
  if first.toBinary64 negative = x then some first
  else if second.toBinary64 negative = x then some second
  else none

/-- The decimal without zeros at its end.  Every digit that is cut off uses up one
unit of `fuel`. -/
def stripFrom : Nat → Decimal → Decimal
  | 0, d => d
  | fuel + 1, d =>
    if d.digits != 0 && d.digits % 10 == 0 then stripFrom fuel ⟨d.digits / 10, d.exponent + 1⟩
    else d

def strip (d : Decimal) : Decimal := stripFrom (Nat.toDigits 10 d.digits).length d

/-- The shortest decimal that reads back to the finite number `x`, which has this
sign, mantissa and exponent. -/
def shortest (tie : Tie) (x : Binary64) (negative : Bool) (mantissa : Nat) (exponent : Int) :
    Decimal :=
  let d := exact mantissa exponent
  (((List.range' 1 17).findSome? (candidate? tie negative x d)).getD d).strip

/-- The digits and the number of them in front of the decimal point, which may be
negative or larger than their count. -/
def layout (d : Decimal) : Text × Int :=
  let digits := Text.ofNat d.digits
  (digits, digits.length + d.exponent)

/-- Written with a decimal point and no exponent, with a digit on either side of
the point. -/
def positional (d : Decimal) : Text :=
  let (digits, point) := d.layout
  if point ≤ 0 then "0.".toList ++ List.replicate (-point).toNat '0' ++ digits
  else
    let whole := digits.take point.toNat
    let part := digits.drop point.toNat
    whole ++ List.replicate (point.toNat - digits.length) '0' ++ '.' ::
      (if part.isEmpty then ['0'] else part)

/-- Written with one digit in front of the point and a signed exponent. -/
def scientific (d : Decimal) : Text :=
  let (digits, point) := d.layout
  let part := digits.drop 1
  let exponent := point - 1
  digits.take 1 ++ (if part.isEmpty then [] else '.' :: part) ++ 'e' ::
    (if exponent < 0 then '-' else '+') :: Text.ofNat exponent.natAbs

end Decimal

/-- The sign in front of a number's digits. -/
def signText (negative : Bool) : Text := if negative then ['-'] else []

/-- Reads an exponent mark with its digits, if there is one at all. -/
def exponent? (t : Text) : Option (Int × Text) :=
  match t with
  | [] => some (0, [])
  | c :: r =>
    if c != 'e' && c != 'E' then some (0, t)
    else
      let (negative, digits) := match r with
        | '-' :: r => (true, r)
        | '+' :: r => (false, r)
        | r => (false, r)
      let run := digits.takeWhile Char.isDigit
      if run.isEmpty then none
      else
        let n : Int := Text.digitValue run
        some (if negative then -n else n, digits.dropWhile Char.isDigit)

/-- Reads digits with an optional point among them and an optional exponent.  A
digit on one side of the point is enough. -/
def unsigned? (negative : Bool) (t : Text) : Option Binary64 :=
  let whole := t.takeWhile Char.isDigit
  let (part, rest) := match t.dropWhile Char.isDigit with
    | '.' :: r => (r.takeWhile Char.isDigit, r.dropWhile Char.isDigit)
    | r => ([], r)
  if whole.isEmpty && part.isEmpty then none
  else match exponent? rest with
    | some (exponent, []) =>
      some (ofDecimal negative (Text.digitValue (whole ++ part)) (exponent - part.length))
    | _ => none

/-- Reads a number from a text, or one of the words for the numbers that are not
finite, in any case. -/
def ofText? (t : Text) : Option Binary64 :=
  let (negative, rest) := match t with
    | '-' :: r => (true, r)
    | '+' :: r => (false, r)
    | r => (false, r)
  let word := rest.map Char.toLower
  if word = "inf".toList || word = "infinity".toList then some (infinity negative)
  else if word = "nan".toList then some (nan negative)
  else unsigned? negative rest

end Binary64
end Listing
