/-
Binary64 numbers in exact arithmetic.

A number is its 64 bits, so every bit pattern is a number and two numbers are the
same when their bits are.  Operations work on the value `mantissa * 2 ^ exponent`
that the bits stand for, and `ofRatio` rounds an exact result to the nearest
number, to the one with an even mantissa if two are equally near.
-/

namespace Listing

/-- A binary64 number. -/
structure Binary64 where
  bits : UInt64
deriving DecidableEq

namespace Binary64

/-- What the bits of a number stand for. -/
inductive Value where
  | nan (negative : Bool)
  | infinite (negative : Bool)
  /-- The number `mantissa * 2 ^ exponent` with a sign. -/
  | finite (negative : Bool) (mantissa : Nat) (exponent : Int)
deriving DecidableEq

/-- The bit of the sign. -/
def signBit : Nat := 0x8000000000000000

/-- One unit of the exponent field: the fraction below it has 52 bits. -/
def fieldUnit : Nat := 0x10000000000000

/-- The number of values of the exponent field. -/
def fieldCount : Nat := 0x800

/-- Reads the sign, the exponent field and the fraction. -/
def value (x : Binary64) : Value :=
  let n := x.bits.toNat
  let negative := decide (signBit ≤ n)
  let field : Nat := n / fieldUnit % fieldCount
  let fraction := n % fieldUnit
  if field = 2047 then if fraction = 0 then .infinite negative else .nan negative
  else if field = 0 then .finite negative fraction (-1074)
  else .finite negative (fieldUnit + fraction) ((field : Int) - 1075)

/-- The number whose bits without the sign are `magnitude`. -/
def ofMagnitude (negative : Bool) (magnitude : Nat) : Binary64 :=
  ⟨UInt64.ofNat (if negative then signBit + magnitude else magnitude)⟩

/-- Bits of infinity without the sign; larger ones are not numbers. -/
def infiniteMagnitude : Nat := 2047 * fieldUnit

def zero (negative : Bool) : Binary64 := ofMagnitude negative 0

def infinity (negative : Bool) : Binary64 := ofMagnitude negative infiniteMagnitude

def nan (negative : Bool) : Binary64 := ofMagnitude negative (infiniteMagnitude + fieldUnit / 2)

def isFinite (x : Binary64) : Bool :=
  match x.value with
  | .finite .. => true
  | _ => false

def isNan (x : Binary64) : Bool :=
  match x.value with
  | .nan _ => true
  | _ => false

/-- The nearest whole number to `num / den`, the even one of two. -/
def divideToEven (num den : Nat) : Nat :=
  let q := num / den
  let r := num % den
  if den < 2 * r || (2 * r == den && q % 2 == 1) then q + 1 else q

/-- The fraction `num / den` divided by `2 ^ exponent`. -/
def scale (num den : Nat) (exponent : Int) : Nat × Nat :=
  (num * Nat.pow 2 (-exponent).toNat, den * Nat.pow 2 exponent.toNat)

/-- The exponent at which the mantissa of `num / den` has 53 binary digits, or as
many as the least exponent leaves. -/
def ratioExponent (num den : Nat) : Int :=
  let low := max ((num.log2 : Int) - den.log2 - 53) (-1074)
  let (n, d) := scale num den low
  if 2 * fieldUnit ≤ n / d then low + 1 else low

/-- The number nearest to `num / den`.  A mantissa that is rounded up to a power
of two carries into the exponent field by itself. -/
def ofRatio (negative : Bool) (num den : Nat) : Binary64 :=
  if num = 0 then zero negative
  else
    let exponent := ratioExponent num den
    let (n, d) := scale num den exponent
    let magnitude := (exponent + 1074).toNat * fieldUnit + divideToEven n d
    ofMagnitude negative (min magnitude infiniteMagnitude)

def ofNat (n : Nat) : Binary64 := ofRatio false n 1

def ofInt (n : Int) : Binary64 := ofRatio (decide (n < 0)) n.natAbs 1

/-- The number nearest to `digits * 10 ^ exponent`.  Far outside the range of
numbers the power of ten is not computed. -/
def ofDecimal (negative : Bool) (digits : Nat) (exponent : Int) : Binary64 :=
  let size := (Nat.toDigits 10 digits).length + exponent
  if digits = 0 || size < -330 then zero negative
  else if 330 < size then infinity negative
  else ofRatio negative (digits * Nat.pow 10 exponent.toNat) (Nat.pow 10 (-exponent).toNat)

/-- Product of finite numbers, rounded once. -/
def mul (x y : Binary64) : Binary64 :=
  match x.value, y.value with
  | .finite s m e, .finite s' m' e' =>
    ofRatio (s != s') (m * m' * Nat.pow 2 (e + e').toNat) (Nat.pow 2 (-(e + e')).toNat)
  | _, _ => nan false

/-- Quotient of finite numbers, rounded once. -/
def div (x y : Binary64) : Binary64 :=
  match x.value, y.value with
  | .finite s m e, .finite s' m' e' =>
    if m' = 0 then nan false
    else ofRatio (s != s') (m * Nat.pow 2 (e - e').toNat) (m' * Nat.pow 2 (e' - e).toNat)
  | _, _ => nan false

def neg (x : Binary64) : Binary64 := ⟨x.bits ^^^ 0x8000000000000000⟩

/-- The nearest whole number, of two the one further from zero. -/
def round? (x : Binary64) : Option Int :=
  match x.value with
  | .finite negative m e =>
    let (n, d) := scale m 1 (-e)
    let whole : Int := (2 * n + d) / (2 * d)
    some (if negative then -whole else whole)
  | _ => none

/-- Greater than zero. -/
def isPositive (x : Binary64) : Bool :=
  match x.value with
  | .finite negative m _ => !negative && m != 0
  | .infinite negative => !negative
  | .nan _ => false

end Binary64
end Listing
