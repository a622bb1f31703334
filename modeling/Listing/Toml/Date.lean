/-
Dates and times of TOML documents.

A date is read into its numbers and written back from them, so that each date has
one written form: a capital `T` between date and time, no zeros at the end of a
fraction, and no minus sign on an offset of zero.
-/
import Listing.Json.Basic

namespace Listing
namespace Toml

/-- A day of the calendar. -/
structure Date where
  year : Nat
  month : Nat
  day : Nat
deriving DecidableEq

/-- A time of day. -/
structure Time where
  hour : Nat
  minute : Nat
  second : Nat
  /-- The digits of the fraction of a second. -/
  fraction : Text
deriving DecidableEq

/-- The distance from universal time. -/
inductive Offset where
  | universal
  | minutes (n : Int)
deriving DecidableEq

/-- A date, a time, or both with or without an offset. -/
inductive DateTime where
  | date (date : Date)
  | time (time : Time)
  | moment (date : Date) (time : Time) (offset : Option Offset)
deriving DecidableEq

/-! ## Writing -/

/-- A number in at least so many digits. -/
def digitsText (count n : Nat) : Text :=
  List.replicate (count - (Text.ofNat n).length) '0' ++ Text.ofNat n

def Date.text (d : Date) : Text :=
  digitsText 4 d.year ++ '-' :: digitsText 2 d.month ++ '-' :: digitsText 2 d.day

def Time.text (t : Time) : Text :=
  digitsText 2 t.hour ++ ':' :: digitsText 2 t.minute ++ ':' :: digitsText 2 t.second
    ++ if t.fraction.isEmpty then [] else '.' :: t.fraction

def Offset.text : Offset → Text
  | .universal => ['Z']
  | .minutes n =>
    (if n < 0 then '-' else '+') ::
      digitsText 2 (n.natAbs / 60) ++ ':' :: digitsText 2 (n.natAbs % 60)

def DateTime.text : DateTime → Text
  | .date d => d.text
  | .time t => t.text
  | .moment d t offset => d.text ++ 'T' :: t.text ++ ((offset.map Offset.text).getD [])

/-- The name under which a date stands in the value of a document. -/
def dateField : Text := "$__toml_private_datetime".toList

/-- A date as a value. -/
def DateTime.toJson (d : DateTime) : Json := .object [(dateField, .text d.text)]

/-! ## Reading -/

/-- Two digits between bounds. -/
def twoDigits? (low high : Nat) (t : Text) : Option (Nat × Text) :=
  match t with
  | a :: b :: r =>
    if a.isDigit && b.isDigit then
      let n := Text.digitValue [a, b]
      if low ≤ n && n ≤ high then some (n, r) else none
    else none
  | _ => none

def isLeapYear (year : Nat) : Bool := year % 4 == 0 && (year % 100 != 0 || year % 400 == 0)

def daysIn (year month : Nat) : Nat :=
  if month = 2 then if isLeapYear year then 29 else 28
  else if [4, 6, 9, 11].contains month then 30
  else 31

/-- A date, and what follows it. -/
def date? (t : Text) : Option (Date × Text) :=
  let digits := t.take 4
  if digits.length != 4 || !digits.all Char.isDigit then none
  else do
    let year := Text.digitValue digits
    let r ← Text.after? ['-'] (t.drop 4)
    let (month, r) ← twoDigits? 1 12 r
    let r ← Text.after? ['-'] r
    let (day, r) ← twoDigits? 1 (daysIn year month) r
    return (⟨year, month, day⟩, r)

/-- The digits of a fraction of a second that count: nine at most, and no zeros at
their end. -/
def fractionDigits (digits : Text) : Text :=
  ((digits.take 9).reverse.dropWhile (· == '0')).reverse

/-- A fraction of a second, and what follows it. -/
def fraction? (t : Text) : Option (Text × Text) :=
  match t with
  | '.' :: r =>
    let digits := r.takeWhile Char.isDigit
    if digits.isEmpty then none else some (fractionDigits digits, r.dropWhile Char.isDigit)
  | _ => some ([], t)

/-- A time of day, and what follows it. -/
def time? (t : Text) : Option (Time × Text) := do
  let (hour, r) ← twoDigits? 0 23 t
  let r ← Text.after? [':'] r
  let (minute, r) ← twoDigits? 0 59 r
  let r ← Text.after? [':'] r
  let (second, r) ← twoDigits? 0 60 r
  let (fraction, r) ← fraction? r
  return (⟨hour, minute, second, fraction⟩, r)

/-- The offset that a text is, less than a day; an empty text is none. -/
def offset? (t : Text) : Option (Option Offset) :=
  match t with
  | [] => some none
  | ['Z'] => some (some .universal)
  | ['z'] => some (some .universal)
  | c :: r =>
    if c = '+' || c = '-' then do
      let (hours, r) ← twoDigits? 0 23 r
      let r ← Text.after? [':'] r
      let (minutes, r) ← twoDigits? 0 59 r
      let total : Int := (60 * hours + minutes : Nat)
      if r.isEmpty then return some (.minutes (if c = '-' then -total else total)) else none
    else none

/-- The date that a text is from end to end. -/
def dateTime? (t : Text) : Option DateTime :=
  match date? t with
  | some (date, []) => some (.date date)
  | some (date, c :: r) =>
    if c = 'T' || c = 't' || c = ' ' then do
      let (time, r) ← time? r
      let offset ← offset? r
      return .moment date time offset
    else none
  | none =>
    match time? t with
    | some (time, []) => some (.time time)
    | _ => none

end Toml
end Listing
