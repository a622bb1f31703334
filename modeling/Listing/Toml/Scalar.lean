/-
Strings, numbers and truth values of TOML documents.

Each reader here takes the text after what marks its kind and returns the value
with the text that follows.  A number, a date or a word is read as one run of
characters that has to be spelled right from end to end.
-/
import Listing.Json.Reader
import Listing.Toml.Date

namespace Listing
namespace Toml

def isSpace (c : Char) : Bool := c == ' ' || c == '\t'

def skipSpace (t : Text) : Text := t.dropWhile isSpace

/-- Characters that a comment or a string may hold as they are. -/
def isPlain (c : Char) : Bool := c == '\t' || (0x20 ≤ c.toNat && c.toNat != 0x7F)

/-- The text after a line ending. -/
def newline? : Text → Option Text
  | '\n' :: r => some r
  | '\r' :: '\n' :: r => some r
  | _ => none

/-- A character given by its code point in hexadecimal digits. -/
def codePoint? (count : Nat) (t : Text) : Option (Char × Text) :=
  match Json.hexDigits? 0 count t with
  | some (n, rest) => if n.isValidChar then some (Char.ofNat n, rest) else none
  | none => none

/-- Reads what follows a backslash. -/
def escape? : Text → Option (Char × Text)
  | [] => none
  | c :: r =>
    if c = '"' || c = '\\' then some (c, r)
    else if c = 'b' then some ('\x08', r)
    else if c = 't' then some ('\t', r)
    else if c = 'n' then some ('\n', r)
    else if c = 'f' then some ('\x0c', r)
    else if c = 'r' then some ('\r', r)
    else if c = 'u' then codePoint? 4 r
    else if c = 'U' then codePoint? 8 r
    else none

/-- Reads a string on one line after its opening double quote.  `fuel` is more than
the characters that are left. -/
def basicBody? : Nat → Text → Option (Text × Text)
  | 0, _ => none
  | _ + 1, [] => none
  | fuel + 1, c :: r =>
    if c = '"' then some ([], r)
    else if c = '\\' then
      match escape? r with
      | none => none
      | some (d, rest) => (basicBody? fuel rest).map fun (body, rest) => (d :: body, rest)
    else if isPlain c then (basicBody? fuel r).map fun (body, rest) => (c :: body, rest)
    else none

/-- Reads a string on one line after its opening single quote. -/
def literalBody? (t : Text) : Option (Text × Text) :=
  let body := t.takeWhile fun c => isPlain c && c != '\''
  match t.dropWhile fun c => isPlain c && c != '\'' with
  | '\'' :: rest => some (body, rest)
  | _ => none

/-- A run of quotes inside or at the end of a string over several lines: fewer than
three are part of it, and of three to five the last three close it. -/
def quoteRun (quote : Char) (t : Text) : Text × Option Text :=
  let run := t.takeWhile (· == quote)
  let n := min run.length 5
  if n < 3 then (run, none) else (run.take (n - 3), some (t.drop n))

/-- Skips white space and line endings. -/
def skipBreaks : Text → Text
  | [] => []
  | c :: r =>
    if isSpace c || c = '\n' then skipBreaks r
    else match c, r with
      | '\r', '\n' :: r => skipBreaks r
      | _, _ => c :: r

/-- Reads a string over several lines after its opening.  A backslash at the end of
a line takes the line ending and all white space after it away. -/
def longBasicBody? : Nat → Text → Option (Text × Text)
  | 0, _ => none
  | _ + 1, [] => none
  | fuel + 1, c :: r =>
    if c = '"' then
      match quoteRun '"' (c :: r) with
      | (body, some rest) => some (body, rest)
      | (body, none) =>
        (longBasicBody? fuel ((c :: r).drop body.length)).map fun (more, rest) =>
          (body ++ more, rest)
    else if c = '\\' then
      match newline? (skipSpace r) with
      | some rest => longBasicBody? fuel (skipBreaks rest)
      | none =>
        match escape? r with
        | none => none
        | some (d, rest) => (longBasicBody? fuel rest).map fun (body, rest) => (d :: body, rest)
    else match newline? (c :: r) with
      | some rest => (longBasicBody? fuel rest).map fun (body, rest) => ('\n' :: body, rest)
      | none =>
        if isPlain c then (longBasicBody? fuel r).map fun (body, rest) => (c :: body, rest)
        else none

/-- Reads a string over several lines in which nothing is escaped. -/
def longLiteralBody? : Nat → Text → Option (Text × Text)
  | 0, _ => none
  | _ + 1, [] => none
  | fuel + 1, c :: r =>
    if c = '\'' then
      match quoteRun '\'' (c :: r) with
      | (body, some rest) => some (body, rest)
      | (body, none) =>
        (longLiteralBody? fuel ((c :: r).drop body.length)).map fun (more, rest) =>
          (body ++ more, rest)
    else match newline? (c :: r) with
      | some rest => (longLiteralBody? fuel rest).map fun (body, rest) => ('\n' :: body, rest)
      | none =>
        if isPlain c then (longLiteralBody? fuel r).map fun (body, rest) => (c :: body, rest)
        else none

/-- Reads a string with its quotes.  A line ending right after the opening of a
string over several lines does not count.  `fuel` is at least the length of the
text. -/
def string? (fuel : Nat) (t : Text) : Option (Text × Text) :=
  match t with
  | '"' :: '"' :: '"' :: r => longBasicBody? fuel ((newline? r).getD r)
  | '\'' :: '\'' :: '\'' :: r => longLiteralBody? fuel ((newline? r).getD r)
  | '"' :: r => basicBody? fuel r
  | '\'' :: r => literalBody? r
  | _ => none

/-- Digits with single underscores between them, without the underscores. -/
def digitRun? (isDigit : Char → Bool) : Text → Option Text
  | [] => none
  | [c] => if isDigit c then some [c] else none
  | c :: '_' :: r => if isDigit c then (digitRun? isDigit r).map (c :: ·) else none
  | c :: r => if isDigit c then (digitRun? isDigit r).map (c :: ·) else none

/-- The greatest whole number. -/
def maxInteger : Nat := 0x7FFFFFFFFFFFFFFF

/-- The value of digits in a base. -/
def valueOf (base : Nat) (digits : Text) : Nat :=
  digits.foldl (fun n c => base * n + (Json.hexDigit? c).getD 0) 0

/-- A whole number in base sixteen, eight or two, after its mark. -/
def based? (base : Nat) (t : Text) : Option Json :=
  match digitRun? (fun c => (Json.hexDigit? c).any (· < base)) t with
  | some digits =>
    if valueOf base digits ≤ maxInteger then some (.integer (valueOf base digits)) else none
  | none => none

/-- A sign and what follows it. -/
def sign (t : Text) : Bool × Text :=
  match t with
  | '-' :: r => (true, r)
  | '+' :: r => (false, r)
  | r => (false, r)

/-- The whole part of a number: no needless zero in front. -/
def wholePart? (t : Text) : Option Text :=
  match digitRun? Char.isDigit t with
  | some digits => if digits.head? == some '0' && 1 < digits.length then none else some digits
  | none => none

def integer? (t : Text) : Option Json :=
  let (negative, t) := sign t
  match wholePart? t with
  | none => none
  | some digits =>
    let n := Text.digitValue digits
    if negative then if n ≤ maxInteger + 1 then some (.integer (-n)) else none
    else if n ≤ maxInteger then some (.integer n) else none

/-- A number that is not finite cannot be told from a missing value later on. -/
def ofBinary64 (x : Binary64) : Json := if x.isFinite then .real x else .null

/-- A number with a point or an exponent.  One that is too large is an error. -/
def float? (t : Text) : Option Json :=
  let (negative, t) := sign t
  if t = "inf".toList || t = "nan".toList then some .null
  else if !t.any fun c => c == '.' || c == 'e' || c == 'E' then none
  else
    let mantissa := t.takeWhile fun c => c != 'e' && c != 'E'
    let whole := mantissa.takeWhile (· != '.')
    let exponent? : Option Int := match t.dropWhile fun c => c != 'e' && c != 'E' with
      | [] => some 0
      | _ :: r =>
        let (down, digits) := sign r
        (digitRun? Char.isDigit digits).map fun digits =>
          if down then -(Text.digitValue digits : Int) else Text.digitValue digits
    let part? : Option Text := match mantissa.dropWhile (· != '.') with
      | [] => some []
      | _ :: r => digitRun? Char.isDigit r
    match wholePart? whole, part?, exponent? with
    | some whole, some part, some exponent =>
      let x := Binary64.ofDecimal negative (Text.digitValue (whole ++ part))
        (exponent - part.length)
      if x = Binary64.infinity false then none else some (ofBinary64 x)
    | _, _, _ => none

/-- Characters of numbers, dates and words. -/
def isRunChar (c : Char) : Bool :=
  c.isAlphanum || ['+', '-', '_', '.', ':'].contains c

/-- A number, date or word and what follows it.  A space may stand between a date
and a time. -/
def run (t : Text) : Text × Text :=
  let first := t.takeWhile isRunChar
  let rest := t.dropWhile isRunChar
  match rest with
  | ' ' :: a :: b :: ':' :: _ =>
    if (date? first).any (·.2.isEmpty) && a.isDigit && b.isDigit then
      (first ++ ' ' :: (rest.drop 1).takeWhile isRunChar, (rest.drop 1).dropWhile isRunChar)
    else (first, rest)
  | _ => (first, rest)

/-- The value of a run. -/
def runValue? (t : Text) : Option Json :=
  if t = "true".toList then some (.bool true)
  else if t = "false".toList then some (.bool false)
  else match Text.after? "0x".toList t, Text.after? "0o".toList t, Text.after? "0b".toList t with
    | some r, _, _ => based? 16 r
    | _, some r, _ => based? 8 r
    | _, _, some r => based? 2 r
    | _, _, _ =>
      match dateTime? t with
      | some d => some d.toJson
      | none =>
        match integer? t with
        | some v => some v
        | none => float? t

end Toml
end Listing
