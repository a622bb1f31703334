/-
Reading JSON texts.

The reader follows the grammar strictly: no comments, no trailing commas, no signs
or zeros in front of a number that the grammar does not give, and nothing but
white space around the value.  It returns the value it read and the text after
it.  Containers are nested at most `maxDepth` deep, and the depth left is what the
recursion runs on.
-/
import Listing.Json.Basic

namespace Listing
namespace Json

/-- The deepest nesting of arrays and objects. -/
def maxDepth : Nat := 127

def isSpace (c : Char) : Bool := c == ' ' || c == '\t' || c == '\n' || c == '\r'

def skipSpace (t : Text) : Text := t.dropWhile isSpace

/-- The value of a hexadecimal digit. -/
def hexDigit? (c : Char) : Option Nat :=
  if c.isDigit then some (c.toNat - '0'.toNat)
  else if 'a' ≤ c && c ≤ 'f' then some (c.toNat - 'a'.toNat + 10)
  else if 'A' ≤ c && c ≤ 'F' then some (c.toNat - 'A'.toNat + 10)
  else none

/-- Reads `count` hexadecimal digits onto `value`. -/
def hexDigits? (value : Nat) : Nat → Text → Option (Nat × Text)
  | 0, t => some (value, t)
  | _ + 1, [] => none
  | count + 1, c :: r =>
    match hexDigit? c with
    | some d => hexDigits? (16 * value + d) count r
    | none => none

theorem hexDigits?_length_le {value count n : Nat} {t rest : Text}
    (h : hexDigits? value count t = some (n, rest)) : rest.length ≤ t.length := by
  induction count generalizing value t with
  | zero =>
    rw [hexDigits?] at h
    obtain ⟨-, rfl⟩ := Prod.mk.inj (Option.some.inj h)
    exact Nat.le_refl _
  | succ count ih =>
    cases t with
    | nil => simp [hexDigits?] at h
    | cons c r =>
      rw [hexDigits?] at h
      split at h
      · exact Nat.le_trans (ih h) (Nat.le_succ _)
      · simp at h

/-- Reads the code unit after a backslash and a `u`.  Two surrogates in the right
order are one character; a surrogate by itself is an error. -/
def unicodeEscape? (t : Text) : Option (Char × Text) :=
  match hexDigits? 0 4 t with
  | none => none
  | some (n, r) =>
    if n < 0xD800 || 0xDFFF < n then some (Char.ofNat n, r)
    else if 0xDC00 ≤ n then none
    else match r with
      | '\\' :: 'u' :: r =>
        match hexDigits? 0 4 r with
        | none => none
        | some (low, r) =>
          if low < 0xDC00 || 0xDFFF < low then none
          else some (Char.ofNat (0x10000 + (n - 0xD800) * 0x400 + (low - 0xDC00)), r)
      | _ => none

/-- Reads what follows a backslash. -/
def escape? : Text → Option (Char × Text)
  | [] => none
  | c :: r =>
    if c = '"' || c = '\\' || c = '/' then some (c, r)
    else if c = 'b' then some ('\x08', r)
    else if c = 'f' then some ('\x0c', r)
    else if c = 'n' then some ('\n', r)
    else if c = 'r' then some ('\r', r)
    else if c = 't' then some ('\t', r)
    else if c = 'u' then unicodeEscape? r
    else none

theorem unicodeEscape?_length_le {t rest : Text} {c : Char}
    (h : unicodeEscape? t = some (c, rest)) : rest.length ≤ t.length := by
  unfold unicodeEscape? at h
  split at h
  · simp at h
  · rename_i hn
    have hle := hexDigits?_length_le hn
    split at h
    · obtain ⟨-, rfl⟩ := Prod.mk.inj (Option.some.inj h)
      exact hle
    · split at h
      · simp at h
      · split at h
        · split at h
          · simp at h
          · rename_i hlow
            have hle' := hexDigits?_length_le hlow
            split at h
            · simp at h
            · obtain ⟨-, rfl⟩ := Prod.mk.inj (Option.some.inj h)
              simp only [List.length_cons] at hle
              omega
        · simp at h

theorem escape?_length_le {t rest : Text} {c : Char} (h : escape? t = some (c, rest)) :
    rest.length ≤ t.length := by
  cases t with
  | nil => simp [escape?] at h
  | cons d r =>
    have hcons : r.length ≤ (d :: r).length := Nat.le_succ _
    simp only [escape?] at h
    repeat' split at h
    all_goals try (obtain ⟨-, rfl⟩ := Prod.mk.inj (Option.some.inj h); exact hcons)
    · exact Nat.le_trans (unicodeEscape?_length_le h) hcons
    · simp at h

/-- Reads a string after its opening quote, up to its closing one. -/
def stringBody? (t : Text) : Option (Text × Text) :=
  match t with
  | [] => none
  | c :: r =>
    if c = '"' then some ([], r)
    else if c = '\\' then
      match _h : escape? r with
      | none => none
      | some (d, rest) =>
        match stringBody? rest with
        | some (body, rest) => some (d :: body, rest)
        | none => none
    else if c < ' ' then none
    else match stringBody? r with
      | some (body, rest) => some (c :: body, rest)
      | none => none
termination_by t.length
decreasing_by
  · have := escape?_length_le _h
    simp only [List.length_cons]
    omega
  · simp only [List.length_cons]
    omega

/-- A number text taken apart: whether it is negative, the digits of its whole
part, those after the point, and its exponent. -/
structure NumberText where
  negative : Bool
  whole : Text
  part : Text
  exponent : Option Int

/-- Digits gathered into a number of 64 bits.  The digits of the whole part that
do not fit are counted, and those after the point are left out. -/
structure Significand where
  value : Nat
  exponent : Int

namespace Significand

/-- Takes the digits of the whole part. -/
def ofWhole (value : Nat) : Text → Significand
  | [] => ⟨value, 0⟩
  | c :: r =>
    let next := 10 * value + (c.toNat - '0'.toNat)
    if next ≤ Text.maxWord then ofWhole next r else ⟨value, (c :: r).length⟩

/-- Takes digits after the point as long as they fit. -/
def addPart (s : Significand) : Text → Significand
  | [] => s
  | c :: r =>
    let next := 10 * s.value + (c.toNat - '0'.toNat)
    if next ≤ Text.maxWord then addPart ⟨next, s.exponent - 1⟩ r else s

end Significand

/-- The powers of ten that a number is scaled by at one time reach up to this. -/
def maxPower : Nat := 308

/-- Divides by a power of ten, by one of the largest at a time. -/
def scaleDown : Nat → Binary64 → Nat → Binary64
  | 0, _, _ => Binary64.zero false
  | rounds + 1, x, power =>
    if power ≤ maxPower then x.div (Binary64.ofDecimal false 1 power)
    else scaleDown rounds (x.div (Binary64.ofDecimal false 1 maxPower)) (power - maxPower)

/-- The significand as a number, scaled by the power of ten.  Scaling rounds a
second time.  A number out of range is an error, one that is too small is zero,
which is reached after four rounds at most. -/
def scaled? (s : Significand) : Option Binary64 :=
  let x := Binary64.ofNat s.value
  if s.exponent < 0 then some (scaleDown 4 x s.exponent.natAbs)
  else if s.value = 0 then some x
  else if maxPower < s.exponent.natAbs then none
  else
    let y := x.mul (Binary64.ofDecimal false 1 s.exponent)
    if y.isFinite then some y else none

/-- The greatest exponent that is taken into account. -/
def maxExponent : Nat := 0x7FFFFFFF

/-- The value of a number text.  A whole number stays one if it fits, except that
minus zero is kept as it is. -/
def NumberText.value? (n : NumberText) : Option Json :=
  let signed (x : Binary64) : Json := .real (if n.negative then x.neg else x)
  let whole := Text.digitValue n.whole
  if n.part.isEmpty && n.exponent.isNone && whole ≤ Text.maxWord then
    if !n.negative then some (.integer whole)
    else if whole = 0 || 0x8000000000000000 < whole then some (signed (Binary64.ofNat whole))
    else some (.integer (-whole))
  else
    let s := (Significand.ofWhole 0 n.whole).addPart n.part
    let exponent := n.exponent.getD 0
    if maxExponent < exponent.natAbs then
      if s.value != 0 && 0 < exponent then none else some (signed (Binary64.zero false))
    else (scaled? ⟨s.value, s.exponent + exponent⟩).map signed

/-- Reads a number text: no needless zero in front, and a digit on either side of
a point. -/
def numberText? (t : Text) : Option (NumberText × Text) :=
  let (negative, t) := match t with
    | '-' :: r => (true, r)
    | r => (false, r)
  let whole := t.takeWhile Char.isDigit
  let rest := t.dropWhile Char.isDigit
  if whole.isEmpty || (whole.head? == some '0' && 1 < whole.length) then none
  else
    let (point, part, rest) := match rest with
      | '.' :: r => (true, r.takeWhile Char.isDigit, r.dropWhile Char.isDigit)
      | r => (false, [], r)
    if point && part.isEmpty then none
    else
      let marked := rest.head?.any fun c => c == 'e' || c == 'E'
      match Binary64.exponent? rest with
      | none => none
      | some (exponent, rest) =>
        some (⟨negative, whole, part, if marked then some exponent else none⟩, rest)

/-- Reads a number. -/
def number (t : Text) : Option (Json × Text) :=
  match numberText? t with
  | none => none
  | some (n, rest) => n.value?.map fun v => (v, rest)

/-- A reader of one value, which returns the text after it. -/
abbrev Reader := Text → Option (Json × Text)

/-- Reads the items of an array from its first one on.  There are fewer items than
`fuel`. -/
def items? (read : Reader) : Nat → Text → Option (List Json × Text)
  | 0, _ => none
  | fuel + 1, t =>
    match read (skipSpace t) with
    | none => none
    | some (v, rest) =>
      match skipSpace rest with
      | ',' :: rest =>
        match items? read fuel rest with
        | some (vs, rest) => some (v :: vs, rest)
        | none => none
      | ']' :: rest => some ([v], rest)
      | _ => none

/-- Reads the fields of an object from its first one on.  There are fewer fields
than `fuel`. -/
def fields (read : Reader) : Nat → Text → Option (List (Text × Json) × Text)
  | 0, _ => none
  | fuel + 1, t =>
    match skipSpace t with
    | '"' :: rest =>
      match stringBody? rest with
      | none => none
      | some (name, rest) =>
        match skipSpace rest with
        | ':' :: rest =>
          match read (skipSpace rest) with
          | none => none
          | some (v, rest) =>
            match skipSpace rest with
            | ',' :: rest =>
              match fields read fuel rest with
              | some (fs, rest) => some ((name, v) :: fs, rest)
              | none => none
            | '}' :: rest => some ([(name, v)], rest)
            | _ => none
        | _ => none
    | _ => none

/-- Reads a value that starts right here, with `depth` levels of nesting left.
`fuel` is at least the length of the text. -/
def valueAt (fuel : Nat) : Nat → Reader
  | depth, t =>
    match t with
    | [] => none
    | c :: r =>
      if c = '"' then (stringBody? r).map fun (s, rest) => (.text s, rest)
      else if c = '[' then
        match depth with
        | 0 => none
        | depth + 1 =>
          match skipSpace r with
          | ']' :: rest => some (.array [], rest)
          | _ => (items? (valueAt fuel depth) fuel r).map fun (vs, rest) => (.array vs, rest)
      else if c = '{' then
        match depth with
        | 0 => none
        | depth + 1 =>
          match skipSpace r with
          | '}' :: rest => some (.object [], rest)
          | _ => (fields (valueAt fuel depth) fuel r).map fun (fs, rest) => (ofFields fs, rest)
      else match Text.after? "null".toList t with
        | some rest => some (.null, rest)
        | none =>
          match Text.after? "true".toList t with
          | some rest => some (.bool true, rest)
          | none =>
            match Text.after? "false".toList t with
            | some rest => some (.bool false, rest)
            | none => number t

/-- Reads a text that holds one value and nothing else. -/
def ofText? (t : Text) : Option Json :=
  match valueAt t.length maxDepth (skipSpace t) with
  | some (v, rest) => if (skipSpace rest).isEmpty then some v else none
  | none => none

end Json
end Listing
