/-
Which settings a profile takes: the bounds of sizes, the characters a font list may
hold, and the forms of colours.

What is valid here can stand in a style sheet without ending the value it stands
in or the style sheet itself.
-/
import Listing.Number.Binary64
import Listing.Style.Profile

namespace Listing
namespace Valid

/-- A whole number brought between two bounds. -/
def clampInt (low high : Nat) (n : Int) : Nat := max low (min n.toNat high)

/-- A page width: rounded to whole columns and clamped.  What is not finite is no
width. -/
def width? (x : Binary64) : Option Nat :=
  x.round?.map (clampInt Profile.minWidth Profile.maxWidthLimit)

/-- A font size: rounded to whole pixels and clamped.  It has to be finite and
greater than zero. -/
def fontSize? (x : Binary64) : Option Nat :=
  if x.isPositive then x.round?.map (clampInt Profile.minFontSize Profile.maxFontSize)
  else none

/-- Characters that would end a style value or a style sheet. -/
def unsafeFontChars : List Char := [';', '{', '}', '<', '>']

/-- A list of font families without white space around it. -/
def font? (t : Text) : Option Text :=
  let t := Text.trim t
  if t.isEmpty || t.any unsafeFontChars.contains then none else some t

def isHexDigit (c : Char) : Bool :=
  c.isDigit || ('a' ≤ c && c ≤ 'f') || ('A' ≤ c && c ≤ 'F')

/-- Characters of the arguments of a colour function. -/
def isArgumentChar (c : Char) : Bool :=
  c.isDigit || ['.', ',', '%', '/', '+', '-'].contains c || Text.isBlank c

/-- The colour functions, up to their opening parenthesis. -/
def functionNames : List Text :=
  ["rgb(".toList, "rgba(".toList, "hsl(".toList, "hsla(".toList]

/-- The arguments of a colour function after its opening parenthesis. -/
def isArguments (t : Text) : Bool :=
  match t.reverse with
  | ')' :: r => !r.isEmpty && r.all isArgumentChar
  | _ => false

/-- A colour: a hash with three, four, six or eight hexadecimal digits, a colour
function, or a name. -/
def isColour (t : Text) : Bool :=
  match t with
  | [] => false
  | '#' :: digits => [3, 4, 6, 8].contains digits.length && digits.all isHexDigit
  | _ =>
    t.all Char.isAlpha ||
      functionNames.any fun name => (Text.after? name t).any isArguments

end Valid
end Listing
