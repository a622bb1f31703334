/-
Border lines: a line of three or more copies of one border character.

A border separates sections of a source text.  It is stretched or shrunk to the
page and never wrapped, and stretching it a second time changes nothing.
-/
import Listing.Text.Column

namespace Listing
namespace Border

/-- Characters a border may be drawn with. -/
def characters : List Char := ['=', '-', '*', '_', '#', '~']

/-- The shortest run that makes a border. -/
def minRun : Nat := 3

/-- The character of a border line, or none if the line is not one.  White space
around the run does not count. -/
def char? (t : Text) : Option Char :=
  match Text.trim t with
  | [] => none
  | c :: r =>
    if characters.contains c && r.all (· == c) && minRun ≤ r.length + 1 then some c else none

/-- Length of the run that fills `width` columns after an indentation. -/
def runLength (indent : Text) (width : Nat) : Nat := max (width - Text.width indent) minRun

/-- The border line drawn again to fill `width` columns after its own
indentation.  The run never gets so short that the line stops being a border. -/
def fill? (t : Text) (width : Nat) : Option Text :=
  (char? t).map fun c =>
    Text.indent t ++ List.replicate (runLength (Text.indent t) width) c

end Border
end Listing
