/-
Lines as HTML.

Every output line is one `div` with a span for each token.  Text only enters it
through `escape`, so whatever stands between two tags of the page holds no angle
bracket.
-/
import Listing.Line

namespace Listing
namespace Markup

/-- A character as it stands in text and in attribute values. -/
def escapeChar (c : Char) : Text :=
  if c = '&' then "&amp;".toList
  else if c = '<' then "&lt;".toList
  else if c = '>' then "&gt;".toList
  else if c = '"' then "&quot;".toList
  else if c = '\'' then "&#39;".toList
  else [c]

def escape (t : Text) : Text := t.flatMap escapeChar

/-- The style classes of a line. -/
def lineClass : LineKind → Text
  | .code => "line".toList
  | .comment => "line comment".toList
  | .border => "line decorative".toList
  | .blank => "line blank".toList

/-- A tag with a class. -/
def openTag (tag styleClass : Text) : Text :=
  '<' :: tag ++ " class=\"".toList ++ styleClass ++ "\">".toList

def closeTag (tag : Text) : Text := "</".toList ++ tag ++ ['>']

/-- A span of a class around text that is escaped already. -/
def spanElement (styleClass inner : Text) : Text :=
  openTag "span".toList styleClass ++ inner ++ closeTag "span".toList

/-- A token: plain text by itself, any other in a span of its class. -/
def token (s : Span) : Text :=
  match s.kind.styleClass? with
  | some styleClass => spanElement styleClass (escape s.text)
  | none => escape s.text

/-- The column of line numbers. -/
structure Gutter where
  width : Nat
  /-- A line that continues the one before it shows no number. -/
  number : Option Nat

/-- How many decimal digits a number has. -/
def digitCount (n : Nat) : Nat := if n < 10 then 1 else digitCount (n / 10) + 1

/-- Digits of the number of lines, but at least three. -/
def gutterWidth (lineCount : Nat) : Nat := max (digitCount lineCount) 3

/-- Spaces in front of a text up to a length. -/
def padStart (length : Nat) (t : Text) : Text := List.replicate (length - t.length) ' ' ++ t

def Gutter.text (g : Gutter) : Text :=
  padStart g.width (match g.number with
    | some n => Text.ofNat n
    | none => [])

/-- The line number in front of a line. -/
def gutter : Option Gutter → Text
  | some g => spanElement "ln".toList g.text
  | none => []

/-- A line of the page. -/
def line (source : Line) (g : Option Gutter) : Text :=
  openTag "div".toList (lineClass source.kind) ++ gutter g ++ source.spans.flatMap token
    ++ closeTag "div".toList

end Markup
end Listing
