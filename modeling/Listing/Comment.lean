/-
The prose of a comment: what is left of a comment line without its markers.
-/
import Listing.Border
import Listing.Grammar.Basic

namespace Listing
namespace Comment

/-- The text after a line comment marker, without repeats of the marker's
characters and without one exclamation mark. -/
def afterMarker (m : Marker) (rest : Text) : Text :=
  match rest.dropWhile m.text.contains with
  | '!' :: r => r
  | r => r

/-- The text between the delimiters of a block comment.  A line inside the comment
may have neither, and a star in front of its prose is not part of it unless the
line is a border. -/
def insideBlock (block : BlockComment) (t : Text) : Text :=
  let opened := (block.opener.after? t).getD t
  let body := (Text.before? block.closer.text opened).getD opened
  if (Border.char? body).isSome then body
  else (Text.trimStart body).dropWhile (· == '*')

/-- The prose of a comment line. -/
def body (g : Grammar) (t : Text) : Text :=
  let t := Text.trim t
  match g.lineComment? t with
  | some m => Text.trim (afterMarker m ((m.after? t).getD t))
  | none =>
    match g.blockComment with
    | some block => Text.trim (insideBlock block t)
    | none => t

end Comment
end Listing
