/-
Comments as prose: the lines of a comment group joined into paragraphs and broken
again at the width of the page.

Each line of a group is prose, a border or blank.  Prose lines that follow each
other make one paragraph; borders stay lines of their own; blank lines between
them, however many, make one blank line.
-/
import Listing.Comment
import Listing.Wrap

namespace Listing
namespace Prose

/-- What one line of a comment group holds. -/
inductive Entry where
  | text (body : Text)
  | border (line : Line)
  | blank
deriving DecidableEq

/-- A comment line behind an indentation. -/
def commentLine (indent text : Text) : Line :=
  if indent.isEmpty then Line.comment text else ⟨[⟨.plain, indent⟩, ⟨.comment, text⟩]⟩

/-- Reads one line of a group that is set behind `indent`.  A border that is not
inside comment markers keeps its own indentation. -/
def classify (g : Grammar) (indent : Text) (width : Nat) (raw : Text) : Entry :=
  if Text.allBlank raw then .blank
  else match Border.fill? raw width with
    | some border => .border (commentLine (Text.indent border) (Text.trimStart border))
    | none =>
      let body := Comment.body g raw
      if body.isEmpty then .blank
      else match Border.fill? body (width - Text.width indent) with
        | some border => .border (commentLine indent border)
        | none => .text body

/-- The indentation of a group: that of its first line with anything on it, if it
leaves room for a whole break window. -/
def groupIndent (width : Nat) (raws : List Text) : Text :=
  match raws.find? (!Text.allBlank ·) with
  | none => []
  | some raw =>
    if Text.width (Text.indent raw) + Wrap.window ≤ width then Text.indent raw else []

/-- A part of a group as it will be shown. -/
inductive Block where
  | paragraph (bodies : List Text)
  | border (line : Line)
  | gap
deriving DecidableEq

/-- Puts a line of prose in front of blocks: into the paragraph they start with, or
else as a paragraph of its own. -/
def Block.consText (body : Text) : List Block → List Block
  | .paragraph bodies :: rest => .paragraph (body :: bodies) :: rest
  | blocks => .paragraph [body] :: blocks

/-- The blocks of a group. -/
def gather : List Entry → List Block
  | [] => []
  | .text body :: rest => Block.consText body (gather rest)
  | .border line :: rest => .border line :: gather rest
  | .blank :: rest => .gap :: gather rest

/-- The words of a paragraph with one space between them. -/
def joined (bodies : List Text) : Text :=
  Text.join [' '] (Text.words (Text.join [' '] bodies))

/-- The lines of a paragraph. -/
def paragraphLines (indent : Text) (width : Nat) (bodies : List Text) : List Line :=
  (Wrap.line (joined bodies) (width - Text.width indent)).map (commentLine indent)

/-- There is something on the line. -/
def isWritten (line : Line) : Bool := !line.spans.isEmpty

/-- The lines of blocks.  A gap shows only after a line with something on it, and
`written` says whether the line before the blocks is one. -/
def blockLines (indent : Text) (width : Nat) (written : Bool) : List Block → List Line
  | [] => []
  | .paragraph bodies :: rest =>
    let lines := paragraphLines indent width bodies
    lines ++ blockLines indent width ((lines.getLast?.map isWritten).getD written) rest
  | .border line :: rest => line :: blockLines indent width (isWritten line) rest
  | .gap :: rest =>
    if written then Line.blank :: blockLines indent width false rest
    else blockLines indent width false rest

/-- The lines without the blank ones at their end. -/
def dropBlankEnd (lines : List Line) : List Line :=
  (lines.reverse.dropWhile (!isWritten ·)).reverse

/-- Sets the lines of a comment group as prose. -/
def reflow (g : Grammar) (width : Nat) (raws : List Text) : List Line :=
  let indent := groupIndent width raws
  let blocks := gather (raws.map (classify g indent width))
  dropBlankEnd (blockLines indent width false blocks)

end Prose
end Listing
