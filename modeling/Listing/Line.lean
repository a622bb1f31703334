/-
Lines made of classified spans, and what kind of line they make.
-/
import Listing.Border
import Listing.Token

namespace Listing

/-- A stretch of one line that belongs to one lexical class. -/
structure Span where
  kind : TokenClass
  text : Text
deriving DecidableEq

namespace Span

def isComment (s : Span) : Bool := s.kind == .comment

/-- White space between tokens. -/
def isBlank (s : Span) : Bool := s.kind == .plain && Text.allBlank s.text

/-- The span as a list, empty if its text is. -/
def unlessEmpty (kind : TokenClass) (text : Text) : List Span :=
  if text.isEmpty then [] else [⟨kind, text⟩]

end Span

/-- A line is its spans from left to right. -/
structure Line where
  spans : List Span
deriving DecidableEq

/-- What a line holds as a whole. -/
inductive LineKind where
  | code
  | comment
  | border
  | blank
deriving DecidableEq

namespace Line

/-- The line with nothing on it. -/
def blank : Line := ⟨[]⟩

/-- A line that is one comment. -/
def comment (text : Text) : Line := ⟨Span.unlessEmpty .comment text⟩

def text (line : Line) : Text := line.spans.flatMap Span.text

/-- Columns the line takes. -/
def width (line : Line) : Nat := Text.width line.text

/-- One comment and apart from it only white space. -/
def isCommentOnly (line : Line) : Bool :=
  match line.spans.filter (!·.isBlank) with
  | [s] => s.isComment
  | _ => false

/-- A border counts as one whether it is a comment or code. -/
def kind (line : Line) : LineKind :=
  if Text.allBlank line.text then .blank
  else if (Border.char? line.text).isSome then .border
  else if line.isCommentOnly then .comment
  else .code

end Line
end Listing
