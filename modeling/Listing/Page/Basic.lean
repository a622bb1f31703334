/-
Pages: a source text set in a style, as an HTML document of its own.
-/
import Listing.Page.Markup
import Listing.Page.Segment
import Listing.Page.Stylesheet

namespace Listing

/-- What a page depends on besides its style. -/
structure PageOptions where
  /-- Columns between tab stops. -/
  tabWidth : Nat := 4
  lineNumbers : Bool := false
  /-- Set comment groups as prose. -/
  reflowComments : Bool := true
  title : Option Text := none
deriving DecidableEq

/-- An output line, and the number of the source line it starts. -/
structure NumberedLine where
  number : Option Nat
  line : Line

/-- A page that has been set. -/
structure Page where
  /-- The output lines as HTML. -/
  lines : List Text
  /-- The whole document. -/
  document : Text
  /-- Lines of the source. -/
  lineCount : Nat
  profile : Profile

namespace Page

/-- The title of a page that is given none. -/
def defaultTitle : Text := "codeprint".toList

/-- A document up to the first line. -/
def documentStart (title stylesheet : Text) : Text :=
  "<!DOCTYPE html>\n<html>\n<head>\n<meta charset=\"utf-8\">\n<title>".toList
    ++ Markup.escape title ++ "</title>\n<style>\n".toList ++ stylesheet
    ++ "</style>\n</head>\n<body>\n<div class=\"code\">\n".toList

def documentEnd : Text := "</div>\n</body>\n</html>\n".toList

/-- A document of these lines. -/
def documentOf (title stylesheet : Text) (lines : List Text) : Text :=
  documentStart title stylesheet ++ lines.flatMap (· ++ ['\n']) ++ documentEnd

/-- The lines of a source, highlighted in turn. -/
def sourceLines (lexer : Lexer) (tabWidth : Nat) (source : Text) : List SourceLine :=
  let texts := (Text.lines source).map (Text.expandTabs tabWidth)
  texts.zipWith (fun t h => ⟨t, ⟨h.spans⟩⟩) (lexer.highlightLines ScanState.start texts)

/-- Gives the first of the lines a number. -/
def numberFirst (number : Nat) : List Line → List NumberedLine
  | [] => []
  | first :: rest => ⟨some number, first⟩ :: rest.map (⟨none, ·⟩)

/-- The output lines of segments, of which the first starts at line `number`. -/
def numberedLines (lexer : Lexer) (width number : Nat) : List Segment → List NumberedLine
  | [] => []
  | s :: rest =>
    numberFirst number (s.output lexer width)
      ++ numberedLines lexer width (number + s.lines.length) rest

/-- The output lines of a source. -/
def outputLines (g : Grammar) (width : Nat) (options : PageOptions) (source : Text) :
    List NumberedLine :=
  let lexer : Lexer := { grammar := g }
  numberedLines lexer width 1
    (Segment.split options.reflowComments (sourceLines lexer options.tabWidth source))

/-- Sets a source text. -/
def render (g : Grammar) (profile : Profile) (options : PageOptions) (source : Text) : Page :=
  let lineCount := (Text.lines source).length
  let gutter (number : Option Nat) : Option Markup.Gutter :=
    if options.lineNumbers then some ⟨Markup.gutterWidth lineCount, number⟩ else none
  let lines := (outputLines g profile.maxWidth options source).map fun out =>
    Markup.line out.line (gutter out.number)
  { lines
    document := documentOf (options.title.getD defaultTitle) (Stylesheet.ofProfile profile) lines
    lineCount
    profile }

/-- A document of text without any highlighting. -/
def renderPlain (text title : Text) : Text :=
  documentStart title
      (Stylesheet.ofProfile Profile.standard
        ++ Stylesheet.rule "pre.raw" [("margin", "0".toList), ("white-space", "pre-wrap".toList)])
    ++ "<pre class=\"raw\">".toList ++ Markup.escape text ++ "</pre>\n".toList ++ documentEnd

end Page
end Listing
