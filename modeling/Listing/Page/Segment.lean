/-
Segments: the parts of a source text that are set one after the other.

A segment is a comment group or one other line.  The segments of a text hold each
of its lines once, in order.
-/
import Listing.Prose

namespace Listing

/-- A line of the source with its tabs expanded, and its spans. -/
structure SourceLine where
  text : Text
  line : Line

/-- A part of a source text that is set by itself. -/
inductive Segment where
  | single (source : SourceLine)
  /-- Comment lines and the blank lines between them. -/
  | group (first : SourceLine) (rest : List SourceLine)

namespace Segment

def lines : Segment → List SourceLine
  | .single source => [source]
  | .group first rest => first :: rest

/-- How many lines after a comment line belong to its group: those up to the last
comment line that only comment lines and blank lines lie before. -/
def groupLength : List SourceLine → Nat
  | [] => 0
  | s :: rest =>
    if s.line.isCommentOnly then groupLength rest + 1
    else if s.line.kind = .blank then
      match groupLength rest with
      | 0 => 0
      | n + 1 => n + 2
    else 0

/-- Cuts lines into segments.  Without reflow every line is one. -/
def split (reflow : Bool) : List SourceLine → List Segment
  | [] => []
  | s :: rest =>
    if reflow && s.line.isCommentOnly then
      .group s (rest.take (groupLength rest)) :: split reflow (rest.drop (groupLength rest))
    else .single s :: split reflow rest
termination_by sources => sources.length
decreasing_by
  · simp only [List.length_drop, List.length_cons]
    omega
  · exact Nat.lt_succ_self _

theorem split_lines (reflow : Bool) (sources : List SourceLine) :
    (split reflow sources).flatMap lines = sources := by
  fun_induction split reflow sources with
  | case1 => rfl
  | case2 s rest _ ih =>
    rw [List.flatMap_cons, ih, lines, List.cons_append, List.take_append_drop]
  | case3 s rest _ ih => rw [List.flatMap_cons, ih, lines, List.singleton_append]

/-- A border line stretched to the page, in the class of its characters. -/
def borderLine (line : Line) (width : Nat) : Line :=
  match Border.fill? line.text width with
  | none => line
  | some border =>
    let kind := match line.spans.find? (!·.isBlank) with
      | some s => s.kind
      | none => .operator
    ⟨Span.unlessEmpty .plain (Text.indent border) ++
      Span.unlessEmpty kind (Text.trimStart border)⟩

/-- The output lines of a segment. -/
def output (lexer : Lexer) (width : Nat) : Segment → List Line
  | .single source =>
    if source.line.kind = .border then [borderLine source.line width]
    else Wrap.highlighted lexer source.line width
  | .group first rest => Prose.reflow lexer.grammar width ((first :: rest).map SourceLine.text)

end Segment
end Listing
