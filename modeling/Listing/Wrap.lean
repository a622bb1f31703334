/-
Wrapping lines that are wider than the page.

A line is cut into fragments.  Between two fragments only white space is passed
over, and a fragment remembers what was passed over before it, so the fragments
of a line together hold the line.  A fragment ends after the last character that
allows a break within the last `window` columns, or where the page ends if there
is none.  The first fragment keeps the indentation of the line, and the others
repeat it while it leaves room for a whole window.
-/
import Listing.Highlight

namespace Listing
namespace Wrap

/-- Characters after which a line may be broken. -/
def breakChars : List Char := [' ', ',', ';', '.', '(', ')', '{', '}', '[', ']', '<', '>']

/-- Columns before the end of the page in which a break is looked for. -/
def window : Nat := 30

/-- One output line of a wrapped line. -/
structure Fragment where
  /-- White space of the line passed over before this fragment. -/
  gap : Text
  /-- Indentation printed in front. -/
  indent : Text
  /-- The text of the line shown here. -/
  body : Text
deriving DecidableEq

/-- The fragment as it is printed. -/
def Fragment.text (f : Fragment) : Text := f.indent ++ f.body

/-- How many characters of a text that starts at `column` lie within the page. -/
def fitLength (width column : Nat) : Text → Nat
  | [] => 0
  | c :: r =>
    if width < column + Text.charWidth c then 0
    else fitLength width (column + Text.charWidth c) r + 1

/-- The length up to the last break within the page that starts at column `least`
or later and inside the window. -/
def breakLength? (width least column : Nat) : Text → Option Nat
  | [] => none
  | c :: r =>
    if width < column + Text.charWidth c then none
    else match breakLength? width least (column + Text.charWidth c) r with
      | some n => some (n + 1)
      | none =>
        if least ≤ column && width ≤ column + window && breakChars.contains c then some 1
        else none

/-- The length of what is shown of a text that starts at `column`: all of it if it
fits, else up to a break, else up to the end of the page, and one character if
not even that fits. -/
def cutLength (width least column : Nat) (t : Text) : Nat :=
  if column ≤ width && Text.fits (width - column) t then t.length
  else match breakLength? width least column t with
    | some n => n
    | none => max (fitLength width column t) 1

theorem breakLength?_pos {width least column n : Nat} {t : Text}
    (h : breakLength? width least column t = some n) : 0 < n := by
  cases t with
  | nil => simp [breakLength?] at h
  | cons c r =>
    rw [breakLength?] at h
    split at h
    · simp at h
    · split at h
      · have := Option.some.inj h
        omega
      · split at h
        · have := Option.some.inj h
          omega
        · simp at h

/-- A cut takes at least one character. -/
theorem cutLength_pos {width least column : Nat} {t : Text} (h : t ≠ []) :
    0 < cutLength width least column t := by
  unfold cutLength
  split
  · exact List.length_pos_iff.mpr h
  · split
    · rename_i hb
      exact breakLength?_pos hb
    · omega

/-- The white space a text ends with. -/
def blankTail (t : Text) : Text := (t.reverse.takeWhile Text.isBlank).reverse

theorem trimStart_drop_length_le (n : Nat) (t : Text) :
    (Text.trimStart (t.drop n)).length ≤ t.length - n := by
  rw [← List.length_drop]
  exact (List.dropWhile_sublist _).length_le

/-- The fragments of `t`, of which the first stands behind `shown`, is not broken
before column `least`, and follows the white space `gap`.  The others stand
behind `indent`. -/
def fragmentsFrom (width : Nat) (indent shown : Text) (least : Nat) (gap : Text) :
    Text → List Fragment
  | [] => []
  | c :: r =>
    let n := cutLength width least (Text.width shown) (c :: r)
    ⟨gap, shown, Text.trimEnd ((c :: r).take n)⟩ ::
      fragmentsFrom width indent indent (Text.width indent)
        (blankTail ((c :: r).take n) ++ Text.indent ((c :: r).drop n))
        (Text.trimStart ((c :: r).drop n))
termination_by t => t.length
decreasing_by
  have hpos : 0 < cutLength width least (Text.width shown) (c :: r) :=
    cutLength_pos (List.cons_ne_nil c r)
  have hlen : 0 < (c :: r).length := Nat.succ_pos _
  exact Nat.lt_of_le_of_lt (trimStart_drop_length_le _ (c :: r)) (by omega)

/-- The fragments of a line.  A line that fits, or that holds nothing but white
space, is one fragment as it is.  The indentation is left out if it alone fills
the page. -/
def fragments (t : Text) (width : Nat) : List Fragment :=
  let lead := Text.indent t
  if width = 0 || Text.allBlank t || Text.width t ≤ width then [⟨[], [], t⟩]
  else
    let indent := if Text.width lead + window ≤ width then lead else []
    if width ≤ Text.width lead then
      fragmentsFrom width indent [] 0 lead (Text.trimStart t)
    else fragmentsFrom width indent [] (Text.width lead) [] t

/-- The first character of each fragment and the one after its last, counted from
`start`. -/
def positions (start : Nat) : List Fragment → List (Nat × Nat)
  | [] => []
  | f :: rest =>
    let first := start + f.gap.length
    let stop := first + f.body.length
    (first, stop) :: positions stop rest

/-- The same in bytes of the UTF-8 form. -/
def byteRanges (start : Nat) : List Fragment → List (Nat × Nat)
  | [] => []
  | f :: rest =>
    let first := start + Text.byteLength f.gap
    let stop := first + Text.byteLength f.body
    (first, stop) :: byteRanges stop rest

/-- The output lines of a wrapped text. -/
def line (t : Text) (width : Nat) : List Text := (fragments t width).map Fragment.text

/-- Where the comments of a line start and stop, in characters. -/
def commentRanges (start : Nat) : List Span → List (Nat × Nat)
  | [] => []
  | s :: rest =>
    let stop := start + s.text.length
    if s.isComment then (start, stop) :: commentRanges stop rest
    else commentRanges stop rest

/-- The spans of a text that was highlighted by itself. -/
def relex (lexer : Lexer) (t : Text) : List Span := (lexer.highlight ScanState.start t).spans

/-- Classifies the characters `pos` to `stop` of a line, which are `t`.  What was
inside a comment stays a comment, and what lies between is highlighted again. -/
def cover (lexer : Lexer) (pos stop : Nat) (t : Text) : List (Nat × Nat) → List Span
  | [] => relex lexer t
  | (first, last) :: comments =>
    if last ≤ pos || stop ≤ first then cover lexer pos stop t comments
    else
      let code := t.take (first - pos)
      let rest := t.drop (first - pos)
      let n := min last stop - max first pos
      relex lexer code ++ ⟨.comment, rest.take n⟩ ::
        cover lexer (min last stop) stop (rest.drop n) comments

/-- Wraps a highlighted line.  A line that fits comes back as it is. -/
def highlighted (lexer : Lexer) (source : Line) (width : Nat) : List Line :=
  let pieces := fragments source.text width
  if pieces = [⟨[], [], source.text⟩] then [source]
  else
    let comments := commentRanges 0 source.spans
    (pieces.zip (positions 0 pieces)).map fun (f, pos, stop) =>
      ⟨Span.unlessEmpty .plain f.indent ++ cover lexer pos stop f.body comments⟩

end Wrap
end Listing
