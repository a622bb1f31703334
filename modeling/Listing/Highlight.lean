/-
Highlighting: cutting a line into classified spans.

A line is scanned once from left to right.  What a line needs to know about the
lines before it is in the `ScanState` it starts from.  At each place the first
rule that applies takes a non-empty piece of the text:

  1. inside an open block comment, up to its closer or the end of the line;
  2. a block comment opener, with the comment it opens;
  3. a line comment marker, with the rest of the line;
  4. a quote, with the string it opens, where a backslash escapes the next
     character;
  5. a digit, with the digits and dots after it;
  6. a letter or an underscore, with the word it starts;
  7. white space, with the white space after it;
  8. any other character, by itself.

`scan_text` says that the pieces put together are the text they were cut from.
-/
import Listing.Grammar.Basic
import Listing.Line

namespace Listing

/-- What is open between two lines.  A caller may start from any values. -/
structure ScanState where
  /-- A block comment is open. -/
  inComment : Bool := false
  /-- A string is open. -/
  inString : Bool := false
  /-- The quote that closes the open string. -/
  delimiter : Option Char := none
deriving DecidableEq

namespace ScanState

/-- Nothing is open. -/
def start : ScanState := {}

/-- A block comment is open. -/
def comment : ScanState := { inComment := true }

/-- A string opened by `quote` is open. -/
def string (quote : Char) : ScanState := { inString := true, delimiter := some quote }

def isNormal (s : ScanState) : Bool := !s.inComment && !s.inString

end ScanState

/-- The spans of a line and the state at its end. -/
structure Highlighted where
  spans : List Span
  state : ScanState
deriving DecidableEq

/-- A string body up to its closing quote, what follows it, and whether it was
closed. -/
structure QuotedText where
  body : Text
  rest : Text
  closed : Bool

/-- The same with `c` in front of the body. -/
def QuotedText.cons (c : Char) (q : QuotedText) : QuotedText := { q with body := c :: q.body }

@[simp] theorem QuotedText.body_cons (c : Char) (q : QuotedText) :
    (q.cons c).body = c :: q.body := rfl

@[simp] theorem QuotedText.rest_cons (c : Char) (q : QuotedText) : (q.cons c).rest = q.rest := rfl

/-- Reads a string body after its opening quote.  A backslash takes the character
after it along, whatever that is. -/
def quotedText (quote : Char) : Text → QuotedText
  | [] => ⟨[], [], false⟩
  | c :: r =>
    if c = '\\' then
      match r with
      | [] => ⟨[c], [], false⟩
      | d :: r => ((quotedText quote r).cons d).cons c
    else if c = quote then ⟨[c], r, true⟩
    else (quotedText quote r).cons c

theorem quotedText_append (quote : Char) (t : Text) :
    (quotedText quote t).body ++ (quotedText quote t).rest = t := by
  fun_induction quotedText quote t <;> simp_all

theorem quotedText_body_ne_nil {quote : Char} {t : Text} (h : (quotedText quote t).closed) :
    (quotedText quote t).body ≠ [] := by
  revert h
  fun_induction quotedText quote t <;> simp_all

def isWordStart (c : Char) : Bool := c.isAlpha || c == '_'

def isWordChar (c : Char) : Bool := c.isAlphanum || c == '_'

def isNumberChar (c : Char) : Bool := c.isDigit || c == '.'

/-- A lexer reads by one grammar.  It may leave a string open at the end of a line
for the next line to continue; otherwise a string ends with its line. -/
structure Lexer where
  grammar : Grammar
  carryStrings : Bool := false

/-- The piece one rule takes off a text, what is left, and the state there. -/
structure Piece where
  kind : TokenClass
  text : Text
  rest : Text
  state : ScanState

namespace Lexer

/-- The class of a word in front of `rest`. -/
def wordClass (lexer : Lexer) (word rest : Text) : TokenClass :=
  if lexer.grammar.isKeyword word then .keyword
  else if rest.head? = some '(' then .function
  else if word.head?.any Char.isUpper then .typeName
  else .identifier

/-- The comment that starts with `opened` and goes on in `t` up to `closer`. -/
def commentPiece (state : ScanState) (closer : Marker) (opened t : Text) : Piece :=
  match closer.cutAfter? t with
  | some (body, rest) => ⟨.comment, opened ++ body, rest, { state with inComment := false }⟩
  | none => ⟨.comment, opened ++ t, [], { state with inComment := true }⟩

/-- The piece that a string, number, word, blank or other character starts. -/
def tokenPiece (lexer : Lexer) (state : ScanState) (c : Char) (r : Text) : Piece :=
  if lexer.grammar.isQuote c then
    let q := quotedText c r
    ⟨.string, c :: q.body, q.rest,
      if !q.closed && lexer.carryStrings then ScanState.string c else state⟩
  else if c.isDigit then
    ⟨.number, c :: r.takeWhile isNumberChar, r.dropWhile isNumberChar, state⟩
  else if isWordStart c then
    let word := c :: r.takeWhile isWordChar
    let rest := r.dropWhile isWordChar
    ⟨lexer.wordClass word rest, word, rest, state⟩
  else if Text.isBlank c then
    ⟨.plain, c :: r.takeWhile Text.isBlank, r.dropWhile Text.isBlank, state⟩
  else ⟨.operator, [c], r, state⟩

/-- The piece that the text `c :: r` starts with. -/
def piece (lexer : Lexer) (state : ScanState) (c : Char) (r : Text) : Piece :=
  match lexer.grammar.blockComment, state.inComment with
  | some block, true => commentPiece state block.closer [] (c :: r)
  | _, _ =>
    match lexer.grammar.blockComment? (c :: r) with
    | some (block, rest) => commentPiece state block.closer block.opener.text rest
    | none =>
      if (lexer.grammar.lineComment? (c :: r)).isSome then ⟨.comment, c :: r, [], state⟩
      else lexer.tokenPiece state c r

theorem commentPiece_append (state : ScanState) (closer : Marker) (opened t : Text) :
    (commentPiece state closer opened t).text ++ (commentPiece state closer opened t).rest
      = opened ++ t := by
  unfold commentPiece
  split
  · rename_i h
    rw [List.append_assoc, Marker.append_of_cutAfter? h]
  · simp

theorem commentPiece_text_ne_nil (state : ScanState) (closer : Marker) (opened t : Text)
    (h : opened ++ t ≠ []) : (commentPiece state closer opened t).text ≠ [] := by
  unfold commentPiece
  split
  · rename_i hcut
    have := Marker.ne_nil_of_cutAfter? hcut
    simp [this]
  · exact h

theorem tokenPiece_append (lexer : Lexer) (state : ScanState) (c : Char) (r : Text) :
    (lexer.tokenPiece state c r).text ++ (lexer.tokenPiece state c r).rest = c :: r := by
  unfold tokenPiece
  repeat' split
  all_goals simp [quotedText_append]

theorem tokenPiece_text_ne_nil (lexer : Lexer) (state : ScanState) (c : Char) (r : Text) :
    (lexer.tokenPiece state c r).text ≠ [] := by
  unfold tokenPiece
  repeat' split
  all_goals simp

theorem blockComment?_append {g : Grammar} {t rest : Text} {block : BlockComment}
    (h : g.blockComment? t = some (block, rest)) : block.opener.text ++ rest = t := by
  unfold Grammar.blockComment? at h
  split at h
  · simp at h
  · split at h
    · rename_i hafter
      obtain ⟨rfl, rfl⟩ := Prod.mk.inj (Option.some.inj h)
      exact Marker.text_append_of_after? hafter
    · simp at h

/-- A piece and what is left make up the text. -/
theorem piece_append (lexer : Lexer) (state : ScanState) (c : Char) (r : Text) :
    (lexer.piece state c r).text ++ (lexer.piece state c r).rest = c :: r := by
  unfold piece
  split
  · exact commentPiece_append ..
  · split
    · rename_i h
      rw [commentPiece_append, blockComment?_append h]
    · split
      · simp
      · exact tokenPiece_append ..

/-- Every rule takes at least one character. -/
theorem piece_text_ne_nil (lexer : Lexer) (state : ScanState) (c : Char) (r : Text) :
    (lexer.piece state c r).text ≠ [] := by
  unfold piece
  split
  · exact commentPiece_text_ne_nil _ _ _ _ (by simp)
  · split
    · exact commentPiece_text_ne_nil _ _ _ _ (by simp [Marker.text])
    · split
      · simp
      · exact tokenPiece_text_ne_nil lexer state c r

theorem piece_rest_length_lt (lexer : Lexer) (state : ScanState) (c : Char) (r : Text) :
    (lexer.piece state c r).rest.length < (c :: r).length := by
  have happ := congrArg List.length (piece_append lexer state c r)
  have hpos := List.length_pos_iff.mpr (piece_text_ne_nil lexer state c r)
  rw [List.length_append] at happ
  omega

/-- Scans a text that does not start inside a string. -/
def scan (lexer : Lexer) (state : ScanState) : Text → Highlighted
  | [] => ⟨[], state⟩
  | c :: r =>
    let p := lexer.piece state c r
    let h := scan lexer p.state p.rest
    ⟨⟨p.kind, p.text⟩ :: h.spans, h.state⟩
termination_by t => t.length
decreasing_by exact piece_rest_length_lt ..

/-- Scanning loses no character. -/
theorem scan_text (lexer : Lexer) (state : ScanState) (t : Text) :
    (lexer.scan state t).spans.flatMap Span.text = t := by
  fun_induction scan lexer state t with
  | case1 => rfl
  | case2 state c r p h ih =>
    rw [List.flatMap_cons, ih]
    exact piece_append lexer state c r

/-- The part of a state that this lexer can go on from: a string only if strings
are carried, a comment only if the grammar has block comments. -/
def resume (lexer : Lexer) (state : ScanState) : ScanState where
  inComment := state.inComment && lexer.grammar.blockComment.isSome
  inString := state.inString && lexer.carryStrings
  delimiter := if lexer.carryStrings then state.delimiter else none

/-- The quote that closes a string whose opening was not recorded. -/
def defaultQuote : Char := '"'

/-- Highlights a line that starts in `state`. -/
def highlight (lexer : Lexer) (state : ScanState) (t : Text) : Highlighted :=
  let state := lexer.resume state
  if state.inString then
    let q := quotedText (state.delimiter.getD defaultQuote) t
    if q.closed then
      let h := lexer.scan ScanState.start q.rest
      ⟨⟨.string, q.body⟩ :: h.spans, h.state⟩
    else ⟨Span.unlessEmpty .string q.body, state⟩
  else lexer.scan state t

/-- Highlights lines in turn, each from the state at the end of the line before. -/
def highlightLines (lexer : Lexer) (state : ScanState) : List Text → List Highlighted
  | [] => []
  | t :: rest =>
    let h := lexer.highlight state t
    h :: highlightLines lexer h.state rest

end Lexer
end Listing
