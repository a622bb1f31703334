/-
The states between two lines.

A state is a record whose fields could disagree: a comment and a string open at
once, or a quote on record for no string.  `highlightLines_settled` says that none
of this is ever met.  A text that is highlighted from the start leaves between its
lines only a state in which nothing, a block comment or a carried string is open,
and the last two only for a lexer that has such a thing.

One piece of a scan is the step: it leaves nothing open, or it reaches the end of
the line (`piece_state`).  The scan, the line and the run over all lines follow.
-/
import Listing.Proofs.Highlight.Lossless

namespace Listing
namespace Lexer

/-- The states that a lexer leaves at the end of a line. -/
inductive Settled (lexer : Lexer) : ScanState → Prop
  | start : Settled lexer ScanState.start
  | comment (hblock : lexer.grammar.blockComment.isSome = true) :
      Settled lexer ScanState.comment
  | string {quote : Char} (hquote : quote ∈ lexer.grammar.quotes)
      (hcarry : lexer.carryStrings = true) : Settled lexer (ScanState.string quote)

/-- The settled states that a scan may start from: those without an open string. -/
def Scannable (lexer : Lexer) (state : ScanState) : Prop :=
  state = ScanState.start ∨
    state = ScanState.comment ∧ lexer.grammar.blockComment.isSome = true

theorem Scannable.settled {lexer : Lexer} {state : ScanState} (h : lexer.Scannable state) :
    lexer.Settled state := by
  obtain rfl | ⟨rfl, hblock⟩ := h
  · exact .start
  · exact .comment hblock

theorem Scannable.closeComment {lexer : Lexer} {state : ScanState} (h : lexer.Scannable state) :
    { state with inComment := false } = ScanState.start := by
  obtain rfl | ⟨rfl, -⟩ := h
  · rfl
  · rfl

theorem Scannable.openComment {lexer : Lexer} {state : ScanState} (h : lexer.Scannable state) :
    { state with inComment := true } = ScanState.comment := by
  obtain rfl | ⟨rfl, -⟩ := h
  · rfl
  · rfl

/-! ## One piece -/

/-- A piece leaves nothing open, or it ends the line in a settled state. -/
def LeavesSettled (lexer : Lexer) (p : Piece) : Prop :=
  p.state = ScanState.start ∨ p.rest = [] ∧ lexer.Settled p.state

/-- A comment is closed, or it stays open and takes the rest of the line. -/
theorem commentPiece_state {lexer : Lexer} {state : ScanState} (h : lexer.Scannable state)
    (hblock : lexer.grammar.blockComment.isSome = true) (closer : Marker) (opened t : Text) :
    lexer.LeavesSettled (commentPiece state closer opened t) := by
  unfold commentPiece
  split
  · exact .inl h.closeComment
  · refine .inr ⟨rfl, ?_⟩
    show lexer.Settled { state with inComment := true }
    rw [h.openComment]
    exact .comment hblock

/-- Only a string that is not closed changes the state, and it takes the rest of
the line. -/
theorem tokenPiece_state (lexer : Lexer) (c : Char) (r : Text) :
    lexer.LeavesSettled (lexer.tokenPiece ScanState.start c r) := by
  unfold tokenPiece
  by_cases hquote : lexer.grammar.isQuote c = true
  · rw [if_pos hquote]
    by_cases hopen : (!(quotedText c r).closed && lexer.carryStrings) = true
    · simp only [if_pos hopen]
      rw [Bool.and_eq_true, Bool.not_eq_true'] at hopen
      refine .inr ⟨quotedText_rest_of_open (by rw [hopen.1]; decide), ?_⟩
      exact .string (List.contains_iff_mem.mp hquote) hopen.2
    · simp only [if_neg hopen]
      exact .inl rfl
  · rw [if_neg hquote]
    repeat' split
    all_goals exact .inl rfl

theorem blockComment_eq_of_blockComment? {g : Grammar} {t rest : Text} {block : BlockComment}
    (h : g.blockComment? t = some (block, rest)) : g.blockComment = some block := by
  unfold Grammar.blockComment? at h
  split at h
  · simp at h
  · rename_i hblock
    split at h
    · obtain ⟨rfl, -⟩ := Prod.mk.inj (Option.some.inj h)
      exact hblock
    · simp at h

/-- What one piece of a scan leaves open. -/
theorem piece_state {lexer : Lexer} {state : ScanState} (h : lexer.Scannable state)
    (c : Char) (r : Text) : lexer.LeavesSettled (lexer.piece state c r) := by
  unfold piece
  split
  · rename_i block hblock _
    exact commentPiece_state h (by rw [hblock]; rfl) _ _ _
  · rename_i hnot
    -- Outside a comment the state is the one in which nothing is open.
    have hstart : state = ScanState.start := by
      refine h.resolve_right fun hcomment => ?_
      obtain ⟨block, hblock⟩ := Option.isSome_iff_exists.mp hcomment.2
      exact hnot block hblock (by rw [hcomment.1]; rfl)
    subst hstart
    split
    · rename_i hopens
      exact commentPiece_state h (by rw [blockComment_eq_of_blockComment? hopens]; rfl) _ _ _
    · split
      · exact .inl rfl
      · exact tokenPiece_state lexer c r

/-! ## Lines and runs -/

theorem settled_scan {lexer : Lexer} {state : ScanState} (h : lexer.Scannable state) (t : Text) :
    lexer.Settled (lexer.scan state t).state := by
  fun_induction scan lexer state t with
  | case1 state => exact h.settled
  | case2 state c r p rest ih =>
    obtain hstart | ⟨hend, hsettled⟩ : lexer.LeavesSettled p := piece_state h c r
    · exact ih (.inl hstart)
    · show lexer.Settled (lexer.scan p.state p.rest).state
      rw [hend, scan]
      exact hsettled

theorem resume_of_settled {lexer : Lexer} {state : ScanState} (h : lexer.Settled state) :
    lexer.resume state = state := by
  cases h with
  | start => simp [resume, ScanState.start]
  | comment hblock => simp [resume, ScanState.comment, hblock]
  | string hquote hcarry => simp [resume, ScanState.string, hcarry]

/-- A line that starts in a settled state ends in one. -/
theorem settled_highlight {lexer : Lexer} {state : ScanState} (h : lexer.Settled state)
    (t : Text) : lexer.Settled (lexer.highlight state t).state := by
  unfold highlight
  simp only [resume_of_settled h]
  cases h with
  | start => exact settled_scan (.inl rfl) t
  | comment hblock => exact settled_scan (.inr ⟨rfl, hblock⟩) t
  | @string quote hquote hcarry =>
    have hopen : (ScanState.string quote).inString = true := rfl
    rw [if_pos hopen]
    split
    · exact settled_scan (.inl rfl) _
    · exact .string hquote hcarry

theorem settled_of_mem_highlightLines {lexer : Lexer} {state : ScanState} {texts : List Text}
    (h : lexer.Settled state) {line : Highlighted}
    (hline : line ∈ lexer.highlightLines state texts) : lexer.Settled line.state := by
  induction texts generalizing state with
  | nil => exact absurd hline List.not_mem_nil
  | cons t rest ih =>
    have hnext := settled_highlight h t
    rcases List.mem_cons.mp hline with rfl | hline
    · exact hnext
    · exact ih hnext hline

/-- At most one thing is open in a settled state, and a quote is on record only for
an open string. -/
theorem Settled.consistent {lexer : Lexer} {state : ScanState} (h : lexer.Settled state) :
    ¬ (state.inComment = true ∧ state.inString = true) ∧
      (state.delimiter.isSome = true → state.inString = true) := by
  cases h with
  | start => decide
  | comment _ => decide
  | string _ _ => exact ⟨fun hboth => absurd hboth.1 Bool.false_ne_true, fun _ => rfl⟩

/-- Lines that are highlighted in turn from the start reach settled states only,
which never hold an open comment and an open string at once, nor a quote without
a string. -/
theorem highlightLines_settled (lexer : Lexer) (texts : List Text) :
    ∀ state ∈ ScanState.start ::
        (lexer.highlightLines ScanState.start texts).map Highlighted.state,
      lexer.Settled state ∧ ¬ (state.inComment = true ∧ state.inString = true) ∧
        (state.delimiter.isSome = true → state.inString = true) := by
  intro state hstate
  have hsettled : lexer.Settled state := by
    rcases List.mem_cons.mp hstate with rfl | hstate
    · exact .start
    · obtain ⟨line, hline, rfl⟩ := List.mem_map.mp hstate
      exact settled_of_mem_highlightLines .start hline
  exact ⟨hsettled, hsettled.consistent⟩

/-- A lexer that carries strings to the next line. -/
def carrying : Lexer where
  grammar := Grammar.ofDefinition
    { id := [], blockComment := some ("/*".toList, "*/".toList), quotes := ['"', '\''] }
  carryStrings := true

/-- A comment is open after the first line.  The second closes it and opens a string,
in which the third has only an escaped quote. -/
def carriedLines : List Text := ["f( /* \"".toList, "*/ 'x' \"/*".toList, "\\\" */".toList]

theorem highlightLines_settled_carried :
    (carrying.highlightLines ScanState.start carriedLines).map Highlighted.state
      = [ScanState.comment, ScanState.string '"', ScanState.string '"'] ∧
    carrying.Settled (ScanState.string '"') ∧
      ¬ ((ScanState.string '"').inComment = true ∧ (ScanState.string '"').inString = true) ∧
      ((ScanState.string '"').delimiter.isSome = true →
        (ScanState.string '"').inString = true) := by
  have hstates : (carrying.highlightLines ScanState.start carriedLines).map Highlighted.state
      = [ScanState.comment, ScanState.string '"', ScanState.string '"'] := by decide +kernel
  refine ⟨hstates, highlightLines_settled carrying carriedLines (ScanState.string '"') ?_⟩
  rw [hstates]
  decide

end Lexer
end Listing
