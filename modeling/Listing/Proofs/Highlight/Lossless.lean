/-
Highlighting loses nothing.

The spans of a line are cut from it one after the other.  `highlight_lossless`
says what that means for every lexer, every line and every state the line may
start from, also one in which a comment and a string are both open: no span is
empty, the spans put together are the line, and each cut stands at a byte offset
that starts a character.  A rule of the scan takes one span, so the number of
spans is also the number of turns of the scan, and it is bounded by the number of
characters.
-/
import Listing.Highlight

namespace Listing

namespace Text

/-- The byte offset at which `a` ends starts what follows it. -/
theorem fromByte?_append (a b : Text) : fromByte? (a ++ b) (byteLength a) = some b := by
  induction a with
  | nil => rw [byteLength_nil, List.nil_append, fromByte?]
  | cons c r ih =>
    obtain ⟨n, hn⟩ : ∃ n, byteLength (c :: r) = n + 1 :=
      Nat.exists_eq_succ_of_ne_zero (by have := c.utf8Size_pos; simp; omega)
    have hsize : byteLength (c :: r) = c.utf8Size + byteLength r := byteLength_cons c r
    have hrest : n + 1 - c.utf8Size = byteLength r := by omega
    rw [hn, List.cons_append, fromByte?, if_pos (by omega), hrest]
    exact ih

end Text

namespace Span

@[simp] theorem flatMap_text_unlessEmpty (kind : TokenClass) (t : Text) :
    (unlessEmpty kind t).flatMap Span.text = t := by
  unfold unlessEmpty
  by_cases h : t.isEmpty = true
  · rw [if_pos h]
    exact (List.isEmpty_iff.mp h).symm
  · rw [if_neg h]
    exact List.append_nil t

theorem text_ne_nil_of_mem_unlessEmpty {kind : TokenClass} {t : Text} {s : Span}
    (h : s ∈ unlessEmpty kind t) : s.text ≠ [] := by
  unfold unlessEmpty at h
  by_cases ht : t.isEmpty = true
  · rw [if_pos ht] at h
    exact absurd h List.not_mem_nil
  · rw [if_neg ht, List.mem_singleton] at h
    subst h
    exact fun he => ht (List.isEmpty_iff.mpr he)

theorem isBlank_of_mem_unlessEmpty {a : Text} (ha : Text.allBlank a = true) {s : Span}
    (hs : s ∈ unlessEmpty .plain a) : s.isBlank = true := by
  unfold unlessEmpty at hs
  split at hs
  · exact absurd hs List.not_mem_nil
  · rw [List.mem_singleton.mp hs]
    exact ha

/-- Spans that are not empty are no more than the characters they hold. -/
theorem length_le_of_ne_nil {spans : List Span} (h : ∀ s ∈ spans, s.text ≠ []) :
    spans.length ≤ (spans.flatMap Span.text).length := by
  induction spans with
  | nil => exact Nat.le_refl 0
  | cons s rest ih =>
    have hs : 0 < s.text.length := List.length_pos_iff.mpr (h s List.mem_cons_self)
    have hrest := ih fun x hx => h x (List.mem_cons_of_mem s hx)
    rw [List.flatMap_cons, List.length_append, List.length_cons]
    omega

end Span

/-- A string that is not closed takes the whole text. -/
theorem quotedText_rest_of_open {quote : Char} {t : Text}
    (h : ¬ (quotedText quote t).closed = true) : (quotedText quote t).rest = [] := by
  fun_induction quotedText quote t with
  | case1 => rfl
  | case2 => rfl
  | case3 d r ih => exact ih h
  | case4 r hne => exact absurd rfl h
  | case5 c r hne hquote ih => exact ih h

namespace Lexer

theorem text_ne_nil_of_mem_scan {lexer : Lexer} {state : ScanState} {t : Text} {s : Span}
    (h : s ∈ (lexer.scan state t).spans) : s.text ≠ [] := by
  fun_induction scan lexer state t with
  | case1 => exact absurd h List.not_mem_nil
  | case2 state c r p rest ih =>
    rcases List.mem_cons.mp h with rfl | hrest
    · exact piece_text_ne_nil lexer state c r
    · exact ih hrest

/-- The three ways a line is highlighted: by the scan alone, as a string that goes
on and is closed, or as a string that stays open. -/
theorem highlight_cases (lexer : Lexer) (state : ScanState) (t : Text) :
    lexer.highlight state t = lexer.scan (lexer.resume state) t ∨
    (∃ quote, (quotedText quote t).closed = true ∧
      (lexer.highlight state t).spans =
        ⟨.string, (quotedText quote t).body⟩ ::
          (lexer.scan ScanState.start (quotedText quote t).rest).spans) ∨
    ((lexer.highlight state t).spans = Span.unlessEmpty .string t) := by
  unfold highlight
  simp only
  split
  · split
    · rename_i hclosed
      exact .inr (.inl ⟨_, hclosed, rfl⟩)
    · rename_i hopen
      have happ := quotedText_append ((lexer.resume state).delimiter.getD defaultQuote) t
      rw [quotedText_rest_of_open hopen, List.append_nil] at happ
      rw [happ]
      exact .inr (.inr rfl)
  · exact .inl rfl

theorem highlight_text (lexer : Lexer) (state : ScanState) (t : Text) :
    (lexer.highlight state t).spans.flatMap Span.text = t := by
  obtain h | ⟨quote, -, h⟩ | h := highlight_cases lexer state t
  · rw [h]
    exact scan_text lexer _ t
  · rw [h, List.flatMap_cons, scan_text, quotedText_append]
  · rw [h]
    exact Span.flatMap_text_unlessEmpty .string t

theorem text_ne_nil_of_mem_highlight {lexer : Lexer} {state : ScanState} {t : Text} {s : Span}
    (hs : s ∈ (lexer.highlight state t).spans) : s.text ≠ [] := by
  obtain h | ⟨quote, hclosed, h⟩ | h := highlight_cases lexer state t
  · rw [h] at hs
    exact text_ne_nil_of_mem_scan hs
  · rw [h] at hs
    rcases List.mem_cons.mp hs with rfl | hrest
    · exact quotedText_body_ne_nil hclosed
    · exact text_ne_nil_of_mem_scan hrest
  · rw [h] at hs
    exact Span.text_ne_nil_of_mem_unlessEmpty hs

/-- Highlighting is lossless.  No span is empty and the spans make up the line.
Wherever the spans are cut in two, the byte offset of the cut starts a character
of the line, and what follows that offset is the text of the spans after it.
There are no more spans than characters, which bounds the turns of the scan. -/
theorem highlight_lossless (lexer : Lexer) (state : ScanState) (t : Text) :
    (∀ s ∈ (lexer.highlight state t).spans, s.text ≠ []) ∧
    (lexer.highlight state t).spans.flatMap Span.text = t ∧
    (∀ before after, (lexer.highlight state t).spans = before ++ after →
      Text.fromByte? t (Text.byteLength (before.flatMap Span.text))
        = some (after.flatMap Span.text)) ∧
    (lexer.highlight state t).spans.length ≤ t.length := by
  have htext := highlight_text lexer state t
  have hne : ∀ s ∈ (lexer.highlight state t).spans, s.text ≠ [] :=
    fun s hs => text_ne_nil_of_mem_highlight hs
  refine ⟨hne, htext, ?_, ?_⟩
  · intro before after hcut
    rw [hcut, List.flatMap_append] at htext
    rw [← htext]
    exact Text.fromByte?_append _ _
  · have hlen := Span.length_le_of_ne_nil hne
    rw [htext] at hlen
    exact hlen

end Lexer
end Listing
