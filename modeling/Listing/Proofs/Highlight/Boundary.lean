/-
Cutting a line between two of its spans.

A scan remembers nothing between two spans and looks past a span only for the
parenthesis that makes a name a function.  So a line may be cut behind any of its spans
(`highlight_at_boundary`): what follows the cut is highlighted as a line of its own, and
what precedes it is highlighted as before, but for a name at the cut.

For what follows, a piece that does not end the line leaves nothing open (`piece_state`).
For what precedes, the rules are asked one by one what they see of the text behind the
span they take (`Takes.of_isPrefix`).
-/
import Listing.Proofs.Highlight.Rules

namespace Listing

/-- The span as it is at the end of a line, where no parenthesis follows a name. -/
def Span.atLineEnd (s : Span) : Span where
  kind :=
    if s.kind = .function then
      if s.text.head?.any Char.isUpper then .typeName else .identifier
    else s.kind
  text := s.text

@[simp] theorem Span.text_atLineEnd (s : Span) : s.atLineEnd.text = s.text := rfl

theorem Span.atLineEnd_of_ne {s : Span} (h : s.kind ≠ .function) : s.atLineEnd = s := by
  rw [Span.atLineEnd, if_neg h]

/-! ## What the rules see behind a span -/

theorem MaximalRun.of_isPrefix {p : Char → Bool} {run rest front : Text}
    (h : MaximalRun p run rest) (hfront : front <+: rest) : MaximalRun p run front := by
  refine ⟨h.inside, fun c hc => ?_⟩
  obtain ⟨back, rfl⟩ := hfront
  exact h.stops c (by rw [List.head?_append, hc]; rfl)

/-- A comment that does not reach the end of the line ends with its closer. -/
theorem ThroughFirst.of_isPrefix {closer body rest front : Text}
    (h : ThroughFirst closer body rest) (hne : rest ≠ []) (hfront : front <+: rest) :
    ThroughFirst closer body front := by
  cases h with
  | @closed before _ hfirst =>
    refine .closed fun n hn hcloser => hfirst n hn (hcloser.trans ?_)
    obtain ⟨back, rfl⟩ := hfront
    have hinside : n ≤ (before ++ closer ++ front).length := by
      simp only [List.length_append]
      omega
    rw [← List.append_assoc, List.drop_append_of_le_length hinside]
    exact List.prefix_append _ back
  | unclosed _ => exact absurd rfl hne

theorem StringBody.of_isPrefix {quote : Char} {body rest front : Text}
    (h : StringBody quote body rest) (hne : rest ≠ []) : StringBody quote body front := by
  cases h with
  | closed hinner hquote => exact .closed hinner hquote
  | unclosed _ => exact absurd rfl hne
  | cutOff _ => exact absurd rfl hne

namespace Grammar

theorem OpensBlock.mono {g : Grammar} {a b : Text} (h : g.OpensBlock a) (hab : a <+: b) :
    g.OpensBlock b := by
  obtain ⟨block, hblock, hopener⟩ := h
  exact ⟨block, hblock, hopener.trans hab⟩

theorem OpensLine.mono {g : Grammar} {a b : Text} (h : g.OpensLine a) (hab : a <+: b) :
    g.OpensLine b := by
  obtain ⟨m, hm, hmarker⟩ := h
  exact ⟨m, hm, hmarker.trans hab⟩

theorem Bare.of_isPrefix {g : Grammar} {c : Char} {r front : Text} (h : g.Bare c r)
    (hfront : front <+: r) : g.Bare c front := by
  have hline : c :: front <+: c :: r := List.cons_prefix_cons.mpr ⟨rfl, hfront⟩
  exact ⟨fun hb => h.block (hb.mono hline), fun hl => h.line (hl.mono hline), h.quote⟩

/-- A word keeps its class if the character behind it stays. -/
theorem WordClass.of_head? {g : Grammar} {word rest front : Text} {kind : TokenClass}
    (h : g.WordClass word rest kind) (hhead : front.head? = rest.head?) :
    g.WordClass word front kind := by
  cases h with
  | keyword hword => exact .keyword hword
  | function hword hcall => exact .function hword (hhead.trans hcall)
  | typeName hword hcall hupper => exact .typeName hword (by rwa [hhead]) hupper
  | identifier hword hcall hlower => exact .identifier hword (by rwa [hhead]) hlower

theorem WordClass.atLineEnd {g : Grammar} {word rest : Text} {kind : TokenClass}
    (h : g.WordClass word rest kind) : g.WordClass word [] (Span.atLineEnd ⟨kind, word⟩).kind := by
  have hnothing : ([] : Text).head? ≠ some '(' := by simp
  cases h with
  | keyword hword => exact .keyword hword
  | function hword _ =>
    show g.WordClass word [] (if word.head?.any Char.isUpper then .typeName else .identifier)
    by_cases hupper : word.head?.any Char.isUpper = true
    · rw [if_pos hupper]
      exact .typeName hword hnothing hupper
    · rw [if_neg hupper]
      exact .identifier hword hnothing (Bool.eq_false_iff.mpr hupper)
  | typeName hword _ hupper => exact .typeName hword hnothing hupper
  | identifier hword _ hlower => exact .identifier hword hnothing hlower

/-- A rule that takes a span in front of more text takes it in front of a part of that
text too.  Only the class of a word depends on what follows, and only on the next
character. -/
theorem Takes.of_isPrefix {g : Grammar} {inComment : Bool} {s : Span} {rest front : Text}
    (h : g.Takes inComment s rest) (hne : rest ≠ []) (hfront : front <+: rest) :
    g.Takes inComment (if front = [] then s.atLineEnd else s) front := by
  have hkeep : s.kind ≠ .function → (if front = [] then s.atLineEnd else s) = s := by
    intro hkind
    rw [Span.atLineEnd_of_ne hkind, ite_self]
  have hbehind : ∀ body : Text, body ++ front <+: body ++ rest :=
    fun body => (List.prefix_append_right_inj body).mpr hfront
  cases h with
  | openComment hblock htext hbody =>
    rw [hkeep (by simp)]
    exact .openComment hblock htext (hbody.of_isPrefix hne hfront)
  | blockComment hblock hbody =>
    rw [hkeep (by simp)]
    exact .blockComment hblock (hbody.of_isPrefix hne hfront)
  | lineComment _ _ => exact absurd rfl hne
  | @string c body _ hblock hline hquote hbody =>
    have hmore : c :: (body ++ front) <+: c :: (body ++ rest) :=
      List.cons_prefix_cons.mpr ⟨rfl, hbehind body⟩
    rw [hkeep (by simp)]
    exact .string (fun hb => hblock (hb.mono hmore)) (fun hl => hline (hl.mono hmore)) hquote
      (hbody.of_isPrefix hne)
  | number hbare hdigit hrun =>
    rw [hkeep (by simp)]
    exact .number (hbare.of_isPrefix (hbehind _)) hdigit (hrun.of_isPrefix hfront)
  | @word c body _ kind hbare hdigit hstart hrun hkind =>
    by_cases hend : front = []
    · subst hend
      rw [if_pos rfl]
      exact .word (hbare.of_isPrefix (hbehind _)) hdigit hstart (hrun.of_isPrefix hfront)
        hkind.atLineEnd
    · have hhead : front.head? = rest.head? := by
        obtain ⟨d, r, rfl⟩ := List.exists_cons_of_ne_nil hend
        obtain ⟨back, rfl⟩ := hfront
        rfl
      rw [if_neg hend]
      exact .word (hbare.of_isPrefix (hbehind _)) hdigit hstart (hrun.of_isPrefix hfront)
        (hkind.of_head? hhead)
  | blank hbare hdigit hstart hblank hrun =>
    rw [hkeep (by simp)]
    exact .blank (hbare.of_isPrefix (hbehind _)) hdigit hstart hblank (hrun.of_isPrefix hfront)
  | operator hbare hdigit hstart hblank =>
    rw [hkeep (by simp)]
    exact .operator (hbare.of_isPrefix hfront) hdigit hstart hblank

/-- The spans up to a boundary are a cut of the text up to it. -/
theorem Cuts.of_append {g : Grammar} {inComment : Bool} {line : Text} {before after : List Span}
    {last : Span} (h : g.Cuts inComment line (before ++ last :: after)) (hafter : after ≠ []) :
    g.Cuts inComment ((before ++ [last]).flatMap Span.text) (before ++ [last.atLineEnd]) := by
  have hne : ∀ first s rest, before ++ last :: after = first ++ s :: rest → s.text ≠ [] :=
    fun first s rest hcut => (h.rule first s rest hcut).text_ne_nil
  have hbehind : after.flatMap Span.text ≠ [] := by
    obtain ⟨s, rest, rfl⟩ := List.exists_cons_of_ne_nil hafter
    have hs := hne (before ++ [last]) s rest (by simp)
    rw [List.flatMap_cons]
    exact fun hnil => hs (List.append_eq_nil_iff.mp hnil).1
  refine ⟨by simp, fun first s rest hcut => ?_⟩
  rcases List.eq_nil_or_concat rest with rfl | ⟨middle, s', rfl⟩
  · -- The span at the boundary has nothing behind it any more.
    obtain ⟨rfl, hs⟩ := List.append_inj' hcut rfl
    obtain rfl := List.head_eq_of_cons_eq hs
    have htakes := (h.rule before last after rfl).of_isPrefix hbehind (List.nil_prefix)
    rwa [if_pos rfl] at htakes
  · -- Behind any other span there is still text.
    have hsplit : before = first ++ s :: middle ∧ last.atLineEnd = s' := by
      rw [List.concat_eq_append, ← List.cons_append, ← List.append_assoc] at hcut
      obtain ⟨hbefore, hs'⟩ := List.append_inj' hcut rfl
      exact ⟨hbefore, List.head_eq_of_cons_eq hs'⟩
    obtain ⟨rfl, rfl⟩ := hsplit
    have htakes := h.rule first s (middle ++ last :: after) (by simp)
    have hlast : last.text ≠ [] := hne (first ++ s :: middle) last after rfl
    have hrest : (middle.concat last.atLineEnd).flatMap Span.text =
        middle.flatMap Span.text ++ last.text := by simp
    rw [hrest]
    have hfront : middle.flatMap Span.text ++ last.text <+:
        (middle ++ last :: after).flatMap Span.text := by
      rw [List.flatMap_append, List.flatMap_cons, ← List.append_assoc]
      exact List.prefix_append _ _
    have hfull : middle.flatMap Span.text ++ last.text ≠ [] :=
      fun hnil => hlast (List.append_eq_nil_iff.mp hnil).2
    have hmore : (middle ++ last :: after).flatMap Span.text ≠ [] := by
      intro hnil
      rw [hnil] at hfront
      exact hfull (List.prefix_nil.mp hfront)
    have hshort := htakes.of_isPrefix hmore hfront
    rwa [if_neg hfull] at hshort

end Grammar

namespace Lexer

/-! ## Scans -/

/-- What is behind a boundary is scanned from the state in which nothing is open.  At
the start of the line that is so only if the scan starts there. -/
theorem scan_behind {lexer : Lexer} {state : ScanState} (h : lexer.Scannable state) (t : Text) :
    ∀ before after, (lexer.scan state t).spans = before ++ after → after ≠ [] →
      (before = [] → state = ScanState.start) →
      lexer.scan ScanState.start (after.flatMap Span.text) =
        ⟨after, (lexer.scan state t).state⟩ := by
  fun_induction scan lexer state t with
  | case1 state =>
    intro before after hcut hafter _
    exact absurd (List.append_eq_nil_iff.mp hcut.symm).2 hafter
  | case2 state c r p rest ih =>
    intro before after hcut hafter hstart
    cases before with
    | nil =>
      obtain rfl := hstart rfl
      have htext : after.flatMap Span.text = c :: r := by
        rw [← List.nil_append after, ← hcut, List.flatMap_cons]
        show p.text ++ (lexer.scan p.state p.rest).spans.flatMap Span.text = c :: r
        rw [scan_text]
        exact piece_append lexer ScanState.start c r
      rw [List.nil_append] at hcut
      rw [htext, scan, ← hcut]
    | cons s before =>
      have hrest : rest.spans = before ++ after := (List.cons_eq_cons.mp hcut).2
      obtain hopen | ⟨hend, -⟩ : lexer.LeavesSettled p := piece_state h c r
      · exact ih (.inl hopen) before after hrest hafter fun _ => hopen
      · -- A piece that ends the line has no span behind it.
        have hnone : rest.spans = [] := by
          show (lexer.scan p.state p.rest).spans = []
          rw [hend, scan]
        rw [hnone] at hrest
        exact absurd (List.append_eq_nil_iff.mp hrest.symm).2 hafter

/-- A scan may be cut behind any span but the last. -/
theorem scan_at_boundary {lexer : Lexer} {state : ScanState} (h : lexer.Scannable state)
    {t : Text} {before after : List Span} {last : Span}
    (hcut : (lexer.scan state t).spans = before ++ last :: after) (hafter : after ≠ []) :
    lexer.scan ScanState.start (after.flatMap Span.text) =
        ⟨after, (lexer.scan state t).state⟩ ∧
      (lexer.scan state ((before ++ [last]).flatMap Span.text)).spans =
        before ++ [last.atLineEnd] := by
  constructor
  · exact scan_behind h t (before ++ [last]) after (by rw [hcut]; simp) hafter (by simp)
  · have hcuts : lexer.grammar.Cuts state.inComment t (before ++ last :: after) :=
      (cuts_iff_eq_scan h t _).mpr hcut.symm
    exact ((cuts_iff_eq_scan h _ _).mp (hcuts.of_append hafter)).symm

/-! ## Lines -/

theorem highlight_of_not_inString {lexer : Lexer} {state : ScanState}
    (h : (lexer.resume state).inString = false) (t : Text) :
    lexer.highlight state t = lexer.scan (lexer.resume state) t := by
  unfold highlight
  simp only [h, if_neg Bool.false_ne_true]

theorem highlight_start (lexer : Lexer) (t : Text) :
    lexer.highlight ScanState.start t = lexer.scan ScanState.start t := by
  have hstart : lexer.resume ScanState.start = ScanState.start := resume_of_settled .start
  rw [highlight_of_not_inString (by rw [hstart]; rfl), hstart]

/-- A string that was carried to a line and is closed there is read from the state in
which nothing is open behind its quote. -/
theorem highlight_string {lexer : Lexer} (hcarry : lexer.carryStrings = true) (quote : Char)
    (t : Text) :
    lexer.highlight (ScanState.string quote) t =
      if (quotedText quote t).closed then
        ⟨⟨.string, (quotedText quote t).body⟩ ::
            (lexer.scan ScanState.start (quotedText quote t).rest).spans,
          (lexer.scan ScanState.start (quotedText quote t).rest).state⟩
      else ⟨Span.unlessEmpty .string (quotedText quote t).body, ScanState.string quote⟩ := by
  have hresume : lexer.resume (ScanState.string quote) = ScanState.string quote := by
    simp [resume, ScanState.string, hcarry]
  unfold highlight
  simp only [hresume]
  rfl

/-- Behind the quote that closes it a string does not depend on the line. -/
theorem quotedText_body_append {quote : Char} {t : Text} (h : (quotedText quote t).closed = true)
    (front : Text) :
    quotedText quote ((quotedText quote t).body ++ front) =
      ⟨(quotedText quote t).body, front, true⟩ := by
  fun_induction quotedText quote t with
  | case1 => exact absurd h Bool.false_ne_true
  | case2 => exact absurd h Bool.false_ne_true
  | case3 d r ih =>
    show quotedText quote ('\\' :: d :: ((quotedText quote r).body ++ front)) = _
    rw [quotedText_escaped, ih h]
    rfl
  | case4 r hne =>
    show quotedText quote (quote :: front) = _
    rw [quotedText_cons hne, if_pos rfl]
  | case5 c r hescape hquote ih =>
    show quotedText quote (c :: ((quotedText quote r).body ++ front)) = _
    rw [quotedText_cons hescape, if_neg hquote, ih h]
    rfl

/-- A line that starts with nothing, a comment or a string open is scanned, or goes on
with the string. -/
theorem scannable_resume (lexer : Lexer) {state : ScanState}
    (h : state = ScanState.start ∨ state = ScanState.comment ∨
      ∃ quote, state = ScanState.string quote) :
    lexer.Scannable (lexer.resume state) ∨
      lexer.carryStrings = true ∧ ∃ quote, state = ScanState.string quote := by
  rcases h with rfl | rfl | ⟨quote, rfl⟩
  · exact .inl (.inl (resume_of_settled .start))
  · by_cases hblock : lexer.grammar.blockComment.isSome = true
    · exact .inl (.inr ⟨resume_of_settled (.comment hblock), hblock⟩)
    · exact .inl (.inl (by simp [resume, ScanState.comment, ScanState.start, hblock]))
  · by_cases hcarry : lexer.carryStrings = true
    · exact .inr ⟨hcarry, quote, rfl⟩
    · exact .inl (.inl (by simp [resume, ScanState.string, ScanState.start, hcarry]))

theorem Scannable.inString {lexer : Lexer} {state : ScanState} (h : lexer.Scannable state) :
    state.inString = false := by
  obtain rfl | ⟨rfl, -⟩ := h
  · rfl
  · rfl

/-- A line that goes on with a string may be cut behind the string, and then where the
scan behind it may be cut.  A string that stays open is the only span of its line. -/
theorem carried_at_boundary {lexer : Lexer} (hcarry : lexer.carryStrings = true) {quote : Char}
    {t : Text} {before after : List Span} {last : Span}
    (hcut : (lexer.highlight (ScanState.string quote) t).spans = before ++ last :: after)
    (hafter : after ≠ []) :
    lexer.scan ScanState.start (after.flatMap Span.text) =
        ⟨after, (lexer.highlight (ScanState.string quote) t).state⟩ ∧
      (lexer.highlight (ScanState.string quote) ((before ++ [last]).flatMap Span.text)).spans =
        before ++ [last.atLineEnd] := by
  rw [highlight_string hcarry] at hcut ⊢
  rw [highlight_string hcarry]
  by_cases hclosed : (quotedText quote t).closed = true
  · rw [if_pos hclosed] at hcut ⊢
    have hbody := fun front => quotedText_body_append hclosed front
    cases before with
    | nil =>
      obtain ⟨rfl, hrest⟩ := List.cons_eq_cons.mp hcut
      refine ⟨scan_behind (.inl rfl) _ [] after hrest hafter fun _ => rfl, ?_⟩
      have hstring := hbody []
      rw [List.append_nil] at hstring
      simp only [List.nil_append, List.flatMap_cons, List.flatMap_nil, List.append_nil, hstring,
        scan]
      rfl
    | cons s before =>
      obtain ⟨rfl, hrest⟩ := List.cons_eq_cons.mp hcut
      obtain ⟨hbehind, hfront⟩ := scan_at_boundary (.inl rfl) hrest hafter
      refine ⟨hbehind, ?_⟩
      simp only [List.cons_append, List.flatMap_cons, hbody, hfront]
      rfl
  · rw [if_neg hclosed] at hcut
    have hone : (Span.unlessEmpty .string (quotedText quote t).body).length ≤ 1 := by
      unfold Span.unlessEmpty
      split
      · exact Nat.zero_le 1
      · exact Nat.le_refl 1
    have hcount := congrArg List.length hcut
    have hmore : 0 < after.length := List.length_pos_iff.mpr hafter
    rw [List.length_append, List.length_cons] at hcount
    simp only at hcount
    omega

/-- A line may be cut behind any of its spans but the last.  The part behind the cut,
highlighted as a line of its own, has the spans that follow and ends in the same state.
The part in front of the cut, highlighted from the state the line starts in, has the
spans that precede, where a name that was a function for the parenthesis behind the cut
takes its class from its first letter. -/
theorem highlight_at_boundary (lexer : Lexer) {state : ScanState}
    (hstate : state = ScanState.start ∨ state = ScanState.comment ∨
      ∃ quote, state = ScanState.string quote)
    (t : Text) {before after : List Span} {last : Span}
    (hcut : (lexer.highlight state t).spans = before ++ last :: after) (hafter : after ≠ []) :
    let p := ((before ++ [last]).flatMap Span.text).length
    lexer.highlight ScanState.start (t.drop p) = ⟨after, (lexer.highlight state t).state⟩ ∧
      (lexer.highlight state (t.take p)).spans = before ++ [last.atLineEnd] := by
  intro p
  have htext : t = (before ++ [last]).flatMap Span.text ++ after.flatMap Span.text := by
    rw [← highlight_text lexer state t, hcut, ← List.flatMap_append]
    simp
  have hdrop : t.drop p = after.flatMap Span.text := by
    rw [htext]
    exact List.drop_left
  have htake : t.take p = (before ++ [last]).flatMap Span.text := by
    rw [htext]
    exact List.take_left
  rw [hdrop, htake, highlight_start]
  rcases scannable_resume lexer hstate with hscan | ⟨hcarry, quote, rfl⟩
  · simp only [highlight_of_not_inString hscan.inString] at hcut ⊢
    exact scan_at_boundary hscan hcut hafter
  · exact carried_at_boundary hcarry hcut hafter

/-- The name in front of the cut is a function for the parenthesis behind it.  The line
starts in a string whose first quote is escaped, and a comment is left open at its end. -/
theorem highlight_at_boundary_call :
    let line := "\\\"\"Run(x/*".toList
    let before : List Span := [⟨.string, "\\\"\"".toList⟩]
    let after : List Span :=
      [⟨.operator, "(".toList⟩, ⟨.identifier, "x".toList⟩, ⟨.comment, "/*".toList⟩]
    (carrying.highlight (ScanState.string '"') line).spans =
        before ++ ⟨.function, "Run".toList⟩ :: after ∧
      carrying.highlight ScanState.start "(x/*".toList = ⟨after, ScanState.comment⟩ ∧
      (carrying.highlight (ScanState.string '"') "\\\"\"Run".toList).spans =
        before ++ [⟨.typeName, "Run".toList⟩] := by
  intro line before after
  have hcut : (carrying.highlight (ScanState.string '"') line).spans =
      before ++ ⟨.function, "Run".toList⟩ :: after := by decide +kernel
  have hstate : (carrying.highlight (ScanState.string '"') line).state = ScanState.comment := by
    decide +kernel
  obtain ⟨hbehind, hfront⟩ :=
    highlight_at_boundary carrying (.inr (.inr ⟨'"', rfl⟩)) line hcut (by decide)
  rw [hstate] at hbehind
  exact ⟨hcut, hbehind, hfront⟩

end Lexer
end Listing
