/-
Highlighting by rules.

The rules of a grammar are stated here without a scan.  `Grammar.Takes` says which
span may stand at a place of a line, one constructor for each rule in the order of
their priority: where a comment ends is a matter of where its closer first occurs,
a run is a stretch that cannot be extended, and a string is read by the characters
that do not close it.  Spans that obey the rules wherever one of them starts
are a cut of the line (`Grammar.Cuts`).

`cuts_iff_eq_highlight` says that highlighting finds such a cut and that there is no
other.  Each of the functions that the scan is made of is first described by itself;
`takes_piece` and `piece_of_takes` then put the rules and one step of the scan side
by side.
-/
import Listing.Proofs.Highlight.States

namespace Listing

/-! ## Runs, closers and strings -/

/-- `run` is the longest stretch in front of `rest` of characters in a class. -/
structure MaximalRun (p : Char → Bool) (run rest : Text) : Prop where
  inside : ∀ c ∈ run, p c = true
  stops : ∀ c, rest.head? = some c → p c = false

/-- `body` goes on through the first place where `closer` occurs in `body ++ rest`, or
to the end of the line if it occurs nowhere. -/
inductive ThroughFirst (closer : Text) : Text → Text → Prop
  | closed {before rest : Text}
      (hfirst : ∀ n < before.length, ¬ closer <+: (before ++ closer ++ rest).drop n) :
      ThroughFirst closer (before ++ closer) rest
  | unclosed {body : Text} (hnone : ¬ closer <:+: body) : ThroughFirst closer body []

/-- Characters of a string that are passed over without meeting the quote that closes
it.  A backslash takes the character after it along, whatever that is. -/
inductive PassedOver (quote : Char) : Text → Prop
  | nil : PassedOver quote []
  | char {c : Char} {t : Text} (hescape : c ≠ '\\') (hquote : c ≠ quote)
      (ht : PassedOver quote t) : PassedOver quote (c :: t)
  | escaped {c : Char} {t : Text} (ht : PassedOver quote t) : PassedOver quote ('\\' :: c :: t)

/-- `body` is a string behind its opening quote, through the quote that closes it or
to the end of the line, where a last backslash has nothing to take along.  A backslash
never closes a string. -/
inductive StringBody (quote : Char) : Text → Text → Prop
  | closed {inner rest : Text} (hinner : PassedOver quote inner) (hquote : quote ≠ '\\') :
      StringBody quote (inner ++ [quote]) rest
  | unclosed {body : Text} (hbody : PassedOver quote body) : StringBody quote body []
  | cutOff {inner : Text} (hinner : PassedOver quote inner) :
      StringBody quote (inner ++ ['\\']) []

namespace MaximalRun

variable {p : Char → Bool} {run rest : Text}

theorem takeWhile (h : MaximalRun p run rest) : (run ++ rest).takeWhile p = run := by
  rw [List.takeWhile_append_of_pos h.inside]
  cases rest with
  | nil => rw [List.takeWhile_nil, List.append_nil]
  | cons c r =>
    have hc : p c = false := h.stops c rfl
    rw [List.takeWhile_cons_of_neg (by rw [hc]; exact Bool.false_ne_true), List.append_nil]

theorem dropWhile (h : MaximalRun p run rest) : (run ++ rest).dropWhile p = rest := by
  rw [List.dropWhile_append_of_pos h.inside]
  cases rest with
  | nil => rfl
  | cons c r =>
    have hc : p c = false := h.stops c rfl
    rw [List.dropWhile_cons_of_neg (by rw [hc]; exact Bool.false_ne_true)]

theorem tail {c : Char} (h : MaximalRun p (c :: run) rest) : MaximalRun p run rest :=
  ⟨fun d hd => h.inside d (List.mem_cons_of_mem c hd), h.stops⟩

/-- What `takeWhile` takes is a maximal run. -/
theorem takeWhile_dropWhile (p : Char → Bool) (t : Text) :
    MaximalRun p (t.takeWhile p) (t.dropWhile p) := by
  refine ⟨fun d hd => List.all_eq_true.mp List.all_takeWhile d hd, fun d hd => ?_⟩
  have hstop := List.head?_dropWhile_not p t
  rw [hd] at hstop
  exact hstop

/-- It is still one with a character of the class in front. -/
theorem cons_takeWhile {c : Char} (hc : p c = true) (t : Text) :
    MaximalRun p (c :: t.takeWhile p) (t.dropWhile p) := by
  have hrun := takeWhile_dropWhile p t
  refine ⟨fun d hd => ?_, hrun.stops⟩
  rcases List.mem_cons.mp hd with rfl | hd
  · exact hc
  · exact hrun.inside d hd

end MaximalRun

namespace Marker

theorem after?_eq_some_iff {m : Marker} {t rest : Text} :
    m.after? t = some rest ↔ m.text ++ rest = t :=
  Text.after?_eq_some_iff

theorem after?_eq_none_iff {m : Marker} {t : Text} : m.after? t = none ↔ ¬ m.text <+: t :=
  Text.after?_eq_none_iff

theorem isSome_after?_iff {m : Marker} {t : Text} :
    (m.after? t).isSome = true ↔ m.text <+: t := by
  rw [Option.isSome_iff_ne_none, ne_eq, after?_eq_none_iff, Classical.not_not]

/-- The cut fails only if the marker is nowhere in the text. -/
theorem cutAfter?_eq_none_iff {m : Marker} {t : Text} :
    m.cutAfter? t = none ↔ ¬ m.text <:+: t := by
  induction t with
  | nil => simp [cutAfter?, text]
  | cons c r ih =>
    rw [List.infix_cons_iff, not_or, ← ih, ← after?_eq_none_iff, cutAfter?]
    cases m.after? (c :: r) with
    | some rest => simp
    | none =>
      cases m.cutAfter? r with
      | some cut => simp
      | none => simp

/-- The cut stands right behind the first place of the marker. -/
theorem cutAfter?_eq_some_iff {m : Marker} {t head rest : Text} :
    m.cutAfter? t = some (head, rest) ↔
      ∃ before, head = before ++ m.text ∧ t = before ++ m.text ++ rest ∧
        ∀ n < before.length, ¬ m.text <+: t.drop n := by
  constructor
  · intro h
    induction t generalizing head with
    | nil => simp [cutAfter?] at h
    | cons c r ih =>
      rw [cutAfter?] at h
      split at h
      · rename_i hafter
        obtain ⟨rfl, rfl⟩ := Prod.mk.inj (Option.some.inj h)
        exact ⟨[], rfl, (text_append_of_after? hafter).symm, fun n hn => absurd hn n.not_lt_zero⟩
      · rename_i hhere
        split at h
        · rename_i hcut
          obtain ⟨rfl, rfl⟩ := Prod.mk.inj (Option.some.inj h)
          obtain ⟨before, rfl, hr, hfirst⟩ := ih hcut
          refine ⟨c :: before, rfl, by rw [hr]; rfl, fun n hn => ?_⟩
          cases n with
          | zero => exact after?_eq_none_iff.mp hhere
          | succ n => exact hfirst n (Nat.lt_of_succ_lt_succ hn)
        · simp at h
  · rintro ⟨before, rfl, rfl, hfirst⟩
    induction before with
    | nil =>
      have hafter : m.after? (m.text ++ rest) = some rest := Text.after?_eq_some_iff.mpr rfl
      rw [List.nil_append, text, List.cons_append, cutAfter?, ← List.cons_append, ← text, hafter]
    | cons c before ih =>
      have hhere : m.after? (c :: (before ++ m.text ++ rest)) = none :=
        after?_eq_none_iff.mpr (hfirst 0 (Nat.succ_pos _))
      have hcut := ih fun n hn => hfirst (n + 1) (Nat.succ_lt_succ hn)
      rw [List.cons_append, List.cons_append, cutAfter?, hhere]
      simp only [hcut]

end Marker

/-- A comment that is cut behind its closer, or that has none, goes through the first. -/
theorem throughFirst_iff {closer : Marker} {body rest : Text} :
    ThroughFirst closer.text body rest ↔
      closer.cutAfter? (body ++ rest) = some (body, rest) ∨
        closer.cutAfter? (body ++ rest) = none ∧ rest = [] := by
  constructor
  · intro h
    cases h with
    | @closed before rest hfirst =>
      exact .inl (Marker.cutAfter?_eq_some_iff.mpr ⟨before, rfl, rfl, hfirst⟩)
    | unclosed hnone =>
      rw [List.append_nil]
      exact .inr ⟨Marker.cutAfter?_eq_none_iff.mpr hnone, rfl⟩
  · rintro (h | ⟨h, rfl⟩)
    · obtain ⟨before, rfl, -, hfirst⟩ := Marker.cutAfter?_eq_some_iff.mp h
      exact .closed hfirst
    · rw [List.append_nil] at h
      exact .unclosed (Marker.cutAfter?_eq_none_iff.mp h)

/-! ### Strings -/

theorem quotedText_nil (quote : Char) : quotedText quote [] = ⟨[], [], false⟩ := rfl

theorem quotedText_cons {quote c : Char} (hescape : c ≠ '\\') (t : Text) :
    quotedText quote (c :: t) =
      if c = quote then ⟨[c], t, true⟩ else (quotedText quote t).cons c := by
  rw [quotedText.eq_def]
  exact if_neg hescape

theorem quotedText_escaped (quote c : Char) (t : Text) :
    quotedText quote ('\\' :: c :: t) = ((quotedText quote t).cons c).cons '\\' := by
  rw [quotedText.eq_def]
  exact if_pos rfl

theorem StringBody.cons {quote c : Char} {body rest : Text} (hescape : c ≠ '\\')
    (hquote : c ≠ quote) (h : StringBody quote body rest) : StringBody quote (c :: body) rest := by
  cases h with
  | closed hinner hq => exact .closed (.char hescape hquote hinner) hq
  | unclosed hbody => exact .unclosed (.char hescape hquote hbody)
  | cutOff hinner => exact .cutOff (.char hescape hquote hinner)

theorem StringBody.escaped {quote c : Char} {body rest : Text} (h : StringBody quote body rest) :
    StringBody quote ('\\' :: c :: body) rest := by
  cases h with
  | closed hinner hq => exact .closed (.escaped hinner) hq
  | unclosed hbody => exact .unclosed (.escaped hbody)
  | cutOff hinner => exact .cutOff (.escaped hinner)

theorem stringBody_quotedText (quote : Char) (t : Text) :
    StringBody quote (quotedText quote t).body (quotedText quote t).rest := by
  fun_induction quotedText quote t with
  | case1 => exact .unclosed .nil
  | case2 => exact .cutOff .nil
  | case3 d r ih => exact ih.escaped
  | case4 r hne => exact .closed .nil hne
  | case5 c r hescape hquote ih => exact ih.cons hescape hquote

/-- Reading a string goes through what is passed over and on behind it. -/
theorem quotedText_append_of_passedOver {quote : Char} {a : Text} (h : PassedOver quote a)
    (t : Text) :
    quotedText quote (a ++ t) =
      ⟨a ++ (quotedText quote t).body, (quotedText quote t).rest, (quotedText quote t).closed⟩ := by
  induction h with
  | nil => rfl
  | char hescape hquote _ ih =>
    rw [List.cons_append, quotedText_cons hescape, if_neg hquote, ih]
    rfl
  | escaped _ ih =>
    rw [List.cons_append, List.cons_append, quotedText_escaped, ih]
    rfl

theorem StringBody.quotedText_eq {quote : Char} {body rest : Text}
    (h : StringBody quote body rest) :
    (quotedText quote (body ++ rest)).body = body ∧
      (quotedText quote (body ++ rest)).rest = rest := by
  cases h with
  | closed hinner hq =>
    rw [List.append_assoc, quotedText_append_of_passedOver hinner, List.singleton_append,
      quotedText_cons hq, if_pos rfl]
    exact ⟨rfl, rfl⟩
  | unclosed hbody =>
    rw [quotedText_append_of_passedOver hbody, quotedText_nil]
    exact ⟨List.append_nil body, rfl⟩
  | cutOff hinner =>
    rw [List.append_nil, quotedText_append_of_passedOver hinner]
    exact ⟨rfl, rfl⟩

/-! ## The rules -/

namespace Grammar

/-- A block comment opens where `t` starts. -/
def OpensBlock (g : Grammar) (t : Text) : Prop :=
  ∃ block, g.blockComment = some block ∧ block.opener.text <+: t

/-- A line comment opens where `t` starts. -/
def OpensLine (g : Grammar) (t : Text) : Prop := ∃ m ∈ g.lineComments, m.text <+: t

theorem opensBlock_of_blockComment? {g : Grammar} {t rest : Text} {block : BlockComment}
    (h : g.blockComment? t = some (block, rest)) : g.OpensBlock t :=
  ⟨block, Lexer.blockComment_eq_of_blockComment? h, rest, Lexer.blockComment?_append h⟩

theorem blockComment?_eq_none_iff {g : Grammar} {t : Text} :
    g.blockComment? t = none ↔ ¬ g.OpensBlock t := by
  constructor
  · rintro h ⟨block, hblock, rest, rfl⟩
    have hafter : block.opener.after? (block.opener.text ++ rest) = some rest :=
      Text.after?_eq_some_iff.mpr rfl
    rw [blockComment?, hblock] at h
    simp only [hafter] at h
    exact absurd h (by simp)
  · intro h
    cases hopens : g.blockComment? t with
    | none => rfl
    | some opened => exact absurd (opensBlock_of_blockComment? hopens) h

theorem lineComment?_isSome_iff {g : Grammar} {t : Text} :
    (g.lineComment? t).isSome = true ↔ g.OpensLine t := by
  rw [lineComment?, List.find?_isSome]
  exact exists_congr fun m => and_congr_right fun _ => Marker.isSome_after?_iff

/-- The class of a word in front of `rest`: reserved words come first, then names with
a parenthesis right behind them, then names with a capital. -/
inductive WordClass (g : Grammar) (word rest : Text) : TokenClass → Prop
  | keyword (hword : word ∈ g.keywords) : WordClass g word rest .keyword
  | function (hword : word ∉ g.keywords) (hcall : rest.head? = some '(') :
      WordClass g word rest .function
  | typeName (hword : word ∉ g.keywords) (hcall : rest.head? ≠ some '(')
      (hupper : word.head?.any Char.isUpper = true) : WordClass g word rest .typeName
  | identifier (hword : word ∉ g.keywords) (hcall : rest.head? ≠ some '(')
      (hlower : word.head?.any Char.isUpper = false) : WordClass g word rest .identifier

theorem isKeyword_iff {g : Grammar} {word : Text} : g.isKeyword word = true ↔ word ∈ g.keywords :=
  List.contains_iff_mem

theorem isQuote_iff {g : Grammar} {c : Char} : g.isQuote c = true ↔ c ∈ g.quotes :=
  List.contains_iff_mem

/-- Neither a comment nor a string starts with `c` in front of `r`. -/
structure Bare (g : Grammar) (c : Char) (r : Text) : Prop where
  block : ¬ g.OpensBlock (c :: r)
  line : ¬ g.OpensLine (c :: r)
  quote : c ∉ g.quotes

/-- The rules of a grammar.  `g.Takes inComment s rest` says that they take the span `s`
off a line in front of `rest`; a block comment is open there if `inComment` says so.
The rules are in the order of their priority, and each asks that those before it
do not apply. -/
inductive Takes (g : Grammar) : Bool → Span → Text → Prop
  | openComment {block : BlockComment} {text rest : Text} (hblock : g.blockComment = some block)
      (hne : text ≠ []) (hbody : ThroughFirst block.closer.text text rest) :
      Takes g true ⟨.comment, text⟩ rest
  | blockComment {block : BlockComment} {body rest : Text} (hblock : g.blockComment = some block)
      (hbody : ThroughFirst block.closer.text body rest) :
      Takes g false ⟨.comment, block.opener.text ++ body⟩ rest
  | lineComment {text : Text} (hblock : ¬ g.OpensBlock text) (hline : g.OpensLine text) :
      Takes g false ⟨.comment, text⟩ []
  | string {c : Char} {body rest : Text} (hblock : ¬ g.OpensBlock (c :: (body ++ rest)))
      (hline : ¬ g.OpensLine (c :: (body ++ rest))) (hquote : c ∈ g.quotes)
      (hbody : StringBody c body rest) : Takes g false ⟨.string, c :: body⟩ rest
  | number {c : Char} {body rest : Text} (hbare : g.Bare c (body ++ rest))
      (hdigit : c.isDigit = true) (hrun : MaximalRun isNumberChar (c :: body) rest) :
      Takes g false ⟨.number, c :: body⟩ rest
  | word {c : Char} {body rest : Text} {kind : TokenClass} (hbare : g.Bare c (body ++ rest))
      (hdigit : c.isDigit = false) (hstart : isWordStart c = true)
      (hrun : MaximalRun isWordChar (c :: body) rest) (hkind : g.WordClass (c :: body) rest kind) :
      Takes g false ⟨kind, c :: body⟩ rest
  | blank {c : Char} {body rest : Text} (hbare : g.Bare c (body ++ rest))
      (hdigit : c.isDigit = false) (hstart : isWordStart c = false)
      (hblank : Text.isBlank c = true) (hrun : MaximalRun Text.isBlank (c :: body) rest) :
      Takes g false ⟨.plain, c :: body⟩ rest
  | operator {c : Char} {rest : Text} (hbare : g.Bare c rest) (hdigit : c.isDigit = false)
      (hstart : isWordStart c = false) (hblank : Text.isBlank c = false) :
      Takes g false ⟨.operator, [c]⟩ rest

/-- The spans are a cut of the line by the rules: put together they are the line, and
each is what the rules take at the place where it starts.  Only the first can start
inside a comment that is open before the line. -/
structure Cuts (g : Grammar) (inComment : Bool) (line : Text) (spans : List Span) : Prop where
  text : spans.flatMap Span.text = line
  rule : ∀ before s after, spans = before ++ s :: after →
    g.Takes (inComment && before.isEmpty) s (after.flatMap Span.text)

theorem Takes.text_ne_nil {g : Grammar} {inComment : Bool} {s : Span} {rest : Text}
    (h : g.Takes inComment s rest) : s.text ≠ [] := by
  cases h with
  | openComment _ hne _ => exact hne
  | blockComment _ _ => simp [Marker.text]
  | lineComment _ hline =>
    rintro rfl
    obtain ⟨m, -, hm⟩ := hline
    exact absurd (List.prefix_nil.mp hm) (List.cons_ne_nil m.first m.rest)
  | string => exact List.cons_ne_nil _ _
  | number => exact List.cons_ne_nil _ _
  | word => exact List.cons_ne_nil _ _
  | blank => exact List.cons_ne_nil _ _
  | operator => exact List.cons_ne_nil _ _

theorem cuts_nil_iff {g : Grammar} {inComment : Bool} {line : Text} :
    g.Cuts inComment line [] ↔ line = [] := by
  constructor
  · intro h
    exact h.text.symm
  · rintro rfl
    exact ⟨rfl, fun before s after h => absurd h (by simp)⟩

/-- A cut is what the rules take first, and a cut of the rest of the line. -/
theorem cuts_cons_iff {g : Grammar} {inComment : Bool} {line : Text} {s : Span}
    {spans : List Span} :
    g.Cuts inComment line (s :: spans) ↔
      ∃ rest, line = s.text ++ rest ∧ g.Takes inComment s rest ∧ g.Cuts false rest spans := by
  constructor
  · intro h
    refine ⟨spans.flatMap Span.text, h.text.symm, ?_, rfl, fun before s' after hcut => ?_⟩
    · have hfirst := h.rule [] s spans rfl
      rwa [List.isEmpty_nil, Bool.and_true] at hfirst
    · have hlater := h.rule (s :: before) s' after (by rw [hcut]; rfl)
      rwa [List.isEmpty_cons, Bool.and_false] at hlater
  · rintro ⟨rest, rfl, hfirst, hrest⟩
    refine ⟨by rw [List.flatMap_cons, hrest.text], fun before s' after hcut => ?_⟩
    cases before with
    | nil =>
      obtain ⟨rfl, rfl⟩ := List.cons_eq_cons.mp hcut
      rw [List.isEmpty_nil, Bool.and_true, hrest.text]
      exact hfirst
    | cons b before =>
      rw [List.isEmpty_cons, Bool.and_false]
      exact hrest.rule before s' after (List.cons_eq_cons.mp hcut).2

/-- A line without characters has the cut without spans and no other, since the rules
take no empty span. -/
theorem cuts_empty_iff {g : Grammar} {inComment : Bool} {spans : List Span} :
    g.Cuts inComment [] spans ↔ spans = [] := by
  cases spans with
  | nil => exact iff_of_true (cuts_nil_iff.mpr rfl) rfl
  | cons s spans =>
    refine iff_of_false (fun hcut => ?_) (List.cons_ne_nil s spans)
    obtain ⟨rest, hnil, htakes, -⟩ := cuts_cons_iff.mp hcut
    exact htakes.text_ne_nil (List.append_eq_nil_iff.mp hnil.symm).1

end Grammar

/-- The span that a piece becomes. -/
def Piece.span (p : Piece) : Span := ⟨p.kind, p.text⟩

theorem isWordChar_of_isWordStart {c : Char} (h : isWordStart c = true) : isWordChar c = true := by
  rw [isWordStart, Bool.or_eq_true] at h
  rw [isWordChar, Char.isAlphanum, Bool.or_eq_true, Bool.or_eq_true]
  exact h.imp_left .inl

namespace Lexer

/-! ## One step of the scan -/

theorem wordClass_eq_of_grammar {lexer : Lexer} {word rest : Text} {kind : TokenClass}
    (h : lexer.grammar.WordClass word rest kind) : lexer.wordClass word rest = kind := by
  rw [wordClass]
  cases h with
  | keyword hword => rw [if_pos (Grammar.isKeyword_iff.mpr hword)]
  | function hword hcall => rw [if_neg (mt Grammar.isKeyword_iff.mp hword), if_pos hcall]
  | typeName hword hcall hupper =>
    rw [if_neg (mt Grammar.isKeyword_iff.mp hword), if_neg hcall, if_pos hupper]
  | identifier hword hcall hlower =>
    rw [if_neg (mt Grammar.isKeyword_iff.mp hword), if_neg hcall,
      if_neg (Bool.eq_false_iff.mp hlower)]

theorem grammar_wordClass (lexer : Lexer) (word rest : Text) :
    lexer.grammar.WordClass word rest (lexer.wordClass word rest) := by
  rw [wordClass]
  by_cases hword : lexer.grammar.isKeyword word = true
  · rw [if_pos hword]
    exact .keyword (Grammar.isKeyword_iff.mp hword)
  · have hword' : word ∉ lexer.grammar.keywords := mt Grammar.isKeyword_iff.mpr hword
    rw [if_neg hword]
    by_cases hcall : rest.head? = some '('
    · rw [if_pos hcall]
      exact .function hword' hcall
    · rw [if_neg hcall]
      by_cases hupper : word.head?.any Char.isUpper = true
      · rw [if_pos hupper]
        exact .typeName hword' hcall hupper
      · rw [if_neg hupper]
        exact .identifier hword' hcall (Bool.eq_false_iff.mpr hupper)

/-- A comment piece reaches through the first closer behind what is opened already. -/
theorem exists_commentPiece (state : ScanState) (closer : Marker) (opened t : Text) :
    ∃ body, (commentPiece state closer opened t).span = ⟨.comment, opened ++ body⟩ ∧
      ThroughFirst closer.text body (commentPiece state closer opened t).rest := by
  unfold commentPiece
  split
  · rename_i body rest hcut
    have happ := Marker.append_of_cutAfter? hcut
    exact ⟨body, rfl, throughFirst_iff.mpr (.inl (by rw [happ]; exact hcut))⟩
  · rename_i hnone
    exact ⟨t, rfl, throughFirst_iff.mpr (.inr ⟨by rw [List.append_nil]; exact hnone, rfl⟩)⟩

theorem commentPiece_of_throughFirst (state : ScanState) {closer : Marker} (opened : Text)
    {body rest : Text} (h : ThroughFirst closer.text body rest) :
    (commentPiece state closer opened (body ++ rest)).span = ⟨.comment, opened ++ body⟩ ∧
      (commentPiece state closer opened (body ++ rest)).rest = rest := by
  unfold commentPiece
  obtain hcut | ⟨hnone, rfl⟩ := throughFirst_iff.mp h
  · rw [hcut]
    exact ⟨rfl, rfl⟩
  · rw [hnone, List.append_nil]
    exact ⟨rfl, rfl⟩

section
variable {lexer : Lexer} {state : ScanState} {c : Char} {r : Text}

-- The four ways a step begins, each under the condition of its rule.

theorem piece_of_open {block : BlockComment} (hopen : state.inComment = true)
    (hblock : lexer.grammar.blockComment = some block) :
    lexer.piece state c r = commentPiece state block.closer [] (c :: r) := by
  rw [piece, hblock, hopen]

theorem piece_of_closed (hclosed : state.inComment = false) :
    lexer.piece state c r =
      match lexer.grammar.blockComment? (c :: r) with
      | some (block, rest) => commentPiece state block.closer block.opener.text rest
      | none =>
        if (lexer.grammar.lineComment? (c :: r)).isSome then ⟨.comment, c :: r, [], state⟩
        else lexer.tokenPiece state c r := by
  rw [piece, hclosed]
  cases lexer.grammar.blockComment with
  | none => rfl
  | some block => rfl

theorem piece_of_opensBlock {block : BlockComment} {rest : Text} (hclosed : state.inComment = false)
    (hblock : lexer.grammar.blockComment = some block) (hr : block.opener.text ++ rest = c :: r) :
    lexer.piece state c r = commentPiece state block.closer block.opener.text rest := by
  have hafter : block.opener.after? (c :: r) = some rest := Text.after?_eq_some_iff.mpr hr
  have hopens : lexer.grammar.blockComment? (c :: r) = some (block, rest) := by
    rw [Grammar.blockComment?, hblock]
    simp only [hafter]
  rw [piece_of_closed hclosed, hopens]

theorem piece_of_opensLine (hclosed : state.inComment = false)
    (hblock : ¬ lexer.grammar.OpensBlock (c :: r)) (hline : lexer.grammar.OpensLine (c :: r)) :
    lexer.piece state c r = ⟨.comment, c :: r, [], state⟩ := by
  rw [piece_of_closed hclosed, Grammar.blockComment?_eq_none_iff.mpr hblock]
  exact if_pos (Grammar.lineComment?_isSome_iff.mpr hline)

theorem piece_of_code (hclosed : state.inComment = false)
    (hblock : ¬ lexer.grammar.OpensBlock (c :: r)) (hline : ¬ lexer.grammar.OpensLine (c :: r)) :
    lexer.piece state c r = lexer.tokenPiece state c r := by
  rw [piece_of_closed hclosed, Grammar.blockComment?_eq_none_iff.mpr hblock]
  exact if_neg (mt Grammar.lineComment?_isSome_iff.mp hline)

/-- Outside comments a step obeys the rules. -/
theorem takes_tokenPiece (state : ScanState) (hblock : ¬ lexer.grammar.OpensBlock (c :: r))
    (hline : ¬ lexer.grammar.OpensLine (c :: r)) :
    lexer.grammar.Takes false (lexer.tokenPiece state c r).span
      (lexer.tokenPiece state c r).rest := by
  unfold tokenPiece
  by_cases hquote : lexer.grammar.isQuote c = true
  · rw [if_pos hquote]
    have hbody := stringBody_quotedText c r
    have happ := quotedText_append c r
    exact .string (by rw [happ]; exact hblock) (by rw [happ]; exact hline)
      (Grammar.isQuote_iff.mp hquote) hbody
  · rw [if_neg hquote]
    have hbare : ∀ p : Char → Bool,
        lexer.grammar.Bare c (r.takeWhile p ++ r.dropWhile p) := by
      intro p
      rw [List.takeWhile_append_dropWhile]
      exact ⟨hblock, hline, mt Grammar.isQuote_iff.mpr hquote⟩
    by_cases hdigit : c.isDigit = true
    · rw [if_pos hdigit]
      have hrun : isNumberChar c = true := by rw [isNumberChar, hdigit, Bool.true_or]
      exact .number (hbare _) hdigit (.cons_takeWhile hrun r)
    · rw [if_neg hdigit]
      have hdigit' : c.isDigit = false := Bool.eq_false_iff.mpr hdigit
      by_cases hstart : isWordStart c = true
      · rw [if_pos hstart]
        exact .word (hbare _) hdigit' hstart (.cons_takeWhile (isWordChar_of_isWordStart hstart) r)
          (grammar_wordClass lexer _ _)
      · rw [if_neg hstart]
        have hstart' : isWordStart c = false := Bool.eq_false_iff.mpr hstart
        by_cases hblank : Text.isBlank c = true
        · rw [if_pos hblank]
          exact .blank (hbare _) hdigit' hstart' hblank (.cons_takeWhile hblank r)
        · rw [if_neg hblank]
          exact .operator ⟨hblock, hline, mt Grammar.isQuote_iff.mpr hquote⟩ hdigit' hstart'
            (Bool.eq_false_iff.mpr hblank)

/-- A step of the scan obeys the rules. -/
theorem takes_piece (h : lexer.Scannable state) :
    lexer.grammar.Takes state.inComment (lexer.piece state c r).span
      (lexer.piece state c r).rest := by
  obtain rfl | ⟨rfl, hsome⟩ := h
  · have hclosed : ScanState.start.inComment = false := rfl
    by_cases hblock : lexer.grammar.OpensBlock (c :: r)
    · obtain ⟨block, hblock, rest, hr⟩ := hblock
      rw [piece_of_opensBlock hclosed hblock hr]
      obtain ⟨body, hspan, hbody⟩ :=
        exists_commentPiece ScanState.start block.closer block.opener.text rest
      rw [hspan]
      exact .blockComment hblock hbody
    · by_cases hline : lexer.grammar.OpensLine (c :: r)
      · rw [piece_of_opensLine hclosed hblock hline]
        exact .lineComment hblock hline
      · rw [piece_of_code hclosed hblock hline]
        exact takes_tokenPiece ScanState.start hblock hline
  · obtain ⟨block, hblock⟩ := Option.isSome_iff_exists.mp hsome
    have hne : (lexer.piece ScanState.comment c r).span.text ≠ [] := piece_text_ne_nil _ _ c r
    rw [piece_of_open rfl hblock] at hne ⊢
    obtain ⟨body, hspan, hbody⟩ := exists_commentPiece ScanState.comment block.closer [] (c :: r)
    rw [hspan] at hne ⊢
    exact .openComment hblock hne hbody

/-- Nothing but a step of the scan obeys the rules. -/
theorem piece_of_takes {s : Span} {rest : Text} (h : lexer.grammar.Takes state.inComment s rest)
    (hr : s.text ++ rest = c :: r) :
    (lexer.piece state c r).span = s ∧ (lexer.piece state c r).rest = rest := by
  generalize hopen : state.inComment = inComment at h
  cases h with
  | openComment hblock _ hbody =>
    rw [piece_of_open hopen hblock, ← hr]
    exact commentPiece_of_throughFirst state [] hbody
  | @blockComment block body _ hblock hbody =>
    rw [List.append_assoc] at hr
    rw [piece_of_opensBlock hopen hblock hr]
    exact commentPiece_of_throughFirst state block.opener.text hbody
  | lineComment hblock hline =>
    rw [List.append_nil] at hr
    subst hr
    rw [piece_of_opensLine hopen hblock hline]
    exact ⟨rfl, rfl⟩
  | string hblock hline hquote hbody =>
    rw [List.cons_append, List.cons_eq_cons] at hr
    obtain ⟨rfl, rfl⟩ := hr
    obtain ⟨htext, hrest⟩ := hbody.quotedText_eq
    rw [piece_of_code hopen hblock hline, tokenPiece, if_pos (Grammar.isQuote_iff.mpr hquote)]
    simp only [Piece.span, htext, hrest, and_self]
  | number hbare hdigit hrun =>
    rw [List.cons_append, List.cons_eq_cons] at hr
    obtain ⟨rfl, rfl⟩ := hr
    rw [piece_of_code hopen hbare.block hbare.line, tokenPiece,
      if_neg (mt Grammar.isQuote_iff.mp hbare.quote), if_pos hdigit]
    simp only [Piece.span, hrun.tail.takeWhile, hrun.tail.dropWhile, and_self]
  | word hbare hdigit hstart hrun hkind =>
    rw [List.cons_append, List.cons_eq_cons] at hr
    obtain ⟨rfl, rfl⟩ := hr
    rw [piece_of_code hopen hbare.block hbare.line, tokenPiece,
      if_neg (mt Grammar.isQuote_iff.mp hbare.quote), if_neg (Bool.eq_false_iff.mp hdigit),
      if_pos hstart]
    simp only [Piece.span, hrun.tail.takeWhile, hrun.tail.dropWhile, wordClass_eq_of_grammar hkind,
      and_self]
  | blank hbare hdigit hstart hblank hrun =>
    rw [List.cons_append, List.cons_eq_cons] at hr
    obtain ⟨rfl, rfl⟩ := hr
    rw [piece_of_code hopen hbare.block hbare.line, tokenPiece,
      if_neg (mt Grammar.isQuote_iff.mp hbare.quote), if_neg (Bool.eq_false_iff.mp hdigit),
      if_neg (Bool.eq_false_iff.mp hstart), if_pos hblank]
    simp only [Piece.span, hrun.tail.takeWhile, hrun.tail.dropWhile, and_self]
  | operator hbare hdigit hstart hblank =>
    rw [List.singleton_append, List.cons_eq_cons] at hr
    obtain ⟨rfl, rfl⟩ := hr
    rw [piece_of_code hopen hbare.block hbare.line, tokenPiece,
      if_neg (mt Grammar.isQuote_iff.mp hbare.quote), if_neg (Bool.eq_false_iff.mp hdigit),
      if_neg (Bool.eq_false_iff.mp hstart), if_neg (Bool.eq_false_iff.mp hblank)]
    exact ⟨rfl, rfl⟩

end

/-! ## Whole lines -/

/-- The scan of a text is its one cut by the rules. -/
theorem cuts_iff_eq_scan {lexer : Lexer} {state : ScanState} (h : lexer.Scannable state)
    (t : Text) : ∀ spans : List Span,
      lexer.grammar.Cuts state.inComment t spans ↔ spans = (lexer.scan state t).spans := by
  fun_induction scan lexer state t with
  | case1 state => exact fun spans => Grammar.cuts_empty_iff
  | case2 state c r p rest ih =>
    intro spans
    have hlater : ∀ spans, lexer.grammar.Cuts false p.rest spans ↔
        spans = (lexer.scan p.state p.rest).spans := by
      obtain hstart | ⟨hend, -⟩ : lexer.LeavesSettled p := piece_state h c r
      · have hclosed : p.state.inComment = false := by rw [hstart]; rfl
        rw [← hclosed]
        exact ih (.inl hstart)
      · rw [hend, scan]
        exact fun spans => Grammar.cuts_empty_iff
    cases spans with
    | nil => exact iff_of_false (mt Grammar.cuts_nil_iff.mp (by simp)) (by simp)
    | cons s spans =>
      rw [Grammar.cuts_cons_iff, List.cons_eq_cons, ← hlater]
      constructor
      · rintro ⟨rest, hr, htakes, hcut⟩
        obtain ⟨hspan, rfl⟩ := piece_of_takes htakes hr.symm
        exact ⟨hspan.symm, hcut⟩
      · rintro ⟨rfl, hcut⟩
        exact ⟨p.rest, (piece_append lexer state c r).symm, takes_piece h, hcut⟩

/-- Highlighting a line that starts with nothing open, or inside a block comment of the
grammar, gives the spans that are a cut of the line by the rules, and no other spans are
one. -/
theorem cuts_iff_eq_highlight (lexer : Lexer) {state : ScanState}
    (hstate : state = ScanState.start ∨
      state = ScanState.comment ∧ lexer.grammar.blockComment.isSome = true)
    (line : Text) (spans : List Span) :
    lexer.grammar.Cuts state.inComment line spans ↔
      spans = (lexer.highlight state line).spans := by
  have hscannable : lexer.Scannable state := hstate
  have hscan : lexer.highlight state line = lexer.scan state line := by
    unfold highlight
    simp only [resume_of_settled hscannable.settled]
    obtain rfl | ⟨rfl, -⟩ := hstate
    · rfl
    · rfl
  rw [hscan]
  exact cuts_iff_eq_scan hscannable line spans

/-- A lexer for the line below. -/
def braced : Lexer where
  grammar := Grammar.ofDefinition
    { id := [], keywords := ["let".toList], lineComments := ["//".toList]
      blockComment := some ("/*".toList, "*/".toList), quotes := ['"'] }

/-- A line in which every rule applies and the words are of all four classes.  The
opener behind the string does not close itself, and the quote inside the string does
not close it. -/
theorem cuts_iff_eq_highlight_braced :
    (ScanState.comment = ScanState.start ∨
      ScanState.comment = ScanState.comment ∧ braced.grammar.blockComment.isSome = true) ∧
    braced.grammar.Cuts true "x*/let F(N,v)1.5\"\\\"\"/*/*/// \"".toList
      [⟨.comment, "x*/".toList⟩, ⟨.keyword, "let".toList⟩, ⟨.plain, " ".toList⟩,
        ⟨.function, "F".toList⟩, ⟨.operator, "(".toList⟩, ⟨.typeName, "N".toList⟩,
        ⟨.operator, ",".toList⟩, ⟨.identifier, "v".toList⟩, ⟨.operator, ")".toList⟩,
        ⟨.number, "1.5".toList⟩, ⟨.string, "\"\\\"\"".toList⟩, ⟨.comment, "/*/*/".toList⟩,
        ⟨.comment, "// \"".toList⟩] := by
  have hstate : ScanState.comment = ScanState.start ∨
      ScanState.comment = ScanState.comment ∧ braced.grammar.blockComment.isSome = true :=
    .inr ⟨rfl, by decide⟩
  exact ⟨hstate, (cuts_iff_eq_highlight braced hstate _ _).mpr (by decide +kernel)⟩

end Lexer
end Listing
