/-
Wrapping a highlighted line.

A highlighted line is wrapped as its text is, and it is left alone exactly if its text is
(`highlighted_as_text`).  Otherwise each of its fragments is highlighted again, and
`highlighted_keeps_comments` says how: what was inside a comment stays a comment, and a
stretch between two comments is highlighted as a line of its own.

The comments of a line are known to the wrapper as ranges of places.  `cover` goes through
them from left to right with the place it has reached, so the facts about it are proved by
induction over the ranges, for every place to start from.  They are in order and hold at
least one character each (`ordered_commentRanges`), which is what keeps a stretch whole.
-/
import Listing.Proofs.Highlight.States
import Listing.Proofs.Wrap.Ranges
import Mathlib.Data.List.Forall2

namespace Listing

namespace Span

/-- The class of the character at a place of a line. -/
def classAt? : List Span → Nat → Option TokenClass
  | [], _ => none
  | s :: rest, i => if i < s.text.length then some s.kind else classAt? rest (i - s.text.length)

theorem classAt?_append_of_le {a : List Span} {i : Nat}
    (h : (a.flatMap Span.text).length ≤ i) (b : List Span) :
    classAt? (a ++ b) i = classAt? b (i - (a.flatMap Span.text).length) := by
  induction a generalizing i with
  | nil => rfl
  | cons s rest ih =>
    rw [List.flatMap_cons, List.length_append] at h ⊢
    rw [List.cons_append, classAt?, if_neg (by omega), ih (by omega), Nat.sub_sub]

end Span

namespace Wrap

/-! ## The plain and the highlighted wrapper -/

/-- Nothing is passed over in a line whose only output line is the line itself. -/
theorem fragments_of_line_eq {t : Text} {width : Nat} (h : line t width = [t]) :
    fragments t width = [⟨[], [], t⟩] := by
  obtain ⟨-, tail, -, htext⟩ := exists_tail_fragments t width
  have hhead := head?_fragments t width
  rw [line] at h
  obtain ⟨f, hf, hshown⟩ := List.map_eq_singleton_iff.mp h
  rw [hf] at hhead htext ⊢
  have hindent : f.indent = [] := Option.some.inj hhead
  have hbody : f.body = t := by
    rw [Fragment.text, hindent, List.nil_append] at hshown
    exact hshown
  have hgap : f.gap = [] := by
    have hlength := congrArg List.length htext
    simp only [List.flatMap_cons, List.flatMap_nil, List.append_nil, Fragment.source, hbody,
      List.length_append] at hlength
    exact List.length_eq_zero_iff.mp (by omega)
  cases f
  simp_all

/-- A highlighted line and its text are wrapped alike, whatever the spans of the line are
and whatever lexer highlights the fragments again.  A line that the plain wrapper leaves
alone comes back with its spans. -/
theorem highlighted_as_text (lexer : Lexer) (source : Line) (width : Nat) :
    (highlighted lexer source width).map Line.text = line source.text width ∧
      (highlighted lexer source width = [source] ↔ line source.text width = [source.text]) := by
  have htext := text_highlighted lexer source width
  refine ⟨htext, fun h => ?_, fun h => ?_⟩
  · rw [← htext, h]
    rfl
  · rw [highlighted]
    exact if_pos (fragments_of_line_eq h)

/-! ## Places inside comments -/

/-- The place lies in one of the ranges. -/
def InRanges (ranges : List (Nat × Nat)) (i : Nat) : Prop := ∃ r ∈ ranges, r.1 ≤ i ∧ i < r.2

theorem inRanges_cons {first last : Nat} {ranges : List (Nat × Nat)} {i : Nat} :
    InRanges ((first, last) :: ranges) i ↔ (first ≤ i ∧ i < last) ∨ InRanges ranges i := by
  simp [InRanges]

/-- No range is empty, and each ends before the next begins. -/
structure Ordered (ranges : List (Nat × Nat)) : Prop where
  filled : ∀ r ∈ ranges, r.1 < r.2
  apart : ranges.Pairwise fun a b => a.2 ≤ b.1

theorem Ordered.tail {range : Nat × Nat} {ranges : List (Nat × Nat)}
    (h : Ordered (range :: ranges)) : Ordered ranges :=
  ⟨fun r hr => h.filled r (List.mem_cons_of_mem range hr), h.apart.of_cons⟩

/-- The ranges behind the first start where it ends. -/
theorem Ordered.le_of_inRanges {first last : Nat} {ranges : List (Nat × Nat)} {i : Nat}
    (h : Ordered ((first, last) :: ranges)) (hi : InRanges ranges i) : last ≤ i := by
  obtain ⟨r, hr, hfirst, -⟩ := hi
  exact Nat.le_trans ((List.pairwise_cons.mp h.apart).1 r hr) hfirst

theorem le_of_mem_commentRanges {spans : List Span} {start : Nat} {r : Nat × Nat}
    (h : r ∈ commentRanges start spans) : start ≤ r.1 := by
  induction spans generalizing start with
  | nil => exact absurd h List.not_mem_nil
  | cons s rest ih =>
    rw [commentRanges] at h
    split at h
    · rcases List.mem_cons.mp h with rfl | h
      · exact Nat.le_refl start
      · exact Nat.le_of_add_right_le (ih h)
    · exact Nat.le_of_add_right_le (ih h)

theorem ordered_commentRanges {spans : List Span} (start : Nat)
    (h : ∀ s ∈ spans, s.isComment = true → s.text ≠ []) : Ordered (commentRanges start spans) := by
  induction spans generalizing start with
  | nil => exact ⟨fun r hr => absurd hr List.not_mem_nil, List.Pairwise.nil⟩
  | cons s rest ih =>
    have hrest := ih (start + s.text.length) fun x hx => h x (List.mem_cons_of_mem s hx)
    rw [commentRanges]
    split
    · rename_i hcomment
      have hs : 0 < s.text.length := List.length_pos_iff.mpr (h s List.mem_cons_self hcomment)
      refine ⟨List.forall_mem_cons.mpr ⟨?_, hrest.filled⟩,
        List.pairwise_cons.mpr ⟨fun r hr => le_of_mem_commentRanges hr, hrest.apart⟩⟩
      show start < start + s.text.length
      omega
    · exact hrest

/-- The ranges of the comments of a line are the places of their characters. -/
theorem classAt?_eq_comment_iff (spans : List Span) (start i : Nat) :
    Span.classAt? spans i = some .comment ↔ InRanges (commentRanges start spans) (start + i) := by
  induction spans generalizing start i with
  | nil => simp [Span.classAt?, commentRanges, InRanges]
  | cons s rest ih =>
    have hlater : ∀ j, InRanges (commentRanges (start + s.text.length) rest) j →
        start + s.text.length ≤ j := by
      rintro j ⟨r, hr, hfirst, -⟩
      exact Nat.le_trans (le_of_mem_commentRanges hr) hfirst
    rw [Span.classAt?, commentRanges]
    by_cases hi : i < s.text.length
    · have hnot : ¬ InRanges (commentRanges (start + s.text.length) rest) (start + i) := by
        intro hin
        have := hlater _ hin
        omega
      rw [if_pos hi, Option.some_inj]
      by_cases hcomment : s.isComment = true
      · rw [if_pos hcomment, inRanges_cons]
        exact iff_of_true (eq_of_beq hcomment) (.inl ⟨by simp, by simpa using hi⟩)
      · rw [if_neg hcomment]
        exact iff_of_false (fun hkind => hcomment (beq_iff_eq.mpr hkind)) hnot
    · have hplace : start + i = start + s.text.length + (i - s.text.length) := by omega
      rw [if_neg hi, ih (start + s.text.length), ← hplace]
      by_cases hcomment : s.isComment = true
      · rw [if_pos hcomment, inRanges_cons]
        refine ⟨.inr, fun hin => hin.resolve_left fun hself => ?_⟩
        omega
      · rw [if_neg hcomment]

/-! ## Highlighting a fragment again -/

/-- From `first` to `last` there is no comment, and the stretch cannot be extended inside
the fragment from `pos` to `stop`. -/
structure CodeStretch (inComment : Nat → Prop) (pos stop first last : Nat) : Prop where
  start_le : pos ≤ first
  lt : first < last
  le_stop : last ≤ stop
  code : ∀ i, first ≤ i → i < last → ¬ inComment i
  left : first = pos ∨ inComment (first - 1)
  right : last = stop ∨ inComment last

theorem CodeStretch.congr {p q : Nat → Prop} {pos stop first last : Nat}
    (h : CodeStretch p pos stop first last) (hpq : ∀ i, pos ≤ i → i < stop → (p i ↔ q i)) :
    CodeStretch q pos stop first last := by
  have hstart := h.start_le
  have hlt := h.lt
  have hstop := h.le_stop
  refine ⟨hstart, hlt, hstop, fun i hfirst hlast hq => ?_, ?_, ?_⟩
  · exact h.code i hfirst hlast ((hpq i (by omega) (by omega)).mpr hq)
  · by_cases hpos : first = pos
    · exact .inl hpos
    · have hp := h.left.resolve_left hpos
      exact .inr ((hpq _ (by omega) (by omega)).mp hp)
  · by_cases hend : last = stop
    · exact .inl hend
    · have hp := h.right.resolve_left hend
      exact .inr ((hpq _ (by omega) (by omega)).mp hp)

section
variable (lexer : Lexer) {pos stop : Nat} {t : Text} {first last : Nat}
  {ranges : List (Nat × Nat)}

/-- A comment that does not meet the fragment has no place in it. -/
theorem inRanges_of_apart (h : last ≤ pos ∨ stop ≤ first) {i : Nat} (hpos : pos ≤ i)
    (hstop : i < stop) : InRanges ((first, last) :: ranges) i ↔ InRanges ranges i := by
  rw [inRanges_cons]
  refine ⟨fun hin => hin.resolve_left fun hself => ?_, .inr⟩
  omega

/-- In front of the first comment of a fragment there is one stretch of code. -/
theorem CodeStretch.of_le_first {a b : Nat} (hordered : Ordered ((first, last) :: ranges))
    (h : CodeStretch (InRanges ((first, last) :: ranges)) pos stop a b) (hstop : first < stop)
    (hbefore : b ≤ first) : a = pos ∧ b = first := by
  have hfilled : first < last := hordered.filled (first, last) List.mem_cons_self
  have hstart := h.start_le
  have hlt := h.lt
  have hcode : ∀ i, i < first → ¬ InRanges ((first, last) :: ranges) i := by
    intro i hi hin
    rcases inRanges_cons.mp hin with hself | hlater
    · omega
    · have := hordered.le_of_inRanges hlater
      omega
  constructor
  · exact h.left.resolve_right (hcode (a - 1) (by omega))
  · by_contra hne
    exact hcode b (by omega) (h.right.resolve_left (by omega))

/-- Any other stretch lies behind the first comment, and is one of what follows it. -/
theorem CodeStretch.of_first_lt {a b : Nat} (hordered : Ordered ((first, last) :: ranges))
    (h : CodeStretch (InRanges ((first, last) :: ranges)) pos stop a b) (hpos : pos < last)
    (hbehind : first < b) : CodeStretch (InRanges ranges) last stop a b := by
  have hfilled : first < last := hordered.filled (first, last) List.mem_cons_self
  have hlt := h.lt
  have hstart : last ≤ a := by
    by_contra hnot
    exact h.code (max a first) (by omega) (by omega) (inRanges_cons.mpr (.inl (by omega)))
  refine ⟨hstart, hlt, h.le_stop, fun i hi hi' hin => ?_, ?_, ?_⟩
  · exact h.code i hi hi' (inRanges_cons.mpr (.inr hin))
  · rcases inRanges_cons.mp (h.left.resolve_left (by omega)) with hself | hin
    · exact .inl (by omega)
    · exact .inr hin
  · refine h.right.imp_right fun hin => ?_
    exact (inRanges_cons.mp hin).resolve_left (by omega)

theorem cover_of_apart (h : last ≤ pos ∨ stop ≤ first) :
    cover lexer pos stop t ((first, last) :: ranges) = cover lexer pos stop t ranges := by
  rw [cover, if_pos (by simpa using h)]

/-- A comment that meets the fragment is cut to it, and the code in front of it is
highlighted by itself. -/
theorem exists_cover_of_meets (ranges : List (Nat × Nat)) (hlength : t.length = stop - pos)
    (hfilled : first < last) (hpos : pos < last) (hstop : first < stop) :
    ∃ code comment, cover lexer pos stop t ((first, last) :: ranges) =
        relex lexer code ++ ⟨.comment, comment⟩ ::
          cover lexer (min last stop) stop (t.drop (min last stop - pos)) ranges ∧
      code = t.take (first - pos) ∧ code.length = first - pos ∧
      code.length + comment.length = min last stop - pos := by
  have hcode : (t.take (first - pos)).length = first - pos := by
    rw [List.length_take]
    omega
  have hcomment : ((t.drop (first - pos)).take (min last stop - max first pos)).length
      = min last stop - max first pos := by
    rw [List.length_take, List.length_drop]
    omega
  have hboth : first - pos + (min last stop - max first pos) = min last stop - pos := by omega
  refine ⟨t.take (first - pos), (t.drop (first - pos)).take (min last stop - max first pos), ?_,
    rfl, hcode, by rw [hcode, hcomment, hboth]⟩
  rw [cover, if_neg (by simp; omega)]
  simp only [List.drop_drop, hboth]

end

/-- What was inside a comment is in one again. -/
theorem classAt?_cover (lexer : Lexer) {ranges : List (Nat × Nat)} (hordered : Ordered ranges)
    {pos stop : Nat} {t : Text} (hlength : t.length = stop - pos) {i : Nat} (hpos : pos ≤ i)
    (hstop : i < stop) (hin : InRanges ranges i) :
    Span.classAt? (cover lexer pos stop t ranges) (i - pos) = some .comment := by
  induction ranges generalizing pos t with
  | nil =>
    obtain ⟨r, hr, -⟩ := hin
    exact absurd hr List.not_mem_nil
  | cons range ranges ih =>
    obtain ⟨first, last⟩ := range
    by_cases hapart : last ≤ pos ∨ stop ≤ first
    · rw [cover_of_apart lexer hapart]
      exact ih hordered.tail hlength hpos ((inRanges_of_apart hapart hpos hstop).mp hin)
    · have hfilled : first < last := hordered.filled (first, last) List.mem_cons_self
      have hfirst : first ≤ i := by
        rcases inRanges_cons.mp hin with hself | hlater
        · exact hself.1
        · have := hordered.le_of_inRanges hlater
          omega
      obtain ⟨code, comment, hcover, -, hcode, hboth⟩ :=
        exists_cover_of_meets lexer ranges hlength hfilled (by omega) (by omega)
      rw [hcover, Span.classAt?_append_of_le (by rw [relex_text]; omega), relex_text,
        Span.classAt?]
      by_cases hself : i - pos - code.length < comment.length
      · exact if_pos hself
      · -- Behind the comment the rest of the fragment is covered by the ranges that follow.
        have hplace : i - pos - code.length - comment.length = i - min last stop := by omega
        have hreached : min last stop ≤ i := by omega
        have hlater : InRanges ranges i := by
          refine (inRanges_cons.mp hin).resolve_left fun hinside => ?_
          omega
        have hrest : (t.drop (min last stop - pos)).length = stop - min last stop := by
          rw [List.length_drop]
          omega
        rw [if_neg hself, hplace]
        exact ih hordered.tail hrest hreached hlater

/-- A stretch of code that cannot be extended is highlighted by itself. -/
theorem exists_relex_cover (lexer : Lexer) {ranges : List (Nat × Nat)} (hordered : Ordered ranges)
    {pos stop : Nat} {t : Text} (hlength : t.length = stop - pos) {a b : Nat}
    (h : CodeStretch (InRanges ranges) pos stop a b) :
    ∃ before after, cover lexer pos stop t ranges =
        before ++ relex lexer ((t.drop (a - pos)).take (b - a)) ++ after ∧
      (before.flatMap Span.text).length = a - pos := by
  have hstart := h.start_le
  have hlt := h.lt
  have hend := h.le_stop
  induction ranges generalizing pos t with
  | nil =>
    have hnone : ∀ i, ¬ InRanges [] i := fun i ⟨r, hr, _⟩ => List.not_mem_nil hr
    have ha : a = pos := h.left.resolve_right (hnone _)
    have hb : b = stop := h.right.resolve_right (hnone _)
    subst ha hb
    refine ⟨[], [], ?_, by simp⟩
    rw [Nat.sub_self, List.drop_zero, List.take_of_length_le (Nat.le_of_eq hlength),
      List.nil_append, List.append_nil, cover]
  | cons range ranges ih =>
    obtain ⟨first, last⟩ := range
    by_cases hapart : last ≤ pos ∨ stop ≤ first
    · rw [cover_of_apart lexer hapart]
      have hsame := h.congr fun i hi hi' => inRanges_of_apart hapart hi hi'
      exact ih hordered.tail hlength hsame hstart
    · have hfilled : first < last := hordered.filled (first, last) List.mem_cons_self
      obtain ⟨code, comment, hcover, htake, -, hboth⟩ :=
        exists_cover_of_meets lexer ranges hlength hfilled (by omega) (by omega)
      rw [hcover]
      by_cases hbefore : b ≤ first
      · obtain ⟨rfl, rfl⟩ := h.of_le_first hordered (by omega) hbefore
        rw [Nat.sub_self, List.drop_zero, ← htake]
        exact ⟨[], _, rfl, rfl⟩
      · have hrest := h.of_first_lt hordered (by omega) (by omega)
        have hbehind := hrest.start_le
        have hmin : min last stop = last := Nat.min_eq_left (by omega)
        have hplace : last - pos + (a - last) = a - pos := by omega
        have hlength' : (t.drop (last - pos)).length = stop - last := by
          rw [List.length_drop]
          omega
        obtain ⟨before, after, hlater, hwhere⟩ := ih hordered.tail hlength' hrest hbehind
        rw [hmin, hlater, List.drop_drop, hplace]
        refine ⟨relex lexer code ++ ⟨.comment, comment⟩ :: before, after, by simp, ?_⟩
        rw [List.flatMap_append, List.flatMap_cons, relex_text, List.length_append,
          List.length_append, hwhere]
        simp only
        omega

/-! ## Lines -/

/-- How a fragment of a line, from `pos` to `stop`, is shown when it is highlighted
again. -/
structure SetAgain (lexer : Lexer) (source : Line) (f : Fragment) (pos stop : Nat)
    (spans : List Span) : Prop where
  inside : pos ≤ stop ∧ stop ≤ source.text.length
  /-- The fragment is where it is said to be. -/
  body : f.body = (source.text.drop pos).take (stop - pos)
  text : spans.flatMap Span.text = f.body
  /-- A character of a comment is in a comment. -/
  comments : ∀ i, pos ≤ i → i < stop → Span.classAt? source.spans i = some .comment →
    Span.classAt? spans (i - pos) = some .comment
  /-- A stretch outside the comments is highlighted as a line of its own. -/
  code : ∀ first last,
    CodeStretch (fun i => Span.classAt? source.spans i = some .comment) pos stop first last →
    ∃ before after,
      spans = before ++
        (lexer.highlight ScanState.start ((source.text.drop first).take (last - first))).spans ++
          after ∧
      (before.flatMap Span.text).length = first - pos

theorem exists_cut_of_mem_zip_positions {t : Text} {width : Nat} {f : Fragment}
    {range : Nat × Nat}
    (h : (f, range) ∈ (fragments t width).zip (positions 0 (fragments t width))) :
    ∃ a b, t = a ++ f.body ++ b ∧ range = (a.length, a.length + f.body.length) := by
  obtain ⟨-, tail, -, htext⟩ := exists_tail_fragments t width
  rw [positions_eq_rangesBy] at h
  obtain ⟨a, b, hcut, hrange⟩ :=
    exists_cut_of_mem_zip_rangesBy (fun _ _ => List.length_append) [] tail h
  rw [List.nil_append, htext] at hcut
  rw [List.length_append] at hrange
  exact ⟨a, b, hcut, hrange⟩

theorem setAgain_cover (lexer : Lexer) {source : Line}
    (hcomments : ∀ s ∈ source.spans, s.isComment = true → s.text ≠ []) {f : Fragment}
    {a b : Text} (htext : source.text = a ++ f.body ++ b) :
    SetAgain lexer source f a.length (a.length + f.body.length)
      (cover lexer a.length (a.length + f.body.length) f.body (commentRanges 0 source.spans)) := by
  have hordered := ordered_commentRanges 0 hcomments
  have hlength : f.body.length = a.length + f.body.length - a.length := by omega
  have hbody : f.body = (source.text.drop a.length).take (a.length + f.body.length - a.length) := by
    rw [htext, List.append_assoc, List.drop_left, ← hlength, List.take_left]
  have hclass : ∀ i, Span.classAt? source.spans i = some .comment ↔
      InRanges (commentRanges 0 source.spans) i := by
    intro i
    rw [classAt?_eq_comment_iff source.spans 0, Nat.zero_add]
  refine ⟨?_, hbody, cover_text .., fun i hpos hstop hi => ?_, fun first last hcode => ?_⟩
  · rw [htext, List.length_append, List.length_append]
    omega
  · exact classAt?_cover lexer hordered hlength hpos hstop ((hclass i).mp hi)
  · have hstart := hcode.start_le
    have hstop := hcode.le_stop
    have hstretch := hcode.congr fun i _ _ => hclass i
    obtain ⟨before, after, hcover, hwhere⟩ :=
      exists_relex_cover lexer hordered hlength hstretch
    refine ⟨before, after, ?_, hwhere⟩
    have hslice : (f.body.drop (first - a.length)).take (last - first) =
        (source.text.drop first).take (last - first) := by
      have hplace : a.length + (first - a.length) = first := by omega
      have hroom : min (last - first) (f.body.length - (first - a.length)) = last - first := by
        omega
      rw [hbody, ← hlength, List.drop_take, List.drop_drop, hplace, List.take_take, hroom]
    rw [hcover, hslice]
    rfl

/-- Unless a highlighted line comes back as it is, each of its fragments is shown behind
its indentation, which is one span without a class, and is highlighted again but for its
comments. -/
theorem highlighted_keeps_comments (lexer : Lexer) {source : Line} (width : Nat)
    (hcomments : ∀ s ∈ source.spans, s.isComment = true → s.text ≠ [])
    (hchanged : highlighted lexer source width ≠ [source]) :
    List.Forall₂
      (fun piece shown => ∃ spans,
        shown.spans = Span.unlessEmpty .plain piece.1.indent ++ spans ∧
          SetAgain lexer source piece.1 piece.2.1 piece.2.2 spans)
      ((fragments source.text width).zip (positions 0 (fragments source.text width)))
      (highlighted lexer source width) := by
  have hcut : ¬ fragments source.text width = [⟨[], [], source.text⟩] := by
    intro hwhole
    exact hchanged (by rw [highlighted]; exact if_pos hwhole)
  rw [highlighted]
  simp only
  rw [if_neg hcut, List.forall₂_map_right_iff, List.forall₂_same]
  rintro ⟨f, range⟩ hmem
  obtain ⟨a, b, htext, rfl⟩ := exists_cut_of_mem_zip_positions hmem
  exact ⟨_, rfl, setAgain_cover lexer hcomments htext⟩

/-- A line with two comments, of which the second does not fit. -/
def annotated : Line :=
  ⟨(Lexer.carrying.highlight ScanState.start
    " a(\"x\") /*b*/ c /* a note that is cut */ d".toList).spans⟩

/-- The second comment is cut in two behind the code between the comments, and the
indentation is repeated in front of its second part. -/
theorem highlighted_keeps_comments_annotated :
    let shown : List Line :=
      [⟨[⟨.plain, " ".toList⟩, ⟨.function, "a".toList⟩, ⟨.operator, "(".toList⟩,
          ⟨.string, "\"x\"".toList⟩, ⟨.operator, ")".toList⟩, ⟨.plain, " ".toList⟩,
          ⟨.comment, "/*b*/".toList⟩, ⟨.plain, " ".toList⟩, ⟨.identifier, "c".toList⟩,
          ⟨.plain, " ".toList⟩, ⟨.comment, "/* a note that".toList⟩]⟩,
        ⟨[⟨.plain, " ".toList⟩, ⟨.comment, "is cut */".toList⟩, ⟨.plain, " ".toList⟩,
          ⟨.identifier, "d".toList⟩]⟩]
    (∀ s ∈ annotated.spans, s.isComment = true → s.text ≠ []) ∧ shown ≠ [annotated] ∧
    List.Forall₂
      (fun piece shown => ∃ spans,
        shown.spans = Span.unlessEmpty .plain piece.1.indent ++ spans ∧
          SetAgain Lexer.carrying annotated piece.1 piece.2.1 piece.2.2 spans)
      ((fragments annotated.text 32).zip [(0, 30), (31, 42)]) shown := by
  intro shown
  have hshown : highlighted Lexer.carrying annotated 32 = shown := by decide +kernel
  have hpositions : positions 0 (fragments annotated.text 32) = [(0, 30), (31, 42)] := by
    decide +kernel
  have hcomments : ∀ s ∈ annotated.spans, s.isComment = true → s.text ≠ [] := by decide +kernel
  have hchanged : shown ≠ [annotated] := by decide +kernel
  have hlines := highlighted_keeps_comments Lexer.carrying 32 hcomments
    (by rw [hshown]; exact hchanged)
  rw [hshown, hpositions] at hlines
  exact ⟨hcomments, hchanged, hlines⟩

end Wrap
end Listing
