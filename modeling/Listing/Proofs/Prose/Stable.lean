/-
Breaking a paragraph that was broken.

The lines of a paragraph, joined with single spaces, are broken into the same lines again
(`line_join_line`).  This is not clear where a line ended behind a sign inside a word, or
in the middle of one: the join puts a space there that the paragraph did not have, moves
all that follows by a column, and adds a place to break.

What a line leaves behind is the reason (`FirstLine`).  No place to break in the rest of
the paragraph would have fitted on the line, so none fits when it is moved further to the
right.  The next line ends at such a place, or it is so full that it does not fit on the
line as a whole; either way the space behind it does not fit either, as soon as the page
is wider than the window in which breaks are looked for.
-/
import Listing.Proofs.Wrap.Breaks
import Listing.Proofs.Wrap.Stable

namespace Listing

namespace Text

/-- A text that starts with ink, in which all white space is single spaces in front of
ink. -/
structure Spaced (t : Text) : Prop where
  start : indent t = []
  blank : ∀ before c after, t = before ++ c :: after → isBlank c = true →
    c = ' ' ∧ after ≠ [] ∧ indent after = []

theorem isBlank_space : isBlank ' ' = true := by decide

theorem isBlank_head_of_indent {c : Char} {t : Text} (h : indent (c :: t) = []) :
    isBlank c = false :=
  head_trimStart_not_blank (indent_eq_nil_iff.mp h)

theorem spaced_nil : Spaced [] := ⟨rfl, fun before c after h => absurd h (by simp)⟩

/-- Words joined with single spaces. -/
theorem spaced_join {words : List Text}
    (h : ∀ w ∈ words, w ≠ [] ∧ ∀ c ∈ w, isBlank c = false) : Spaced (join [' '] words) := by
  fun_induction join [' '] words with
  | case1 => exact spaced_nil
  | case2 w =>
    have hw := (h w List.mem_cons_self).2
    refine ⟨indent_of_forall_not_blank hw, fun before c after ht hc => ?_⟩
    rw [hw c (by rw [ht]; simp)] at hc
    exact absurd hc Bool.false_ne_true
  | case3 w rest hrest ih =>
    obtain ⟨hne, hw⟩ := h w List.mem_cons_self
    have hwords : ∀ v ∈ rest, v ≠ [] ∧ ∀ c ∈ v, isBlank c = false :=
      fun v hv => h v (List.mem_cons_of_mem w hv)
    have hspaced := ih hwords
    have hjoin : join [' '] rest ≠ [] := by
      cases rest with
      | nil => exact absurd rfl hrest
      | cons v rest =>
        have hv := (hwords v List.mem_cons_self).1
        cases rest with
        | nil => exact hv
        | cons u rest => exact fun hnil => hv (List.append_eq_nil_iff.mp
            (List.append_eq_nil_iff.mp hnil).1).1
    refine ⟨?_, fun before c after ht hc => ?_⟩
    · rw [List.append_assoc]
      exact indent_append_of_ne_nil (indent_of_forall_not_blank hw) hne _
    · rw [List.append_assoc] at ht
      rcases Wrap.cut_of_append_eq ht with ⟨z, hz⟩ | ⟨z, rfl, hz⟩
      · rw [hw c (by rw [hz]; simp)] at hc
        exact absurd hc Bool.false_ne_true
      · cases z with
        | nil =>
          obtain ⟨rfl, rfl⟩ := List.cons_eq_cons.mp hz
          exact ⟨rfl, hjoin, hspaced.start⟩
        | cons d z => exact hspaced.blank z c after (List.cons_eq_cons.mp hz).2 hc

namespace Spaced

variable {a b gap : Text}

theorem of_append (h : Spaced (a ++ b)) (hb : indent b = []) : Spaced b := by
  refine ⟨hb, fun before c after ht hc => h.blank (a ++ before) c after ?_ hc⟩
  rw [ht, List.append_assoc]

/-- White space inside is nothing or one space, and there is none at the end. -/
theorem gap_cases (h : Spaced (a ++ gap ++ b)) (hgap : allBlank gap = true) :
    gap = [] ∨ gap = [' '] ∧ b ≠ [] := by
  cases gap with
  | nil => exact .inl rfl
  | cons c gap =>
    have hc : isBlank c = true := isBlank_of_allBlank hgap List.mem_cons_self
    obtain ⟨rfl, hne, hafter⟩ := h.blank a c (gap ++ b) (by simp) hc
    cases gap with
    | nil => exact .inr ⟨rfl, hne⟩
    | cons d gap =>
      have hd : isBlank d = true :=
        isBlank_of_allBlank hgap (List.mem_cons_of_mem _ List.mem_cons_self)
      rw [isBlank_head_of_indent hafter] at hd
      exact absurd hd Bool.false_ne_true

theorem trimEnd_eq (h : Spaced a) : trimEnd a = a := by
  have hsplit : trimEnd a ++ Wrap.blankTail a = a := Wrap.trimEnd_append_blankTail a
  have hcut : Spaced (trimEnd a ++ Wrap.blankTail a ++ []) := by
    rwa [hsplit, List.append_nil]
  rcases hcut.gap_cases (Wrap.allBlank_blankTail a) with hnil | ⟨-, hne⟩
  · rwa [hnil, List.append_nil] at hsplit
  · exact absurd rfl hne

/-- In front of a space there is ink. -/
theorem trimEnd_of_space (h : Spaced (a ++ ' ' :: b)) : trimEnd a = a := by
  have hsplit : trimEnd a ++ Wrap.blankTail a = a := Wrap.trimEnd_append_blankTail a
  have hcut : Spaced (trimEnd a ++ (Wrap.blankTail a ++ [' ']) ++ b) := by
    rwa [← List.append_assoc (trimEnd a), hsplit, List.append_assoc]
  have hblank : allBlank (Wrap.blankTail a ++ [' ']) = true := by
    rw [allBlank, List.all_append]
    exact Bool.and_eq_true_iff.mpr ⟨Wrap.allBlank_blankTail a, rfl⟩
  have hlength : (Wrap.blankTail a ++ [' ']).length ≤ 1 := by
    rcases hcut.gap_cases hblank with hnil | ⟨hone, -⟩
    · exact absurd hnil (by simp)
    · rw [hone]
      exact Nat.le_refl 1
  have htail : Wrap.blankTail a = [] := by
    rw [List.length_append, List.length_singleton] at hlength
    exact List.length_eq_zero_iff.mp (by omega)
  rwa [htail, List.append_nil] at hsplit

end Spaced

theorem join_cons {between a : Text} {texts : List Text} (h : texts ≠ []) :
    join between (a :: texts) = a ++ between ++ join between texts := by
  cases texts with
  | nil => exact absurd rfl h
  | cons b texts => rfl

theorem trimEnd_concat {c : Char} (hc : isBlank c = false) (a : Text) :
    trimEnd (a ++ [c]) = a ++ [c] := by
  refine trimEnd_eq_self ?_
  rw [List.reverse_append]
  exact indent_append_cons (a := []) rfl hc a.reverse

end Text

namespace Wrap

/-- The lines of a text without indentation that does not fit. -/
def cutLines (width : Nat) (t : Text) : List Text :=
  (fragmentsFrom width [] [] 0 [] t).map Fragment.text

theorem cutLines_nil (width : Nat) : cutLines width [] = [] := by
  rw [cutLines, fragmentsFrom, List.map_nil]

/-- The white space passed over before a text does not show. -/
theorem map_text_fragmentsFrom (width : Nat) (gap t : Text) :
    (fragmentsFrom width [] [] 0 gap t).map Fragment.text = cutLines width t := by
  cases t with
  | nil => rw [cutLines, fragmentsFrom, fragmentsFrom]
  | cons c r =>
    rw [cutLines, fragmentsFrom, fragmentsFrom, List.map_cons, List.map_cons]
    rfl

theorem cutLines_of_cutsAt {width : Nat} {taken rest : Text} (h : CutsAt width 0 0 taken rest)
    (hne : taken ≠ []) : cutLines width (taken ++ rest) =
      Text.trimEnd taken :: cutLines width (Text.trimStart rest) := by
  rw [cutLines, fragmentsFrom_of_cutsAt h hne, List.map_cons, Text.width_nil,
    map_text_fragmentsFrom]
  rfl

/-- A text without indentation that does not fit is shown in these lines. -/
theorem line_of_wide {width : Nat} {t : Text} (hstart : Text.indent t = [])
    (hwide : width < Text.width t) (hwidth : 0 < width) : line t width = cutLines width t := by
  have hne : t ≠ [] := by
    rintro rfl
    exact absurd hwide (Nat.not_lt_zero width)
  have hblank : Text.allBlank t = false := by
    rw [Bool.eq_false_iff]
    intro hblank
    exact Text.ink_ne_nil_of_indent hstart hne (Text.ink_of_allBlank hblank)
  have hrepeated : repeated t width = [] := by
    rw [repeated, hstart, ite_self]
  have hroom : ¬ width ≤ Text.width [] := Nat.not_le.mpr hwidth
  rw [line, fragments_of_wide hwidth hblank hwide, hrepeated, hstart, if_neg hroom]
  rfl

/-! ## The first line of a paragraph -/

/-- How the first line `shown` of the paragraph `t` ends. -/
structure LineEnd (width : Nat) (t shown : Text) : Prop where
  fits : Text.width shown ≤ width
  inWindow : width ≤ Text.width shown + window
  /-- A full line would also be cut in front of a space. -/
  full : Text.width shown = width → ∀ more, CutsAt width 0 0 shown (' ' :: more)
  /-- The line has no room for a wide character, or it ends at a place to break. -/
  reach : width < Text.width shown + charRoom ∨ ∃ before b after,
    t = before ++ b :: after ∧ b ∈ breakChars ∧ Text.width before ≤ Text.width shown

/-- What is known of the first line of a paragraph that is broken into `shown`, white
space, and `rest`. -/
structure FirstLine (width : Nat) (shown gap rest : Text) : Prop
    extends LineEnd width (shown ++ gap ++ rest) shown where
  trimmed : Text.trimEnd shown = shown
  narrow : gap = [] ∨ gap = [' ']
  /-- Nothing in the rest of the paragraph could end the line. -/
  later : ∀ mid c after, rest = mid ++ c :: after → c ∈ breakChars →
    width < Text.width shown + Text.width gap + Text.width mid + Text.charWidth c

theorem isBlank_of_mem_breakChars {b : Char} (h : b ∈ breakChars) (hb : b ≠ ' ') :
    Text.isBlank b = false := by
  have hall : (breakChars.filter (· != ' ')).all (fun c => Text.isBlank c == false) = true := by
    decide
  have hmem : b ∈ breakChars.filter (· != ' ') := List.mem_filter.mpr ⟨h, bne_iff_ne.mpr hb⟩
  exact beq_iff_eq.mp (List.all_eq_true.mp hall b hmem)

theorem space_mem_breakChars : ' ' ∈ breakChars := by decide

/-- Behind a full line there is no place to break in a text that starts with a space. -/
theorem not_mayBreak_of_full {width : Nat} {shown more mid after : Text} {c : Char}
    (hfull : Text.width shown = width) (hmore : ' ' :: more = mid ++ c :: after) :
    ¬ MayBreak width 0 0 (shown ++ mid) c := by
  intro hbreak
  have hfits := hbreak.fits
  have hspace := charWidth_le_of_cons_eq hmore
  rw [Text.width_append] at hfits
  rw [Text.charWidth_space] at hspace
  omega

/-- A full line that ends with a place to break. -/
theorem cutsAt_of_break {width : Nat} {before : Text} {b : Char}
    (hbreak : MayBreak width 0 0 before b) (hfull : Text.width (before ++ [b]) = width)
    (more : Text) : CutsAt width 0 0 (before ++ [b]) (' ' :: more) := by
  have hsame : ∀ t, before ++ b :: t = before ++ [b] ++ t := by simp
  refine .atBreak ?_ hbreak fun mid c after hmore => ?_
  · rw [hsame, Text.width_append, hfull, Text.width_cons, Text.charWidth_space]
    omega
  · rw [hsame]
    exact not_mayBreak_of_full hfull hmore

/-- A line that is broken.  The space it ends with is not shown; any other sign is. -/
theorem lineEnd_of_break {width : Nat} {before rest : Text} {b : Char}
    (hbreak : MayBreak width 0 0 before b) (hspaced : Text.Spaced (before ++ b :: rest)) :
    LineEnd width (before ++ b :: rest) (Text.trimEnd (before ++ [b])) := by
  have hfits := hbreak.fits
  have hwindow := hbreak.inWindow
  have hb := charWidth_of_mem_breakChars hbreak.char
  by_cases hspace : b = ' '
  · subst hspace
    rw [Text.trimEnd_append_blank rfl, hspaced.trimEnd_of_space]
    refine ⟨by omega, by omega, fun hfull => by omega, .inr ?_⟩
    exact ⟨before, ' ', rest, rfl, hbreak.char, Nat.le_refl _⟩
  · have hwidth : Text.width (before ++ [b]) = Text.width before + 1 := by
      rw [Text.width_append, Text.width_cons, Text.width_nil, hb]
    rw [Text.trimEnd_concat (isBlank_of_mem_breakChars hbreak.char hspace)]
    refine ⟨by omega, by omega, fun hfull => cutsAt_of_break hbreak hfull, .inr ?_⟩
    exact ⟨before, b, rest, rfl, hbreak.char, by omega⟩

/-- A line that is cut where the page ends.  A space at its end would have been a place
to break, since the line is nearly full. -/
theorem lineEnd_of_width {width : Nat} {taken rest : Text} {c : Char}
    (hne : taken ≠ []) (hfits : 0 + Text.width taken ≤ width)
    (hnext : width < 0 + Text.width taken + Text.charWidth c)
    (hnone : ∀ before b after, taken = before ++ b :: after → ¬ MayBreak width 0 0 before b)
    (hspaced : Text.Spaced (taken ++ c :: rest)) :
    LineEnd width (taken ++ c :: rest) (Text.trimEnd taken) := by
  have hc := Text.charWidth_le c
  have hshown : Text.trimEnd taken = taken := by
    obtain ⟨before, d, hd⟩ := (List.eq_nil_or_concat taken).resolve_left hne
    rw [List.concat_eq_append] at hd
    subst hd
    apply Text.trimEnd_concat
    rw [Bool.eq_false_iff]
    intro hblank
    obtain ⟨rfl, -⟩ := hspaced.blank before d (c :: rest) (by simp) hblank
    rw [Text.width_append, Text.width_cons, Text.width_nil, Text.charWidth_space] at hfits hnext
    apply hnone before ' ' [] rfl
    refine ⟨space_mem_breakChars, Nat.zero_le _, ?_, ?_⟩
    · show width ≤ 0 + Text.width before + 30
      omega
    · rw [Text.charWidth_space]
      omega
  rw [hshown]
  refine ⟨by omega, ?_, fun hfull more => .atWidth hne hfits ?_ hnone, .inl ?_⟩
  · show width ≤ Text.width taken + 30
    omega
  · rw [Text.charWidth_space]
    omega
  · show width < Text.width taken + 3
    omega

theorem CutsAt.lineEnd {width : Nat} (hwidth : window < width) {taken rest : Text}
    (h : CutsAt width 0 0 taken rest) (hspaced : Text.Spaced (taken ++ rest))
    (hwide : width < Text.width (taken ++ rest)) :
    LineEnd width (taken ++ rest) (Text.trimEnd taken) := by
  cases h with
  | whole hfits =>
    rw [List.append_nil] at hwide
    omega
  | @atBreak before _ b _ hbreak _ =>
    have htext : before ++ [b] ++ rest = before ++ b :: rest := by simp
    rw [htext] at hspaced ⊢
    exact lineEnd_of_break hbreak hspaced
  | atWidth hne hfits hnext hnone => exact lineEnd_of_width hne hfits hnext hnone hspaced
  | @single c _ hover =>
    have hc := Text.charWidth_le c
    unfold window at hwidth
    omega

/-- A paragraph that is cut has a first line. -/
theorem exists_firstLine_of_cutsAt {width : Nat} (hwidth : window < width) {taken rest : Text}
    (hspaced : Text.Spaced (taken ++ rest)) (hwide : width < Text.width (taken ++ rest))
    (h : CutsAt width 0 0 taken rest) :
    ∃ gap, Text.trimEnd taken ++ gap ++ Text.trimStart rest = taken ++ rest ∧
      FirstLine width (Text.trimEnd taken) gap (Text.trimStart rest) := by
  have hsplit := trimmed_append_passedOver taken rest
  have hend := h.lineEnd hwidth hspaced hwide
  rw [← hsplit] at hspaced hend
  refine ⟨_, hsplit, hend, Text.trimEnd_trimEnd taken, ?_, fun mid c after hrest hc => ?_⟩
  · exact (hspaced.gap_cases (allBlank_passedOver taken rest)).imp_right And.left
  · have hwhole : rest = Text.indent rest ++ mid ++ c :: after := by
      rw [List.append_assoc, ← hrest, Text.indent_append_trimStart]
    have hout := h.not_fits hwhole hc
    have htaken := congrArg Text.width (trimEnd_append_blankTail taken)
    rw [Text.width_append] at hout htaken ⊢
    omega

theorem FirstLine.width_gap_le {width : Nat} {shown gap rest : Text}
    (h : FirstLine width shown gap rest) : Text.width gap ≤ 1 := by
  rcases h.narrow with hgap | hgap
  · rw [hgap]
    exact Nat.zero_le 1
  · rw [hgap]
    exact Nat.le_of_eq Text.charWidth_space

theorem FirstLine.ne_nil {width : Nat} (hwidth : window < width) {shown gap rest : Text}
    (h : FirstLine width shown gap rest) : shown ≠ [] := by
  rintro rfl
  have := h.inWindow
  rw [Text.width_nil] at this
  omega

/-- A paragraph that does not fit is its first line and a paragraph of what is left. -/
theorem exists_firstLine {width : Nat} (hwidth : window < width) {t : Text}
    (hspaced : Text.Spaced t) (hwide : width < Text.width t) :
    ∃ shown gap rest, shown ++ gap ++ rest = t ∧
      cutLines width t = shown :: cutLines width rest ∧
      FirstLine width shown gap rest ∧ Text.Spaced rest ∧ rest ≠ [] := by
  have hne : t ≠ [] := by
    rintro rfl
    exact absurd hwide (Nat.not_lt_zero width)
  obtain ⟨taken, rest, rfl, htaken, hcut⟩ := exists_cutsAt width 0 0 hne
  obtain ⟨gap, hsplit, hfirst⟩ := exists_firstLine_of_cutsAt hwidth hspaced hwide hcut
  have hrest : Text.Spaced (Text.trimStart rest) := by
    rw [← hsplit] at hspaced
    exact hspaced.of_append (Text.indent_trimStart rest)
  refine ⟨_, gap, _, hsplit, cutLines_of_cutsAt hcut htaken, hfirst, hrest, ?_⟩
  intro hnil
  rw [hnil] at hsplit
  rw [← hsplit] at hspaced hwide
  -- Without a rest there would be white space at the end, or the paragraph would fit.
  rcases hfirst.narrow with hgap | hgap
  · rw [hgap, List.append_nil, List.append_nil] at hwide
    exact Nat.not_le.mpr hwide hfirst.fits
  · rcases hspaced.gap_cases (by rw [hgap]; rfl) with hno | ⟨-, hno⟩
    · rw [hgap] at hno
      exact absurd hno (by simp)
    · exact absurd rfl hno

theorem cutLines_of_fits {width : Nat} {t : Text} (hspaced : Text.Spaced t) (hne : t ≠ [])
    (hfits : Text.width t ≤ width) : cutLines width t = [t] := by
  have hcut : CutsAt width 0 0 t [] := .whole (by omega)
  have hlines := cutLines_of_cutsAt hcut hne
  rw [List.append_nil, hspaced.trimEnd_eq] at hlines
  rw [hlines]
  exact congrArg (t :: ·) (cutLines_nil width)

/-- Induction over the lines of a paragraph. -/
theorem spaced_induction {width : Nat} (hwidth : window < width)
    {motive : (t : Text) → Text.Spaced t → t ≠ [] → Prop}
    (fits : ∀ t (hspaced : Text.Spaced t) (hne : t ≠ []), Text.width t ≤ width →
      motive t hspaced hne)
    (breaks : ∀ shown gap rest (hspaced : Text.Spaced (shown ++ gap ++ rest))
      (hne : shown ++ gap ++ rest ≠ []), width < Text.width (shown ++ gap ++ rest) →
      cutLines width (shown ++ gap ++ rest) = shown :: cutLines width rest →
      FirstLine width shown gap rest → ∀ (hrest : Text.Spaced rest) (hrestNe : rest ≠ []),
      motive rest hrest hrestNe → motive (shown ++ gap ++ rest) hspaced hne) :
    ∀ t hspaced hne, motive t hspaced hne := by
  intro t
  induction hn : t.length using Nat.strong_induction_on generalizing t with
  | _ n ih =>
    intro hspaced hne
    by_cases hfits : Text.width t ≤ width
    · exact fits t hspaced hne hfits
    · obtain ⟨shown, gap, rest, rfl, hlines, hfirst, hrest, hrestNe⟩ :=
        exists_firstLine hwidth hspaced (Nat.lt_of_not_le hfits)
      have hshorter : rest.length < n := by
        have hpos := List.length_pos_iff.mpr (hfirst.ne_nil hwidth)
        rw [List.length_append, List.length_append] at hn
        omega
      exact breaks shown gap rest hspaced hne (Nat.lt_of_not_le hfits) hlines hfirst hrest hrestNe
        (ih rest.length hshorter rest rfl hrest hrestNe)

/-! ## The lines joined again -/

/-- The joined lines start as the paragraph does and are at least as wide. -/
theorem joined_cutLines {width : Nat} (hwidth : window < width) {t : Text}
    (hspaced : Text.Spaced t) (hne : t ≠ []) :
    cutLines width t ≠ [] ∧ Text.join [' '] (cutLines width t) ≠ [] ∧
      Text.indent (Text.join [' '] (cutLines width t)) = [] ∧
      Text.width t ≤ Text.width (Text.join [' '] (cutLines width t)) := by
  induction t, hspaced, hne using spaced_induction hwidth with
  | fits t hspaced hne hfits =>
    rw [cutLines_of_fits hspaced hne hfits]
    exact ⟨List.cons_ne_nil _ _, hne, hspaced.start, Nat.le_refl _⟩
  | breaks shown gap rest hspaced hne hwide hlines hfirst hrest hrestNe ih =>
    obtain ⟨hcut, -, -, hjoin⟩ := ih
    have hshown := hfirst.ne_nil hwidth
    have hstart : Text.indent shown = [] := by
      obtain ⟨c, r, rfl⟩ := List.exists_cons_of_ne_nil hshown
      have hc : Text.isBlank c = false := Text.isBlank_head_of_indent hspaced.start
      exact Text.indent_append_cons (a := []) rfl hc r
    have hgap := hfirst.width_gap_le
    rw [hlines, Text.join_cons hcut, List.append_assoc]
    refine ⟨List.cons_ne_nil _ _, fun hnil => hshown (List.append_eq_nil_iff.mp hnil).1,
      Text.indent_append_of_ne_nil hstart hshown _, ?_⟩
    rw [Text.width_append, Text.width_append, Text.width_append, Text.width_append,
      Text.width_cons, Text.width_nil, Text.charWidth_space]
    omega

/-- Behind a line and a space no place to break in the joined rest fits. -/
theorem FirstLine.later_joined {width : Nat} (hwidth : window < width) {shown gap rest : Text}
    (h : FirstLine width shown gap rest) (hspaced : Text.Spaced rest) (hne : rest ≠ [])
    {mid after : Text} {c : Char}
    (hjoin : Text.join [' '] (cutLines width rest) = mid ++ c :: after) (hc : c ∈ breakChars) :
    width < Text.width shown + 1 + Text.width mid + Text.charWidth c := by
  have hgap := h.width_gap_le
  by_cases hfits : Text.width rest ≤ width
  · rw [cutLines_of_fits hspaced hne hfits] at hjoin
    have hlater := h.later mid c after hjoin hc
    omega
  · obtain ⟨next, gap', rest', rfl, hlines, hnext, hrest', hne'⟩ :=
      exists_firstLine hwidth hspaced (Nat.lt_of_not_le hfits)
    have hmore := (joined_cutLines hwidth hrest' hne').1
    rw [hlines, Text.join_cons hmore, List.append_assoc] at hjoin
    rcases cut_of_append_eq hjoin with ⟨z, hz⟩ | ⟨z, rfl, hz⟩
    · -- On the next line nothing has moved but by the space.
      have hlater := h.later mid c (z ++ gap' ++ rest') (by rw [hz]; simp) hc
      omega
    · -- Behind the next line, its own end is already too far to the right.
      have hspace : 1 ≤ Text.width z + Text.charWidth c := by
        rw [charWidth_of_mem_breakChars hc]
        omega
      have hwindow := h.inWindow
      have hend : width < Text.width shown + 1 + Text.width next + 1 := by
        rcases hnext.reach with hfull | ⟨before, b, behind, hb, hbreak, hbefore⟩
        · unfold charRoom at hfull
          unfold window at hwindow hwidth
          omega
        · have hlater := h.later before b behind hb hbreak
          rw [charWidth_of_mem_breakChars hbreak] at hlater
          omega
      rw [Text.width_append]
      omega

/-- The first line of a paragraph is also the first line of its joined lines. -/
theorem FirstLine.cutLines_joined {width : Nat} (hwidth : window < width) {shown gap rest : Text}
    (h : FirstLine width shown gap rest) (hspaced : Text.Spaced rest) (hne : rest ≠ [])
    (hwide : width < Text.width (shown ++ gap ++ rest)) :
    cutLines width (shown ++ ' ' :: Text.join [' '] (cutLines width rest)) =
      shown :: cutLines width (Text.join [' '] (cutLines width rest)) := by
  obtain ⟨-, hjoin, hstart, hjoinWidth⟩ := joined_cutLines hwidth hspaced hne
  have hlater : ∀ mid c after, Text.join [' '] (cutLines width rest) = mid ++ c :: after →
      c ∈ breakChars → width < Text.width shown + 1 + Text.width mid + Text.charWidth c :=
    fun mid c after hmid hc => h.later_joined hwidth hspaced hne hmid hc
  generalize Text.join [' '] (cutLines width rest) = more at *
  have hfits := h.fits
  have hwindow := h.inWindow
  have hgap := h.width_gap_le
  by_cases hfull : Text.width shown = width
  · have hlines := cutLines_of_cutsAt (h.full hfull more) (h.ne_nil hwidth)
    rw [hlines, h.trimmed]
    have htrim : Text.trimStart (' ' :: more) = more := by
      rw [Text.trimStart, List.dropWhile_cons_of_pos Text.isBlank_space]
      exact Text.indent_eq_nil_iff.mp hstart
    rw [htrim]
  · -- The space fits and is the last place to break.
    have hcut : CutsAt width 0 0 (shown ++ [' ']) more := by
      refine .atBreak ?_ ⟨space_mem_breakChars, Nat.zero_le _, by omega, ?_⟩ ?_
      · rw [Text.width_append, Text.width_cons, Text.charWidth_space]
        rw [Text.width_append, Text.width_append] at hwide
        omega
      · rw [Text.charWidth_space]
        omega
      · intro mid c after hmid hbreak
        have hout := hlater mid c after hmid hbreak.char
        have hin := hbreak.fits
        rw [Text.width_append, Text.width_cons, Text.charWidth_space] at hin
        omega
    have hlines := cutLines_of_cutsAt hcut (by simp)
    rw [List.append_assoc, List.singleton_append] at hlines
    rw [hlines, Text.trimEnd_append_blank rfl, h.trimmed, Text.indent_eq_nil_iff.mp hstart]

theorem cutLines_join_cutLines {width : Nat} (hwidth : window < width) {t : Text}
    (hspaced : Text.Spaced t) (hne : t ≠ []) :
    cutLines width (Text.join [' '] (cutLines width t)) = cutLines width t := by
  induction t, hspaced, hne using spaced_induction hwidth with
  | fits t hspaced hne hfits =>
    rw [cutLines_of_fits hspaced hne hfits]
    exact cutLines_of_fits hspaced hne hfits
  | breaks shown gap rest hspaced hne hwide hlines hfirst hrest hrestNe ih =>
    have hcut := (joined_cutLines hwidth hrest hrestNe).1
    rw [hlines, Text.join_cons hcut, List.append_assoc, List.singleton_append,
      hfirst.cutLines_joined hwidth hrest hrestNe hwide, ih]

/-- Words that were joined with single spaces and broken into lines are broken into the
same lines when the lines are joined with single spaces, also where a line ended inside a
word.  The page has to be wider than the window in which breaks are looked for. -/
theorem line_join_line {words : List Text}
    (hwords : ∀ w ∈ words, w ≠ [] ∧ ∀ c ∈ w, Text.isBlank c = false) {width : Nat}
    (hwidth : window < width) :
    line (Text.join [' '] (line (Text.join [' '] words) width)) width =
      line (Text.join [' '] words) width := by
  have hspaced := Text.spaced_join hwords
  generalize Text.join [' '] words = t at hspaced
  by_cases hfits : Text.width t ≤ width
  · have hwhole : line t width = [t] := line_of_whole (.inr (.inr hfits))
    rw [hwhole]
    exact hwhole
  · have hwide : width < Text.width t := Nat.lt_of_not_le hfits
    have hne : t ≠ [] := by
      rintro rfl
      exact hfits (Nat.zero_le width)
    obtain ⟨-, -, hstart, hjoin⟩ := joined_cutLines hwidth hspaced hne
    rw [line_of_wide hspaced.start hwide (by omega),
      line_of_wide hstart (by omega) (by omega), cutLines_join_cutLines hwidth hspaced hne]

/-- A word that is cut in front of a wide character, and one that is cut behind a comma. -/
def longWords : List Text :=
  [List.replicate 39 'x' ++ "日本".toList, "y".toList,
    List.replicate 20 'y' ++ ",".toList ++ List.replicate 25 'z']

theorem line_join_line_longWords :
    let lines := [List.replicate 39 'x', "日本 y ".toList ++ List.replicate 20 'y' ++ ",".toList,
      List.replicate 25 'z']
    (∀ w ∈ longWords, w ≠ [] ∧ ∀ c ∈ w, Text.isBlank c = false) ∧ window < 40 ∧
      line (Text.join [' '] longWords) 40 = lines ∧
      Text.join [' '] lines ≠ Text.join [' '] longWords ∧
      line (Text.join [' '] lines) 40 = lines := by
  intro lines
  have hinked : longWords.all (fun w => !w.isEmpty && w.all (!Text.isBlank ·)) = true := by
    decide +kernel
  have hwords : ∀ w ∈ longWords, w ≠ [] ∧ ∀ c ∈ w, Text.isBlank c = false := by
    simpa [List.all_eq_true] using hinked
  have hlines : line (Text.join [' '] longWords) 40 = lines := by decide +kernel
  have hmoved : Text.join [' '] lines ≠ Text.join [' '] longWords := by decide +kernel
  have hwidth : window < 40 := by decide
  have hagain := line_join_line hwords hwidth
  rw [hlines] at hagain
  exact ⟨hwords, hwidth, hlines, hmoved, hagain⟩

end Wrap
end Listing
