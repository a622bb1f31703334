/-
What the fragments of a line hold and how wide they are.

Two facts are proved of every wrapped line.  The fragments hold the ink of the
line, each character once and in order: what a cut passes over is white space,
and so is the indentation that is repeated.  And every fragment fits the page,
as soon as the page has room for one character behind the repeated indentation.
No fragment of a text that starts with ink is empty (`ink_ne_nil_of_mem_line`).

A line that was highlighted is wrapped as its text is (`text_highlighted`), since
highlighting a piece again loses nothing.
-/
import Listing.Proofs.Highlight.Lossless
import Listing.Proofs.Text.Blank
import Listing.Wrap

namespace Listing
namespace Wrap

/-- The indentation that is repeated in front of all fragments but the first. -/
def repeated (t : Text) (width : Nat) : Text :=
  if Text.width (Text.indent t) + window ≤ width then Text.indent t else []

theorem repeated_cases (t : Text) (width : Nat) :
    repeated t width = [] ∨
      repeated t width = Text.indent t ∧ Text.width (repeated t width) + window ≤ width := by
  unfold repeated
  split
  · rename_i hroom
    exact .inr ⟨rfl, hroom⟩
  · exact .inl rfl

theorem fragments_of_whole {t : Text} {width : Nat}
    (h : width = 0 ∨ Text.allBlank t = true ∨ Text.width t ≤ width) :
    fragments t width = [⟨[], [], t⟩] := by
  unfold fragments
  simp only
  rw [if_pos (by simpa [or_assoc] using h)]

/-- A line that has to be cut is cut behind its indentation or from its start. -/
theorem fragments_of_wide {t : Text} {width : Nat} (hwidth : 0 < width)
    (hink : Text.allBlank t = false) (hwide : width < Text.width t) :
    fragments t width =
      if width ≤ Text.width (Text.indent t) then
        fragmentsFrom width (repeated t width) [] 0 (Text.indent t) (Text.trimStart t)
      else fragmentsFrom width (repeated t width) [] (Text.width (Text.indent t)) [] t := by
  have hcut :
      ¬ (decide (width = 0) || Text.allBlank t || decide (Text.width t ≤ width)) = true := by
    rw [hink, Bool.or_false, Bool.or_eq_true, decide_eq_true_eq, decide_eq_true_eq]
    omega
  unfold fragments repeated
  simp only
  rw [if_neg hcut]

/-- A line is one fragment as it is, or it is cut behind its indentation or from its
start.  The indentation that is repeated is the line's own or none. -/
theorem fragments_cases (t : Text) (width : Nat) :
    (fragments t width = [⟨[], [], t⟩] ∧
      (width = 0 ∨ Text.allBlank t = true ∨ Text.width t ≤ width)) ∨
    ∃ indent least gap rest, fragments t width = fragmentsFrom width indent [] least gap rest ∧
      gap ++ rest = t ∧ Text.allBlank gap = true ∧
      (indent = [] ∨ indent = Text.indent t ∧ Text.width indent + window ≤ width) := by
  by_cases hwhole : width = 0 ∨ Text.allBlank t = true ∨ Text.width t ≤ width
  · exact .inl ⟨fragments_of_whole hwhole, hwhole⟩
  · obtain ⟨hwidth, hink, hwide⟩ : width ≠ 0 ∧ ¬ Text.allBlank t = true ∧
        ¬ Text.width t ≤ width := by simpa only [not_or] using hwhole
    rw [fragments_of_wide (Nat.pos_of_ne_zero hwidth) (Bool.eq_false_iff.mpr hink)
      (Nat.lt_of_not_le hwide)]
    refine .inr ?_
    split
    · exact ⟨_, _, _, _, rfl, Text.indent_append_trimStart t, Text.allBlank_indent t,
        repeated_cases t width⟩
    · exact ⟨_, _, _, _, rfl, List.nil_append t, rfl, repeated_cases t width⟩

/-! ## Ink -/

/-- The first fragment stands behind what is shown already, the others behind the
indentation. -/
theorem indent_of_mem_fragmentsFrom {width least : Nat} {indent shown gap t : Text}
    {f : Fragment} (hf : f ∈ fragmentsFrom width indent shown least gap t) :
    f.indent = shown ∨ f.indent = indent := by
  fun_induction fragmentsFrom width indent shown least gap t with
  | case1 => exact absurd hf List.not_mem_nil
  | case2 shown least gap c r n ih =>
    rcases List.mem_cons.mp hf with rfl | hf
    · exact .inl rfl
    · exact .inr ((ih hf).elim id id)

theorem allBlank_indent_of_mem_fragments {t : Text} {width : Nat} {f : Fragment}
    (hf : f ∈ fragments t width) : Text.allBlank f.indent = true := by
  obtain ⟨h, -⟩ | ⟨indent, least, gap, rest, h, -, -, hindent⟩ := fragments_cases t width
  · rw [h, List.mem_singleton] at hf
    rw [hf]
    rfl
  · rw [h] at hf
    rcases indent_of_mem_fragmentsFrom hf with hshown | hshown
    · rw [hshown]
      rfl
    · rw [hshown]
      rcases hindent with rfl | ⟨rfl, -⟩
      · rfl
      · exact Text.allBlank_indent t

/-- The bodies of the fragments hold the ink of the text.  One cut gives the text
as what is taken and what is dropped, and trimming either keeps its ink. -/
theorem ink_fragmentsFrom (width least : Nat) (indent shown gap t : Text) :
    (fragmentsFrom width indent shown least gap t).flatMap (fun f => Text.ink f.body)
      = Text.ink t := by
  fun_induction fragmentsFrom width indent shown least gap t with
  | case1 => rfl
  | case2 shown least gap c r n ih =>
    rw [List.flatMap_cons, ih, Text.ink_trimEnd, Text.ink_trimStart, ← Text.ink_append,
      List.take_append_drop]

theorem ink_fragments (t : Text) (width : Nat) :
    (fragments t width).flatMap (fun f => Text.ink f.body) = Text.ink t := by
  obtain ⟨h, -⟩ | ⟨indent, least, gap, rest, h, htext, hgap, -⟩ := fragments_cases t width
  · rw [h]
    exact List.append_nil _
  · rw [h, ink_fragmentsFrom, ← htext, Text.ink_append, Text.ink_of_allBlank hgap,
      List.nil_append]

theorem ink_text_of_mem_fragments {t : Text} {width : Nat} {f : Fragment}
    (hf : f ∈ fragments t width) : Text.ink f.text = Text.ink f.body := by
  rw [Fragment.text, Text.ink_append, Text.ink_of_allBlank (allBlank_indent_of_mem_fragments hf),
    List.nil_append]

theorem ink_line (t : Text) (width : Nat) : (line t width).flatMap Text.ink = Text.ink t := by
  rw [line, List.flatMap_map, ← ink_fragments t width]
  exact List.flatMap_congr fun f hf => ink_text_of_mem_fragments hf

/-- A text that starts with ink is cut into fragments that all have some: what is
passed over at a cut is all the white space there. -/
theorem ink_body_ne_nil_of_mem_fragmentsFrom {width least : Nat} {indent shown gap t : Text}
    {f : Fragment} (hstart : Text.indent t = [])
    (hf : f ∈ fragmentsFrom width indent shown least gap t) : Text.ink f.body ≠ [] := by
  fun_induction fragmentsFrom width indent shown least gap t with
  | case1 => exact absurd hf List.not_mem_nil
  | case2 shown least gap c r n ih =>
    rcases List.mem_cons.mp hf with rfl | hf
    · have hn : 0 < n := cutLength_pos (List.cons_ne_nil c r)
      obtain ⟨m, hm⟩ := Nat.exists_eq_succ_of_ne_zero (Nat.ne_of_gt hn)
      have hc : Text.isBlank c = false :=
        Text.head_trimStart_not_blank (Text.indent_eq_nil_iff.mp hstart)
      show Text.ink (Text.trimEnd ((c :: r).take n)) ≠ []
      rw [Text.ink_trimEnd, hm, List.take_succ_cons, Text.ink,
        List.filter_cons_of_pos (by rw [hc]; rfl)]
      exact List.cons_ne_nil _ _
    · exact ih (Text.indent_trimStart _) hf

theorem ink_ne_nil_of_mem_line {t : Text} {width : Nat} (hstart : Text.indent t = [])
    (hne : t ≠ []) {shown : Text} (h : shown ∈ line t width) : Text.ink shown ≠ [] := by
  obtain ⟨f, hf, rfl⟩ := List.mem_map.mp h
  rw [ink_text_of_mem_fragments hf]
  obtain ⟨h, -⟩ | ⟨indent, least, gap, rest, h, htext, hgap, -⟩ := fragments_cases t width
  · rw [h, List.mem_singleton] at hf
    subst hf
    exact Text.ink_ne_nil_of_indent hstart hne
  · -- Nothing is passed over before the first fragment either.
    have hrest : rest = t := by
      cases gap with
      | nil => exact htext
      | cons c gap =>
        have hc : Text.isBlank c = false :=
          Text.head_trimStart_not_blank ((Text.indent_eq_nil_iff.mp hstart).trans htext.symm)
        rw [Text.isBlank_of_allBlank hgap List.mem_cons_self] at hc
        exact absurd hc.symm Bool.false_ne_true
    rw [h, hrest] at hf
    exact ink_body_ne_nil_of_mem_fragmentsFrom hstart hf

/-! ## Highlighted lines -/

theorem relex_text (lexer : Lexer) (t : Text) : (relex lexer t).flatMap Span.text = t :=
  Lexer.highlight_text lexer ScanState.start t

/-- Classifying a piece of a line again keeps its text, wherever the comments of
the line are. -/
theorem cover_text (lexer : Lexer) (pos stop : Nat) (t : Text) (comments : List (Nat × Nat)) :
    (cover lexer pos stop t comments).flatMap Span.text = t := by
  induction comments generalizing pos t with
  | nil => exact relex_text lexer t
  | cons range comments ih =>
    rw [cover]
    split
    · exact ih pos t
    · simp only [List.flatMap_append, List.flatMap_cons, relex_text, ih, List.take_append_drop]

theorem length_positions (start : Nat) (pieces : List Fragment) :
    (positions start pieces).length = pieces.length := by
  induction pieces generalizing start with
  | nil => rfl
  | cons f rest ih =>
    rw [positions, List.length_cons, List.length_cons, ih]

/-- Wrapping a highlighted line and wrapping its text give the same lines. -/
theorem text_highlighted (lexer : Lexer) (source : Line) (width : Nat) :
    (highlighted lexer source width).map Line.text = line source.text width := by
  unfold highlighted
  simp only
  split
  · rename_i hwhole
    rw [line, hwhole]
    rfl
  · -- The positions only say where comments are; they take no fragment away.
    have hzip : ((fragments source.text width).zip
        (positions 0 (fragments source.text width))).map Prod.fst = fragments source.text width :=
      List.map_fst_zip (Nat.le_of_eq (length_positions 0 _).symm)
    rw [List.map_map, line]
    nth_rewrite 3 [← hzip]
    rw [List.map_map]
    refine List.map_congr_left fun x _ => ?_
    show Line.text ⟨Span.unlessEmpty .plain x.1.indent ++
      cover lexer x.2.1 x.2.2 x.1.body (commentRanges 0 source.spans)⟩ = x.1.text
    rw [Line.text, List.flatMap_append, Span.flatMap_text_unlessEmpty, cover_text]
    rfl

/-! ## Widths -/

theorem fitLength_width_le {width column : Nat} (t : Text) (h : column ≤ width) :
    column + Text.width (t.take (fitLength width column t)) ≤ width := by
  induction t generalizing column with
  | nil => exact h
  | cons c r ih =>
    rw [fitLength]
    split
    · exact h
    · rename_i hfits
      have hroom : column + Text.charWidth c ≤ width := Nat.le_of_not_lt hfits
      have hrest := ih hroom
      rw [List.take_succ_cons, Text.width_cons]
      omega

theorem breakLength?_width_le {width least column n : Nat} {t : Text}
    (h : breakLength? width least column t = some n) :
    column + Text.width (t.take n) ≤ width := by
  induction t generalizing column n with
  | nil => simp [breakLength?] at h
  | cons c r ih =>
    rw [breakLength?] at h
    split at h
    · simp at h
    · rename_i hfits
      split at h
      · rename_i m hm
        obtain rfl := Option.some.inj h
        have := ih hm
        rw [List.take_succ_cons, Text.width_cons]
        omega
      · split at h
        · obtain rfl := Option.some.inj h
          simp only [List.take_succ_cons, List.take_zero, Text.width_cons, Text.width_nil]
          omega
        · simp at h

/-- The widest character takes three columns. -/
def charRoom : Nat := 3

/-- What is cut off a text fits behind `column`, unless not even its first character
does. -/
theorem cutLength_cases {width column : Nat} (least : Nat) (c : Char) (r : Text)
    (h : column ≤ width) :
    column + Text.width ((c :: r).take (cutLength width least column (c :: r))) ≤ width ∨
      cutLength width least column (c :: r) = 1 ∧ width < column + Text.charWidth c := by
  unfold cutLength
  split
  · rename_i hall
    rw [Bool.and_eq_true, decide_eq_true_eq, Text.fits_iff] at hall
    rw [List.take_length]
    omega
  · split
    · rename_i hbreak
      exact .inl (breakLength?_width_le hbreak)
    · by_cases hfit : fitLength width column (c :: r) = 0
      · refine .inr ⟨by rw [hfit]; rfl, ?_⟩
        rw [fitLength] at hfit
        split at hfit
        · assumption
        · exact absurd hfit (Nat.succ_ne_zero _)
      · rw [Nat.max_eq_left (by omega)]
        exact .inl (fitLength_width_le (c :: r) h)

/-- Behind what leaves no room for the widest character there is nothing, so a fragment
fits the page or is a character that does not. -/
theorem fits_or_single_of_mem_fragmentsFrom {width least : Nat} {indent shown gap t : Text}
    {f : Fragment} (hshown : shown = [] ∨ Text.width shown + charRoom ≤ width)
    (hindent : indent = [] ∨ Text.width indent + charRoom ≤ width)
    (hf : f ∈ fragmentsFrom width indent shown least gap t) :
    Text.width f.text ≤ width ∨ ∃ c, f.text = [c] ∧ width < Text.charWidth c := by
  fun_induction fragmentsFrom width indent shown least gap t with
  | case1 => exact absurd hf List.not_mem_nil
  | case2 shown least gap c r n ih =>
    rcases List.mem_cons.mp hf with rfl | hf
    · have hcolumn : Text.width shown ≤ width := by
        rcases hshown with rfl | hroom
        · exact Nat.zero_le width
        · exact Nat.le_of_add_right_le hroom
      have hcut : Text.width shown + Text.width ((c :: r).take n) ≤ width ∨
          n = 1 ∧ width < Text.width shown + Text.charWidth c :=
        cutLength_cases least c r hcolumn
      have htrim := Text.width_trimEnd_le ((c :: r).take n)
      show Text.width (shown ++ Text.trimEnd ((c :: r).take n)) ≤ width ∨
        ∃ d, shown ++ Text.trimEnd ((c :: r).take n) = [d] ∧ width < Text.charWidth d
      rcases hcut with hfits | ⟨hn, hwide⟩
      · rw [Text.width_append]
        omega
      · rcases hshown with rfl | hroom
        · rw [hn, List.take_succ_cons, List.take_zero, List.nil_append]
          by_cases hc : Text.isBlank c = true
          · rw [Text.trimEnd_of_allBlank (by rw [Text.allBlank, List.all_cons, hc]; rfl)]
            exact .inl (Nat.zero_le width)
          · rw [Text.trimEnd_eq_self (Text.indent_of_forall_not_blank (by simpa using hc))]
            rw [Text.width_nil, Nat.zero_add] at hwide
            exact .inr ⟨c, rfl, hwide⟩
        · have hc := Text.charWidth_le c
          unfold charRoom at hroom
          omega
    · exact ih hindent hf

/-- The lines of a wrapped text fit the page or are characters that do not, unless the page
has no width or the text is white space, which is never cut. -/
theorem fits_or_single_of_mem_line {t shown : Text} {width : Nat} (h : shown ∈ line t width) :
    width = 0 ∨ Text.allBlank t = true ∨ Text.width shown ≤ width ∨
      ∃ c, shown = [c] ∧ width < Text.charWidth c := by
  obtain ⟨f, hf, rfl⟩ := List.mem_map.mp h
  obtain ⟨h, hwhole⟩ | ⟨indent, least, gap, rest, h, -, -, hindent⟩ := fragments_cases t width
  · rw [h, List.mem_singleton] at hf
    rw [hf]
    exact hwhole.imp_right (Or.imp_right .inl)
  · rw [h] at hf
    refine .inr (.inr (fits_or_single_of_mem_fragmentsFrom (.inl rfl) (hindent.imp_right ?_) hf))
    rintro ⟨-, hroom⟩
    exact Nat.le_trans (Nat.add_le_add_left (by decide) _) hroom

theorem width_le_of_mem_line {t : Text} {width : Nat} (hwidth : charRoom ≤ width)
    (hblank : Text.allBlank t = false) {shown : Text} (h : shown ∈ line t width) :
    Text.width shown ≤ width := by
  rcases fits_or_single_of_mem_line h with hzero | hall | hfits | ⟨c, -, hwide⟩
  · exact absurd hwidth (by rw [hzero]; decide)
  · exact absurd hall (by rw [hblank]; decide)
  · exact hfits
  · have hc := Text.charWidth_le c
    unfold charRoom at hwidth
    omega

end Wrap
end Listing
