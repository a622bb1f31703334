/-
Where the fragments of a line stand in it.

A fragment takes up the white space passed over before it and the text it shows, and
the fragments of a line take up the line but for white space at its end
(`exists_tail_fragments`).  So the byte ranges of the fragments are cut out of the line
between characters, one after the other, and nothing but white space lies outside them
(`byteRanges_fragments`).
-/
import Listing.Proofs.Wrap.Fragments

namespace Listing
namespace Wrap

/-- The part of the line that a fragment takes up. -/
def Fragment.source (f : Fragment) : Text := f.gap ++ f.body

/-! ## Fragments of any kind

What follows holds of all fragments that make up a text, however they were found. -/

theorem byteRanges_cons (start : Nat) (gap indent body : Text) (rest : List Fragment) :
    byteRanges start (⟨gap, indent, body⟩ :: rest) =
      (start + Text.byteLength gap, start + Text.byteLength gap + Text.byteLength body) ::
        byteRanges (start + Text.byteLength gap + Text.byteLength body) rest := rfl

theorem length_byteRanges (start : Nat) (pieces : List Fragment) :
    (byteRanges start pieces).length = pieces.length := by
  induction pieces generalizing start with
  | nil => rfl
  | cons f rest ih => rw [byteRanges, List.length_cons, List.length_cons, ih]

/-- The ranges of fragments, counted by a measure of texts. -/
def rangesBy (measure : Text → Nat) (start : Nat) : List Fragment → List (Nat × Nat)
  | [] => []
  | f :: rest =>
    let first := start + measure f.gap
    let stop := first + measure f.body
    (first, stop) :: rangesBy measure stop rest

theorem byteRanges_eq_rangesBy (start : Nat) (pieces : List Fragment) :
    byteRanges start pieces = rangesBy Text.byteLength start pieces := by
  induction pieces generalizing start with
  | nil => rfl
  | cons f rest ih => rw [byteRanges, rangesBy, ih]

theorem positions_eq_rangesBy (start : Nat) (pieces : List Fragment) :
    positions start pieces = rangesBy List.length start pieces := by
  induction pieces generalizing start with
  | nil => rfl
  | cons f rest ih => rw [positions, rangesBy, ih]

/-- The range of a fragment is where its text stands, by any measure that adds up. -/
theorem exists_cut_of_mem_zip_rangesBy {measure : Text → Nat}
    (hadd : ∀ a b, measure (a ++ b) = measure a + measure b) {pieces : List Fragment}
    (before tail : Text) {f : Fragment} {range : Nat × Nat}
    (h : (f, range) ∈ pieces.zip (rangesBy measure (measure before) pieces)) :
    ∃ a b, before ++ (pieces.flatMap Fragment.source ++ tail) = a ++ f.body ++ b ∧
      range = (measure a, measure (a ++ f.body)) := by
  induction pieces generalizing before with
  | nil => exact absurd h List.not_mem_nil
  | cons g rest ih =>
    have hsource : (g :: rest).flatMap Fragment.source =
        g.gap ++ g.body ++ rest.flatMap Fragment.source := rfl
    rw [rangesBy, List.zip_cons_cons] at h
    rcases List.mem_cons.mp h with hhead | hrest
    · obtain ⟨rfl, rfl⟩ := Prod.mk.inj hhead
      refine ⟨before ++ f.gap, rest.flatMap Fragment.source ++ tail, ?_, ?_⟩
      · rw [hsource]
        simp only [List.append_assoc]
      · simp only [hadd]
    · have hstart : measure before + measure g.gap + measure g.body =
          measure (before ++ g.gap ++ g.body) := by
        simp only [hadd]
      rw [hstart] at hrest
      obtain ⟨a, b, htext, hrange⟩ := ih (before ++ g.gap ++ g.body) hrest
      refine ⟨a, b, ?_, hrange⟩
      rw [← htext, hsource]
      simp only [List.append_assoc]

theorem exists_cut_of_mem_zip {pieces : List Fragment} (before tail : Text)
    {f : Fragment} {range : Nat × Nat}
    (h : (f, range) ∈ pieces.zip (byteRanges (Text.byteLength before) pieces)) :
    ∃ a b, before ++ (pieces.flatMap Fragment.source ++ tail) = a ++ f.body ++ b ∧
      range = (Text.byteLength a, Text.byteLength (a ++ f.body)) := by
  rw [byteRanges_eq_rangesBy] at h
  exact exists_cut_of_mem_zip_rangesBy Text.byteLength_append before tail h

/-- A character of two texts stands in the first of them or in the second. -/
theorem cut_of_append_eq {a b x y : Text} {c : Char} (h : a ++ b = x ++ c :: y) :
    (∃ z, a = x ++ c :: z) ∨ ∃ z, x = a ++ z ∧ b = z ++ c :: y := by
  rcases List.append_eq_append_iff.mp h with ⟨z, hx, hb⟩ | ⟨z, ha, hb⟩
  · exact .inr ⟨z, hx, hb⟩
  · cases z with
    | nil =>
      rw [List.append_nil] at ha
      exact .inr ⟨[], by rw [ha, List.append_nil], hb.symm⟩
    | cons d z =>
      rw [List.cons_append, List.cons_eq_cons] at hb
      exact .inl ⟨z, by rw [ha, hb.1]⟩

/-- A character outside all ranges was passed over. -/
theorem isBlank_of_outside {pieces : List Fragment} {tail : Text}
    (hgaps : ∀ f ∈ pieces, Text.allBlank f.gap = true) (htail : Text.allBlank tail = true)
    (start : Nat) {x y : Text} {c : Char}
    (htext : pieces.flatMap Fragment.source ++ tail = x ++ c :: y)
    (hout : ∀ r ∈ byteRanges start pieces,
      start + Text.byteLength x < r.1 ∨ r.2 ≤ start + Text.byteLength x) :
    Text.isBlank c = true := by
  induction pieces generalizing start x with
  | nil =>
    rw [List.flatMap_nil, List.nil_append] at htext
    refine Text.isBlank_of_allBlank htail ?_
    rw [htext]
    exact List.mem_append_right x List.mem_cons_self
  | cons f rest ih =>
    rw [List.flatMap_cons, Fragment.source, List.append_assoc, List.append_assoc] at htext
    rw [byteRanges] at hout
    obtain ⟨hself, hrest⟩ := List.forall_mem_cons.mp hout
    obtain ⟨z, hgap⟩ | ⟨z, rfl, hbehind⟩ := cut_of_append_eq htext
    · refine Text.isBlank_of_allBlank (hgaps f List.mem_cons_self) ?_
      rw [hgap]
      exact List.mem_append_right x List.mem_cons_self
    · obtain ⟨w, hbody⟩ | ⟨w, rfl, hrestText⟩ := cut_of_append_eq hbehind
      · -- Inside the body the character would be in the range of this fragment.
        have hc : 0 < c.utf8Size := Char.utf8Size_pos c
        simp only [hbody, Text.byteLength_append, Text.byteLength_cons] at hself
        omega
      · have hothers : ∀ g ∈ rest, Text.allBlank g.gap = true :=
          fun g hg => hgaps g (List.mem_cons_of_mem f hg)
        refine ih hothers (start + Text.byteLength f.gap + Text.byteLength f.body) hrestText ?_
        intro r hr
        have hnot := hrest r hr
        simp only [Text.byteLength_append] at hnot
        omega

/-! ## The fragments of a line -/

theorem allBlank_blankTail (t : Text) : Text.allBlank (blankTail t) = true := by
  rw [blankTail, Text.allBlank, List.all_reverse]
  exact List.all_takeWhile

theorem trimEnd_append_blankTail (t : Text) : Text.trimEnd t ++ blankTail t = t :=
  Text.trimEnd_append_tail t

/-- What is passed over where a text is cut in two. -/
theorem allBlank_passedOver (a b : Text) :
    Text.allBlank (blankTail a ++ Text.indent b) = true := by
  rw [Text.allBlank, List.all_append, Bool.and_eq_true]
  exact ⟨allBlank_blankTail a, Text.allBlank_indent b⟩

theorem trimmed_append_passedOver (a b : Text) :
    Text.trimEnd a ++ (blankTail a ++ Text.indent b) ++ Text.trimStart b = a ++ b := by
  rw [← List.append_assoc (Text.trimEnd a), trimEnd_append_blankTail, List.append_assoc,
    Text.indent_append_trimStart]

/-- The fragments take up the text behind what was passed over, and what is left is white
space. -/
theorem exists_tail_fragmentsFrom (width least : Nat) (indent shown gap t : Text)
    (hgap : Text.allBlank gap = true) :
    (∀ f ∈ fragmentsFrom width indent shown least gap t, Text.allBlank f.gap = true) ∧
    ∃ tail, Text.allBlank tail = true ∧
      (fragmentsFrom width indent shown least gap t).flatMap Fragment.source ++ tail =
        gap ++ t := by
  fun_induction fragmentsFrom width indent shown least gap t with
  | case1 => exact ⟨fun f hf => absurd hf List.not_mem_nil, _, hgap, (List.append_nil _).symm⟩
  | case2 shown least gap c r n ih =>
    obtain ⟨hgaps, tail, htail, htext⟩ := ih (allBlank_passedOver _ _)
    refine ⟨List.forall_mem_cons.mpr ⟨hgap, hgaps⟩, tail, htail, ?_⟩
    rw [List.flatMap_cons, List.append_assoc, htext, Fragment.source]
    calc gap ++ Text.trimEnd ((c :: r).take n) ++
          (blankTail ((c :: r).take n) ++ Text.indent ((c :: r).drop n) ++
            Text.trimStart ((c :: r).drop n))
        = gap ++ (Text.trimEnd ((c :: r).take n) ++ (blankTail ((c :: r).take n) ++
            Text.indent ((c :: r).drop n)) ++ Text.trimStart ((c :: r).drop n)) := by
          simp only [List.append_assoc]
      _ = gap ++ c :: r := by rw [trimmed_append_passedOver, List.take_append_drop]

theorem exists_tail_fragments (t : Text) (width : Nat) :
    (∀ f ∈ fragments t width, Text.allBlank f.gap = true) ∧
    ∃ tail, Text.allBlank tail = true ∧
      (fragments t width).flatMap Fragment.source ++ tail = t := by
  obtain ⟨h, -⟩ | ⟨indent, least, gap, rest, h, htext, hgap, -⟩ := fragments_cases t width
  · rw [h]
    exact ⟨fun f hf => by rw [List.mem_singleton.mp hf]; rfl, [], rfl, by simp [Fragment.source]⟩
  · rw [h, ← htext]
    exact exists_tail_fragmentsFrom width least indent [] gap rest hgap

/-- The first fragment stands behind the white space passed over, and so do the others. -/
theorem le_fst_of_mem_byteRanges (width least : Nat) (indent shown gap t : Text) :
    ∀ start, ∀ r ∈ byteRanges start (fragmentsFrom width indent shown least gap t),
      start + Text.byteLength gap ≤ r.1 := by
  fun_induction fragmentsFrom width indent shown least gap t with
  | case1 => exact fun start r hr => absurd hr List.not_mem_nil
  | case2 shown least gap c rest n ih =>
    intro start r hr
    rw [byteRanges_cons] at hr
    rcases List.mem_cons.mp hr with rfl | hr
    · exact Nat.le_refl _
    · have hnext := ih _ r hr
      omega

/-- Each cut takes a character at least, so the next fragment starts further on. -/
theorem pairwise_byteRanges_fragmentsFrom (width least : Nat) (indent shown gap t : Text) :
    ∀ start, (byteRanges start (fragmentsFrom width indent shown least gap t)).Pairwise
      fun a b => a.1 < b.1 ∧ a.2 ≤ b.1 := by
  fun_induction fragmentsFrom width indent shown least gap t with
  | case1 => exact fun start => List.Pairwise.nil
  | case2 shown least gap c rest n ih =>
    intro start
    have hcut : 0 < Text.byteLength (Text.trimEnd ((c :: rest).take n)) +
        Text.byteLength (blankTail ((c :: rest).take n)) := by
      have hn : 0 < n := cutLength_pos (List.cons_ne_nil c rest)
      obtain ⟨m, hm⟩ := Nat.exists_eq_succ_of_ne_zero (Nat.ne_of_gt hn)
      have hc : 0 < c.utf8Size := Char.utf8Size_pos c
      rw [← Text.byteLength_append, trimEnd_append_blankTail, hm, List.take_succ_cons,
        Text.byteLength_cons]
      omega
    rw [byteRanges_cons]
    refine List.pairwise_cons.mpr ⟨fun r hr => ?_, ih _⟩
    have hnext := le_fst_of_mem_byteRanges _ _ _ _ _ _ _ r hr
    rw [Text.byteLength_append] at hnext
    simp only
    omega

/-- What is cut has a first fragment, with nothing but what is shown already in front. -/
theorem exists_fragmentsFrom_cons (width least : Nat) (indent shown gap : Text) {t : Text}
    (h : t ≠ []) :
    ∃ body rest, fragmentsFrom width indent shown least gap t = ⟨gap, shown, body⟩ :: rest := by
  obtain ⟨c, r, rfl⟩ := List.exists_cons_of_ne_nil h
  rw [fragmentsFrom]
  exact ⟨_, _, rfl⟩

theorem head?_fragments (t : Text) (width : Nat) :
    ((fragments t width).head?).map Fragment.indent = some [] := by
  by_cases hblank : Text.allBlank t = true
  · rw [fragments_of_whole (.inr (.inl hblank))]
    rfl
  · obtain ⟨h, -⟩ | ⟨indent, least, gap, rest, h, htext, hgap, -⟩ := fragments_cases t width
    · rw [h]
      rfl
    · have hrest : rest ≠ [] := by
        intro hnil
        rw [hnil, List.append_nil] at htext
        exact hblank (htext ▸ hgap)
      obtain ⟨body, more, hcons⟩ := exists_fragmentsFrom_cons width least indent [] gap hrest
      rw [h, hcons]
      rfl

theorem indent_of_mem_fragments {t : Text} {width : Nat} {f : Fragment}
    (hf : f ∈ fragments t width) : f.indent = [] ∨ f.indent = Text.indent t := by
  obtain ⟨h, -⟩ | ⟨indent, least, gap, rest, h, -, -, hindent⟩ := fragments_cases t width
  · rw [h, List.mem_singleton] at hf
    rw [hf]
    exact .inl rfl
  · rw [h] at hf
    rcases indent_of_mem_fragmentsFrom hf with hshown | hshown
    · exact .inl hshown
    · rw [hshown]
      exact hindent.imp id And.left

theorem pairwise_byteRanges_fragments (t : Text) (width : Nat) :
    (byteRanges 0 (fragments t width)).Pairwise fun a b => a.1 < b.1 ∧ a.2 ≤ b.1 := by
  obtain ⟨h, -⟩ | ⟨indent, least, gap, rest, h, -, -, -⟩ := fragments_cases t width
  · rw [h]
    exact List.pairwise_singleton _ _
  · rw [h]
    exact pairwise_byteRanges_fragmentsFrom width least indent [] gap rest 0

/-- Whatever the width is, a line has a fragment, the first one without indentation and the
others with that of the line or none.  Their byte ranges are cut out of the line between
characters, each starts behind the one before it, and all outside them is white space. -/
theorem byteRanges_fragments (t : Text) (width : Nat) :
    let pieces := fragments t width
    let ranges := byteRanges 0 pieces
    pieces.head?.map Fragment.indent = some [] ∧
    (∀ f ∈ pieces, f.indent = [] ∨ f.indent = Text.indent t) ∧
    ranges.length = pieces.length ∧
    (∀ p ∈ pieces.zip ranges, ∃ before after, t = before ++ p.1.body ++ after ∧
      p.2 = (Text.byteLength before, Text.byteLength (before ++ p.1.body))) ∧
    ranges.Pairwise (fun a b => a.1 < b.1 ∧ a.2 ≤ b.1) ∧
    ∀ before c after, t = before ++ c :: after →
      (∀ r ∈ ranges, Text.byteLength before < r.1 ∨ r.2 ≤ Text.byteLength before) →
      Text.isBlank c = true := by
  intro pieces ranges
  obtain ⟨hgaps, tail, htail, htext⟩ := exists_tail_fragments t width
  refine ⟨head?_fragments t width, fun f hf => indent_of_mem_fragments hf,
    length_byteRanges 0 pieces, ?_, pairwise_byteRanges_fragments t width, ?_⟩
  · intro p hp
    obtain ⟨before, after, hcut, hrange⟩ := exists_cut_of_mem_zip [] tail hp
    rw [List.nil_append, htext] at hcut
    exact ⟨before, after, hcut, hrange⟩
  · intro before c after hc hout
    rw [← htext] at hc
    refine isBlank_of_outside hgaps htail 0 hc fun r hr => ?_
    rw [Nat.zero_add]
    exact hout r hr

end Wrap
end Listing
