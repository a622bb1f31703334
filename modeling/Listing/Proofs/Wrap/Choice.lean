/-
Which places a line is broken at.

`BrokenInto` says where each fragment of a line starts and ends, by places in the line and
without the scan that looks for them: a fragment takes all that is left if it fits, else it
ends behind the last place to break, else with the page.  There is one way to break a line
like that and it is the one in which lines are wrapped (`brokenInto_iff_eq_placed`).

The scan keeps out of the indentation by columns and the description by places.  The two
agree since no sign that allows a break is without width (`mayBreak_iff_breakPlace`).
-/
import Listing.Proofs.Wrap.Breaks

namespace Listing
namespace Wrap

/-! ## Where a fragment ends -/

/-- A fragment that starts at `column` may end right behind the sign `b`, which follows
`before`.  The indentation that the text itself starts with is `lead`. -/
structure BreakPlace (width column : Nat) (lead before : Text) (b : Char) : Prop where
  sign : b ∈ breakChars
  fits : column + Text.width (before ++ [b]) ≤ width
  inWindow : width - window ≤ column + Text.width before
  outside : lead <+: before

/-- A fragment that starts at `column` takes the first of two texts and leaves the other. -/
inductive EndsAt (width column : Nat) (lead : Text) : Text → Text → Prop
  /-- All of it fits. -/
  | whole {taken : Text} (hne : taken ≠ []) (hfits : column + Text.width taken ≤ width) :
      EndsAt width column lead taken []
  /-- It does not fit and ends behind the last place to break. -/
  | atBreak {before behind : Text} {b : Char}
      (hwide : width < column + Text.width (before ++ b :: behind))
      (hplace : BreakPlace width column lead before b)
      (hlast : ∀ mid c after, behind = mid ++ c :: after →
        ¬ BreakPlace width column lead (before ++ b :: mid) c) :
      EndsAt width column lead (before ++ [b]) behind
  /-- There is no place to break, and it takes the most that fits. -/
  | atWidth {taken behind : Text} (hne : taken ≠ []) (hbehind : behind ≠ [])
      (hnone : ∀ before b after, taken ++ behind = before ++ b :: after →
        ¬ BreakPlace width column lead before b)
      (hfits : column + Text.width taken ≤ width)
      (hmost : ∀ more, more <+: behind → more ≠ [] →
        width < column + Text.width (taken ++ more)) :
      EndsAt width column lead taken behind
  /-- Not even its first character fits. -/
  | single {c : Char} {behind : Text} (hwide : width < column + Text.charWidth c) :
      EndsAt width column lead [c] behind

/-- Of two starts of a text, one that is narrower is shorter, if there is a sign with some
width behind it. -/
theorem isPrefix_of_width_le {lead before after : Text} {b : Char}
    (hlead : lead <+: before ++ b :: after) (hb : 0 < Text.charWidth b)
    (hwidth : Text.width lead ≤ Text.width before) : lead <+: before := by
  rcases List.prefix_or_prefix_of_prefix hlead (List.prefix_append before (b :: after)) with
    h | ⟨more, rfl⟩
  · exact h
  · rw [List.prefix_append_right_inj] at hlead
    cases more with
    | nil => exact ⟨[], by simp⟩
    | cons d more =>
      obtain ⟨rfl, -⟩ := List.cons_prefix_cons.mp hlead
      rw [Text.width_append, Text.width_cons] at hwidth
      omega

/-- The column in front of which the scan takes no break is that behind the indentation. -/
theorem mayBreak_iff_breakPlace {width column : Nat} {lead t before after : Text} {b : Char}
    (hlead : lead <+: t) (ht : t = before ++ b :: after) :
    MayBreak width (column + Text.width lead) column before b ↔
      BreakPlace width column lead before b := by
  rw [ht] at hlead
  have hwidth : Text.width (before ++ [b]) = Text.width before + Text.charWidth b := by
    rw [Text.width_append, Text.width_cons, Text.width_nil, Nat.add_zero]
  constructor
  · intro h
    have hb := charWidth_of_mem_breakChars h.char
    have hallowed := h.allowed
    have hfits := h.fits
    have hwindow := h.inWindow
    refine ⟨h.char, by omega, by omega, ?_⟩
    exact isPrefix_of_width_le hlead (by omega) (by omega)
  · intro h
    have hfits := h.fits
    have hwindow := h.inWindow
    have houtside := Text.width_le_of_isPrefix h.outside
    exact ⟨h.sign, by omega, by omega, by omega⟩

theorem EndsAt.ne_nil {width column : Nat} {lead taken behind : Text}
    (h : EndsAt width column lead taken behind) : taken ≠ [] := by
  cases h with
  | whole hne _ => exact hne
  | atBreak _ _ _ => simp
  | atWidth hne _ _ _ _ => exact hne
  | single _ => simp

theorem EndsAt.cutsAt {width column : Nat} {lead taken behind : Text}
    (h : EndsAt width column lead taken behind) (hlead : lead <+: taken ++ behind) :
    CutsAt width (column + Text.width lead) column taken behind := by
  cases h with
  | whole _ hfits => exact .whole hfits
  | @atBreak before _ b hwide hplace hlast =>
    have hfirst := (List.append_cons before b behind).symm
    refine .atBreak hwide ((mayBreak_iff_breakPlace hlead hfirst).mpr hplace) ?_
    intro mid c after hbehind hbreak
    have htext : before ++ [b] ++ behind = before ++ b :: mid ++ c :: after := by
      rw [hbehind]
      simp
    exact hlast mid c after hbehind ((mayBreak_iff_breakPlace hlead htext).mp hbreak)
  | atWidth hne hbehind hnone hfits hmost =>
    obtain ⟨c, rest, rfl⟩ := List.exists_cons_of_ne_nil hbehind
    have hnext := hmost [c] (List.prefix_append [c] rest) (List.cons_ne_nil c [])
    rw [Text.width_append, Text.width_cons, Text.width_nil] at hnext
    refine .atWidth hne hfits (by omega) ?_
    intro before b after htaken hbreak
    have htext : taken ++ c :: rest = before ++ b :: (after ++ c :: rest) := by
      rw [htaken, List.append_assoc, List.cons_append]
    exact hnone before b _ htext ((mayBreak_iff_breakPlace hlead htext).mp hbreak)
  | single hwide => exact .single hwide

theorem CutsAt.endsAt {width column : Nat} {lead taken behind : Text}
    (h : CutsAt width (column + Text.width lead) column taken behind) (hne : taken ≠ [])
    (hlead : lead <+: taken ++ behind) : EndsAt width column lead taken behind := by
  cases h with
  | whole hfits => exact .whole hne hfits
  | @atBreak before _ b hwide hbreak hlast =>
    have hfirst := (List.append_cons before b behind).symm
    refine .atBreak hwide ((mayBreak_iff_breakPlace hlead hfirst).mp hbreak) ?_
    intro mid c after hbehind hplace
    have htext : before ++ [b] ++ behind = before ++ b :: mid ++ c :: after := by
      rw [hbehind]
      simp
    exact hlast mid c after hbehind ((mayBreak_iff_breakPlace hlead htext).mpr hplace)
  | @atWidth _ rest c hne hfits hnext hnone =>
    refine .atWidth hne (List.cons_ne_nil c rest) ?_ hfits ?_
    · intro before b after htext hplace
      have hbreak := (mayBreak_iff_breakPlace hlead htext).mpr hplace
      rcases cut_of_append_eq htext with ⟨z, htaken⟩ | ⟨z, rfl, hz⟩
      · exact hnone before b z htaken hbreak
      · -- Behind what is taken nothing fits.
        have hroom := hbreak.fits
        have hcover := charWidth_le_of_cons_eq hz
        rw [Text.width_append] at hroom
        omega
    · intro more hmore hmoreNe
      obtain ⟨d, more, rfl⟩ := List.exists_cons_of_ne_nil hmoreNe
      obtain ⟨rfl, -⟩ := List.cons_prefix_cons.mp hmore
      rw [Text.width_append, Text.width_cons]
      omega
  | single hwide => exact .single hwide

/-! ## Where the next one starts -/

/-- The fragments of the text that stands at byte `start` of its line, each with the
indentation printed in front and the bytes it starts and ends at.  The first stands behind
`shown` and the others behind `indent`; the text starts with the indentation `lead`. -/
inductive FragmentsAt (width : Nat) (indent : Text) :
    Text → Text → Nat → Text → List (Text × Nat × Nat) → Prop
  | done {shown lead : Text} {start : Nat} : FragmentsAt width indent shown lead start [] []
  | next {shown lead taken behind : Text} {start : Nat} {more : List (Text × Nat × Nat)}
      (hends : EndsAt width (Text.width shown) lead taken behind)
      (hmore : FragmentsAt width indent indent []
        (start + Text.byteLength (taken ++ Text.indent behind)) (Text.trimStart behind) more) :
      FragmentsAt width indent shown lead start (taken ++ behind)
        ((shown, start, start + Text.byteLength (Text.trimEnd taken)) :: more)

/-- The fragments of a line that has to be cut.  It starts with its indentation, or behind
it if the indentation fills the page. -/
structure BrokenInto (t : Text) (width : Nat) (pieces : List (Text × Nat × Nat)) : Prop where
  keeps : Text.width (Text.indent t) < width →
    FragmentsAt width (repeated t width) [] (Text.indent t) 0 t pieces
  drops : width ≤ Text.width (Text.indent t) →
    FragmentsAt width (repeated t width) [] [] (Text.byteLength (Text.indent t))
      (Text.trimStart t) pieces

/-- Fragments with the bytes they start and end at. -/
def placed (start : Nat) (pieces : List Fragment) : List (Text × Nat × Nat) :=
  (pieces.map Fragment.indent).zip (byteRanges start pieces)

theorem placed_cons (start : Nat) (gap indent body : Text) (rest : List Fragment) :
    placed start (⟨gap, indent, body⟩ :: rest) =
      (indent, start + Text.byteLength gap,
        start + Text.byteLength gap + Text.byteLength body) ::
        placed (start + Text.byteLength gap + Text.byteLength body) rest := rfl

theorem fragmentsAt_iff {width : Nat} {indent shown lead t : Text} (hlead : lead <+: t)
    (start : Nat) (gap : Text) (pieces : List (Text × Nat × Nat)) :
    FragmentsAt width indent shown lead (start + Text.byteLength gap) t pieces ↔
      pieces = placed start (fragmentsFrom width indent shown
        (Text.width shown + Text.width lead) gap t) := by
  induction hn : t.length using Nat.strong_induction_on
    generalizing shown lead t start gap pieces with
  | _ n ih =>
    have hrest : ∀ taken behind more, taken ≠ [] → taken ++ behind = t →
        (FragmentsAt width indent indent []
            (start + Text.byteLength gap + Text.byteLength (taken ++ Text.indent behind))
            (Text.trimStart behind) more ↔
          more = placed (start + Text.byteLength gap + Text.byteLength (Text.trimEnd taken))
            (fragmentsFrom width indent indent (Text.width indent)
              (blankTail taken ++ Text.indent behind) (Text.trimStart behind))) := by
      intro taken behind more hne ht
      have hshorter : (Text.trimStart behind).length < n := by
        have hpos := List.length_pos_iff.mpr hne
        have hle : (Text.trimStart behind).length ≤ behind.length :=
          (List.dropWhile_sublist _).length_le
        rw [← hn, ← ht, List.length_append]
        omega
      have hbytes := congrArg Text.byteLength (trimEnd_append_blankTail taken)
      have hplace : start + Text.byteLength gap + Text.byteLength (taken ++ Text.indent behind) =
          start + Text.byteLength gap + Text.byteLength (Text.trimEnd taken) +
            Text.byteLength (blankTail taken ++ Text.indent behind) := by
        rw [Text.byteLength_append] at hbytes
        rw [Text.byteLength_append, Text.byteLength_append]
        omega
      rw [hplace]
      exact ih _ hshorter List.nil_prefix _ _ more rfl
    constructor
    · intro h
      cases h with
      | done => rw [fragmentsFrom]; rfl
      | @next _ _ taken behind _ more hends hmore =>
        rw [fragmentsFrom_of_cutsAt (hends.cutsAt hlead) hends.ne_nil, placed_cons,
          ← (hrest taken behind more hends.ne_nil rfl).mp hmore]
    · rintro rfl
      by_cases hne : t = []
      · subst hne
        rw [fragmentsFrom]
        exact .done
      · obtain ⟨taken, behind, rfl, htaken, hcut⟩ :=
          exists_cutsAt width (Text.width shown + Text.width lead) (Text.width shown) hne
        rw [fragmentsFrom_of_cutsAt hcut htaken, placed_cons]
        exact .next (hcut.endsAt htaken hlead) ((hrest taken behind _ htaken rfl).mpr rfl)

/-- A line that has to be cut is broken into its fragments and in no other way: where each
of them starts, which place to break is chosen, and which fragment is the last. -/
theorem brokenInto_iff_eq_placed {t : Text} {width : Nat} (hwidth : 0 < width)
    (hink : Text.allBlank t = false) (hwide : width < Text.width t)
    (pieces : List (Text × Nat × Nat)) :
    BrokenInto t width pieces ↔ pieces = placed 0 (fragments t width) := by
  have hlead : Text.indent t <+: t := List.takeWhile_prefix Text.isBlank
  have hnone : [] <+: Text.trimStart t := List.nil_prefix
  have hkeeps := @fragmentsAt_iff width (repeated t width) [] _ t hlead 0 [] pieces
  have hdrops := @fragmentsAt_iff width (repeated t width) [] _ _ hnone 0 (Text.indent t) pieces
  simp only [Text.width_nil, Text.byteLength_nil, Nat.zero_add] at hkeeps hdrops
  rw [fragments_of_wide hwidth hink hwide]
  by_cases hroom : width ≤ Text.width (Text.indent t)
  · rw [if_pos hroom, ← hdrops]
    exact ⟨fun h => h.drops hroom, fun h => ⟨fun hlt => absurd hroom (Nat.not_le.mpr hlt),
      fun _ => h⟩⟩
  · rw [if_neg hroom, ← hkeeps]
    exact ⟨fun h => h.keeps (Nat.lt_of_not_le hroom), fun h => ⟨fun _ => h,
      fun hle => absurd hle hroom⟩⟩

/-- A line that is broken behind a parenthesis, then where the page ends, and then shown to
its end. -/
theorem brokenInto_iff_eq_placed_call :
    let t := "  call(alpha, 日本語, beta, gamma)[delta_delta_delta_delta_delta_delta_delta]  ".toList
    let pieces := [([], 0, 37), ("  ".toList, 37, 69), ("  ".toList, 69, 80)]
    0 < 34 ∧ Text.allBlank t = false ∧ 34 < Text.width t ∧
      pieces = placed 0 (fragments t 34) ∧ BrokenInto t 34 pieces := by
  intro t pieces
  have hwidth : 0 < 34 := by decide
  have hink : Text.allBlank t = false := by decide +kernel
  have hwide : 34 < Text.width t := by decide +kernel
  have hplaced : pieces = placed 0 (fragments t 34) := by decide +kernel
  exact ⟨hwidth, hink, hwide, hplaced,
    (brokenInto_iff_eq_placed hwidth hink hwide pieces).mpr hplaced⟩

end Wrap
end Listing
