/-
Fragments with nothing on them.

A line starts with its indentation unless that fills the page.  It may leave some room and
still not enough for the first sign, if that is a wide one.  The first fragment then ends in
front of the sign, and since white space at its end is not shown it shows nothing
(`not_inked_of_pinched_line`).  No other fragment of a line with ink is empty
(`inked_iff_not_pinched`): every later one starts with ink, and a first one that gets beyond
the indentation has some.
-/
import Listing.Proofs.Wrap.Choice

namespace Listing
namespace Wrap

/-- The indentation of a line leaves room on the page, but not for the sign behind it. -/
structure Pinched (t : Text) (width : Nat) : Prop where
  indented : Text.indent t ≠ []
  room : Text.width (Text.indent t) < width
  wide : width < Text.width (Text.indent t ++ (Text.trimStart t).take 1)

theorem Pinched.wide_sign {t : Text} {width : Nat} (h : Pinched t width) :
    1 < Text.width ((Text.trimStart t).take 1) := by
  have hroom := h.room
  have hwide := h.wide
  rw [Text.width_append] at hwide
  omega

theorem Pinched.lt_width {t : Text} {width : Nat} (h : Pinched t width) :
    width < Text.width t := by
  have hstart : Text.indent t ++ (Text.trimStart t).take 1 <+: t := by
    nth_rewrite 3 [← Text.indent_append_trimStart t]
    rw [List.prefix_append_right_inj]
    exact List.take_prefix 1 _
  exact Nat.lt_of_lt_of_le h.wide (Text.width_le_of_isPrefix hstart)

/-- The first fragment has no ink exactly if it ends in front of the first sign, which is
where the page ends. -/
theorem EndsAt.ink_eq_nil_iff {width : Nat} {lead taken behind r : Text} {c : Char}
    (h : EndsAt width 0 lead taken behind) (ht : taken ++ behind = lead ++ c :: r)
    (hlead : Text.allBlank lead = true) (hc : Text.isBlank c = false)
    (hroom : Text.width lead < width) :
    Text.ink taken = [] ↔ lead ≠ [] ∧ width < Text.width lead + Text.charWidth c := by
  rcases cut_of_append_eq ht with ⟨z, htaken⟩ | ⟨z, hz, hbehind⟩
  · -- The sign is on the fragment, and so is all in front of it.
    have hink : Text.ink taken ≠ [] := by
      rw [htaken, Text.ink_append, Text.ink, Text.ink,
        List.filter_cons_of_pos (by rw [hc]; rfl)]
      simp
    refine iff_of_false hink ?_
    rintro ⟨hne, hwide⟩
    have hmore : Text.width lead + Text.charWidth c ≤ Text.width taken := by
      rw [htaken, Text.width_append, Text.width_cons]
      omega
    cases h with
    | whole _ hfits => omega
    | @atBreak before _ b _ hplace _ =>
      have hfits := hplace.fits
      omega
    | atWidth _ _ _ hfits _ => omega
    | @single d _ _ =>
      obtain ⟨e, lead, rfl⟩ := List.exists_cons_of_ne_nil hne
      exact absurd htaken (by simp)
  · -- The fragment ends within the indentation or right behind it.
    have hink : Text.ink taken = [] := by
      have hall := Text.ink_of_allBlank hlead
      rw [hz, Text.ink_append] at hall
      exact (List.append_eq_nil_iff.mp hall).1
    refine iff_of_true hink ⟨fun hnil => ?_, ?_⟩
    · rw [hnil] at hz
      exact h.ne_nil (List.append_eq_nil_iff.mp hz.symm).1
    · cases h with
      | whole _ _ => exact absurd hbehind (by simp)
      | @atBreak before _ b _ hplace _ =>
        have hlength := congrArg List.length hz
        have houtside := hplace.outside.length_le
        simp only [List.length_append, List.length_cons] at hlength
        omega
      | atWidth _ _ _ _ hmost =>
        have hsign := hmost (z ++ [c]) (by rw [hbehind]; simp) (by simp)
        rw [← List.append_assoc, ← hz, Text.width_append, Text.width_cons, Text.width_nil]
          at hsign
        omega
      | @single d _ hwide =>
        rw [hz, Text.width_append, Text.width_cons] at hroom
        omega

/-- A line that has to be cut and starts with its indentation has this first fragment. -/
theorem exists_first_fragment {t : Text} {width : Nat} (hink : Text.allBlank t = false)
    (hwide : width < Text.width t) (hroom : Text.width (Text.indent t) < width) :
    ∃ taken behind gap, taken ++ behind = t ∧ EndsAt width 0 (Text.indent t) taken behind ∧
      fragments t width = ⟨[], [], Text.trimEnd taken⟩ ::
        fragmentsFrom width (repeated t width) (repeated t width)
          (Text.width (repeated t width)) gap (Text.trimStart behind) := by
  have hlead : Text.indent t <+: t := List.takeWhile_prefix Text.isBlank
  have hne : t ≠ [] := by
    rintro rfl
    exact absurd hwide (Nat.not_lt_zero width)
  rw [fragments_of_wide (Nat.zero_lt_of_lt hroom) hink hwide, if_neg (Nat.not_le.mpr hroom)]
  obtain ⟨taken, behind, ht, htaken, hcut⟩ :=
    exists_cutsAt width (0 + Text.width (Text.indent t)) 0 hne
  refine ⟨taken, behind, blankTail taken ++ Text.indent behind, ht,
    hcut.endsAt htaken (by rw [ht]; exact hlead), ?_⟩
  rw [Nat.zero_add, ← Text.width_nil] at hcut
  generalize Text.indent t = lead at hcut ⊢
  generalize repeated t width = indent
  rw [← ht]
  exact fragmentsFrom_of_cutsAt hcut htaken

/-- What is left behind a fragment starts with ink. -/
theorem ink_of_mem_later {width : Nat} {indent gap behind : Text} {f : Fragment}
    (hf : f ∈ fragmentsFrom width indent indent (Text.width indent) gap (Text.trimStart behind)) :
    Text.ink f.body ≠ [] :=
  ink_body_ne_nil_of_mem_fragmentsFrom (Text.indent_trimStart behind) hf

theorem pinched_iff_of_sign {t r : Text} {c : Char} {width : Nat}
    (hsign : Text.trimStart t = c :: r) :
    Pinched t width ↔ Text.width (Text.indent t) < width ∧
      Text.indent t ≠ [] ∧ width < Text.width (Text.indent t) + Text.charWidth c := by
  have hwidth : Text.width (Text.indent t ++ (Text.trimStart t).take 1) =
      Text.width (Text.indent t) + Text.charWidth c := by
    rw [hsign, Text.width_append]
    rfl
  constructor
  · intro h
    exact ⟨h.room, h.indented, hwidth ▸ h.wide⟩
  · rintro ⟨hroom, hindented, hover⟩
    exact ⟨hindented, hroom, hwidth ▸ hover⟩

/-- A pinched line starts with an empty fragment, and no other fragment of it is empty. -/
theorem Pinched.exists_fragments {t : Text} {width : Nat} (h : Pinched t width)
    (hink : Text.allBlank t = false) :
    ∃ rest, fragments t width = ⟨[], [], []⟩ :: rest ∧ ∀ f ∈ rest, Text.ink f.body ≠ [] := by
  obtain ⟨c, r, hsign, hc, ht⟩ := Text.exists_trimStart_eq_cons hink
  obtain ⟨hroom, hover⟩ := (pinched_iff_of_sign hsign).mp h
  obtain ⟨taken, behind, gap, htext, hends, hpieces⟩ := exists_first_fragment hink h.lt_width hroom
  have hnone : Text.ink taken = [] :=
    (hends.ink_eq_nil_iff (htext.trans ht) (Text.allBlank_indent t) hc hroom).mpr hover
  rw [Text.trimEnd_of_allBlank (Text.ink_eq_nil_iff.mp hnone)] at hpieces
  exact ⟨_, hpieces, fun f hf => ink_of_mem_later hf⟩

theorem ink_of_not_pinched {t : Text} {width : Nat} (h : ¬ Pinched t width)
    (hink : Text.allBlank t = false) : ∀ f ∈ fragments t width, Text.ink f.body ≠ [] := by
  intro f hf
  by_cases hfits : width = 0 ∨ Text.width t ≤ width
  · rw [fragments_of_whole (hfits.imp_right .inr), List.mem_singleton] at hf
    rw [hf, ne_eq, Text.ink_eq_nil_iff, hink]
    exact Bool.false_ne_true
  · obtain ⟨hwidth, hwide⟩ := not_or.mp hfits
    have hwide : width < Text.width t := Nat.lt_of_not_le hwide
    by_cases hfilled : width ≤ Text.width (Text.indent t)
    · rw [fragments_of_wide (Nat.pos_of_ne_zero hwidth) hink hwide, if_pos hfilled] at hf
      exact ink_body_ne_nil_of_mem_fragmentsFrom (Text.indent_trimStart t) hf
    · have hroom := Nat.lt_of_not_le hfilled
      obtain ⟨c, r, hsign, hc, ht⟩ := Text.exists_trimStart_eq_cons hink
      obtain ⟨taken, behind, gap, htext, hends, hpieces⟩ :=
        exists_first_fragment hink hwide hroom
      have hfirst := hends.ink_eq_nil_iff (htext.trans ht) (Text.allBlank_indent t) hc hroom
      rw [hpieces] at hf
      rcases List.mem_cons.mp hf with rfl | hf
      · show Text.ink (Text.trimEnd taken) ≠ []
        rw [Text.ink_trimEnd]
        exact fun hnone => h ((pinched_iff_of_sign hsign).mpr ⟨hroom, hfirst.mp hnone⟩)
      · exact ink_of_mem_later hf

/-- Every fragment of a line with ink has ink, unless the indentation leaves some room and
not enough for a wide sign behind it.  The first fragment is then empty and no other is. -/
theorem inked_iff_not_pinched {t : Text} (hink : Text.allBlank t = false) (width : Nat) :
    ((∀ f ∈ fragments t width, Text.ink f.body ≠ []) ↔ ¬ Pinched t width) ∧
    (∀ f ∈ (fragments t width).tail, Text.ink f.body ≠ []) ∧
    (Pinched t width → (fragments t width).head? = some ⟨[], [], []⟩ ∧
      1 < Text.width ((Text.trimStart t).take 1)) := by
  by_cases h : Pinched t width
  · obtain ⟨rest, hpieces, hrest⟩ := h.exists_fragments hink
    rw [hpieces]
    refine ⟨iff_of_false (fun hall => ?_) (fun hnot => hnot h), hrest, fun _ => ⟨rfl, h.wide_sign⟩⟩
    exact hall _ List.mem_cons_self rfl
  · have hall := ink_of_not_pinched h hink
    exact ⟨iff_of_true hall h, fun f hf => hall f (List.mem_of_mem_tail hf), fun hp => absurd hp h⟩

/-- On a page of forty columns an indentation of thirty-nine pinches a wide sign, and on a
page with one column more it does not. -/
theorem inked_iff_not_pinched_page :
    let t := List.replicate 39 ' ' ++ "日本".toList
    Text.allBlank t = false ∧ Pinched t 40 ∧ (fragments t 40).head? = some ⟨[], [], []⟩ ∧
      ¬ Pinched t 41 ∧ ∀ f ∈ fragments t 41, Text.ink f.body ≠ [] := by
  intro t
  have hink : Text.allBlank t = false := by decide +kernel
  have hpinched : Pinched t 40 := ⟨by decide +kernel, by decide +kernel, by decide +kernel⟩
  have hroom : ¬ Pinched t 41 := fun h => absurd h.wide (by decide +kernel)
  exact ⟨hink, hpinched, ((inked_iff_not_pinched hink 40).2.2 hpinched).1, hroom,
    (inked_iff_not_pinched hink 41).1.mpr hroom⟩

/-- One space leaves one of two columns, and a sign that takes both has to go elsewhere. -/
theorem not_inked_of_pinched_line :
    let t := " 日".toList
    Text.allBlank t = false ∧ 2 ≤ 2 ∧
      fragments t 2 = [⟨[], [], []⟩, ⟨[' '], [], ['日']⟩] ∧
      ¬ ∀ f ∈ fragments t 2, Text.ink f.body ≠ [] := by
  decide +kernel

end Wrap
end Listing
