/-
Overrides that ask for every setting of a profile.

Laid over any profile at all they give the profile they were made from
(`apply_ofProfile`), if that is valid: its width and sizes are numbers of their own that
no clamp moves, its fonts and colours are trimmed, and each of its colours stands under
the name of its slot, so no colour of the other profile is left.  A profile that is not
valid cannot be the result, as what is laid over a valid profile gives a valid one
(`isValid_iff_merge_ofProfile`).
-/
import Listing.Proofs.Style.Layers
import Listing.Proofs.Style.Validity

namespace Listing
namespace Valid

/-! ## Numbers -/

/-- The whole numbers that a profile holds are not rounded. -/
theorem round?_ofNat {n : Nat} (h : n ≤ Profile.maxWidthLimit) :
    (Binary64.ofNat n).round? = some (n : Int) := by
  have hall : ∀ n < 201, (Binary64.ofNat n).round? = some (n : Int) := by decide +kernel
  exact hall n (Nat.lt_succ_of_le h)

theorem clampInt_of_mem {low high n : Nat} (h : low ≤ n ∧ n ≤ high) :
    clampInt low high (n : Int) = n := by
  unfold clampInt
  omega

theorem width?_ofNat {n : Nat} (h : Profile.minWidth ≤ n ∧ n ≤ Profile.maxWidthLimit) :
    width? (Binary64.ofNat n) = some n := by
  rw [width?, round?_ofNat h.2, Option.map_some, clampInt_of_mem h]

theorem fontSize?_ofNat {n : Nat} (h : Profile.minFontSize ≤ n ∧ n ≤ Profile.maxFontSize) :
    fontSize? (Binary64.ofNat n) = some n := by
  have hpositive : ∀ n < 73, 0 < n → (Binary64.ofNat n).isPositive = true := by decide +kernel
  have hround : (Binary64.ofNat n).round? = some (n : Int) :=
    round?_ofNat (Nat.le_trans h.2 (by decide))
  rw [fontSize?, if_pos (hpositive n (Nat.lt_succ_of_le h.2) (Nat.lt_of_lt_of_le (by decide) h.1)),
    hround, Option.map_some, clampInt_of_mem h]

/-! ## Texts -/

theorem font?_of_isFont {t : Text} (h : IsFont t) : font? t = some t := by
  have hsafe : t.any unsafeFontChars.contains = false :=
    List.any_eq_false.mpr fun c hc => by simpa using h.safe c hc
  have hfilled : t.isEmpty = false := by simpa using h.ne_nil
  unfold font?
  simp only [h.trimmed, hsafe, hfilled, Bool.or_false, Bool.false_eq_true, if_false]

/-- A colour starts with a hash or a letter and ends with a letter, a digit or a closing
parenthesis, so there is nothing to trim. -/
theorem trim_of_isColour {t : Text} (h : isColour t = true) : Text.trim t = t := by
  unfold isColour at h
  split at h
  · exact absurd h Bool.false_ne_true
  · rename_i digits
    rw [Bool.and_eq_true] at h
    refine Text.trim_of_forall_not_blank fun c hc => ?_
    rcases List.mem_cons.mp hc with rfl | hc
    · decide
    · exact Text.isBlank_of_isAlphanum
        (Profile.isAlphanum_of_isHexDigit (List.all_eq_true.mp h.2 c hc))
  · rw [Bool.or_eq_true] at h
    rcases h with hname | hcall
    · refine Text.trim_of_forall_not_blank fun c hc => Text.isBlank_of_isAlphanum ?_
      rw [Char.isAlphanum, List.all_eq_true.mp hname c hc, Bool.true_or]
    · obtain ⟨name, hmem, hargs⟩ := List.any_eq_true.mp hcall
      obtain ⟨args, hafter, hargs⟩ := (Option.any_eq_true _ _).mp hargs
      rw [← Text.after?_eq_some_iff.mp hafter]
      have hnames : ∀ name ∈ functionNames, Text.indent name = [] ∧ name ≠ [] := by decide
      obtain ⟨hstart, hne⟩ := hnames name hmem
      refine Text.trim_eq_self (Text.indent_append_of_ne_nil hstart hne args) ?_
      unfold isArguments at hargs
      split at hargs
      · rename_i r hr
        rw [List.reverse_append, hr]
        exact Text.indent_append_of_ne_nil (a := ')' :: r)
          (Text.indent_append_cons (a := []) rfl (by decide) r) (List.cons_ne_nil _ r) _
      · exact absurd hargs Bool.false_ne_true

end Valid

/-! ## Colours -/

theorem Palette.mem_entries {p : Palette} {e : Text × Text} :
    e ∈ p.entries ↔ ∃ slot, e = (slot.name, p.get slot) := by
  have hall : ∀ slot, slot ∈ Slot.all := by
    intro slot
    cases slot <;> decide
  rw [Palette.entries, List.mem_map]
  constructor
  · rintro ⟨slot, -, rfl⟩
    exact ⟨slot, rfl⟩
  · rintro ⟨slot, rfl⟩
    exact ⟨slot, hall slot, rfl⟩

namespace Overrides

/-- The colour of a slot stands under the name of the slot and under no other of its keys. -/
theorem asks_colour_ofProfile {p : Profile} (h : ∀ slot, Valid.isColour (p.colours.get slot) = true)
    (slot : Slot) : (ofProfile p).Asks (.colour slot) (p.colours.get slot) := by
  have hkeys : (p.colours.entries.map Prod.fst).Nodup := by
    rw [Palette.entries, List.map_map]
    exact (by decide : (Slot.all.map Slot.name).Nodup)
  have hget : (ofProfile p).colours.get? slot.name = some (p.colours.get slot) := by
    show (Dict.ofList p.colours.entries).get? slot.name = _
    rw [Dict.get?_ofList_of_nodup hkeys]
    cases slot <;> rfl
  refine ⟨slot.name, ⟨Slot.ofKey?_name slot, _, hget, Valid.trim_of_isColour (h slot), h slot⟩, ?_⟩
  rintro other c ⟨hother, asked, hasked, -⟩ hne
  obtain ⟨named, hentry⟩ := Palette.mem_entries.mp (Dict.mem_of_get?_ofList hasked)
  obtain ⟨rfl, -⟩ := Prod.mk.inj hentry
  rw [Slot.ofKey?_name] at hother
  exact absurd (congrArg Slot.name (Option.some.inj hother)) hne

/-- A snapshot asks for every field of the profile. -/
theorem asked?_ofProfile {p : Profile} (h : p.IsValid) (s : StyleField) :
    (ofProfile p).asked? s = some (p.field s) := by
  cases s with
  | maxWidth => exact Valid.width?_ofNat h.maxWidth
  | commentSize => exact Valid.fontSize?_ofNat h.commentSize
  | codeSize => exact Valid.fontSize?_ofNat h.codeSize
  | commentFont => exact Valid.font?_of_isFont h.commentFont
  | codeFont => exact Valid.font?_of_isFont h.codeFont
  | colour slot => exact asked?_eq_some_iff.mpr (asks_colour_ofProfile h.colours slot)
  | _ => rfl

/-- A snapshot of a valid profile leaves nothing of the profile that it is laid over. -/
theorem apply_ofProfile {p : Profile} (h : p.IsValid) (base : Profile) :
    (ofProfile p).apply base = p :=
  Profile.ext_field fun s => by rw [field_apply, asked?_ofProfile h, Option.getD_some]

end Overrides

namespace Profile

/-- The valid profiles are those that a snapshot brings back whatever it is laid over. -/
theorem isValid_iff_merge_ofProfile (p : Profile) :
    p.IsValid ↔ ∀ base, merge base none (Overrides.ofProfile p) = p := by
  constructor
  · intro h base
    exact Overrides.apply_ofProfile h base
  · intro h
    rw [← h standard]
    exact isValid_merge isValid_standard none _

/-- A profile at the bounds, with a colour of each form. -/
def widest : Profile :=
  { standard with
    maxWidth := 200
    fontSizes := ⟨6, 72⟩
    fonts := ⟨"Ünicode 'Sans'".toList, "monospace".toList⟩
    colours := { standard.colours with
      typeName := "hsla(0, 50%, 50%, 0.5)".toList
      background := "Navy".toList
      foreground := "#AbC".toList } }

theorem isValid_iff_merge_ofProfile_widest :
    widest.IsValid ∧
      merge (Presets.dark.apply standard) none (Overrides.ofProfile widest) = widest := by
  have hvalid : widest.IsValid :=
    { maxWidth := by decide
      commentSize := by decide
      codeSize := by decide
      commentFont := Valid.isFont_of_font? (by decide : Valid.font? widest.fonts.comment = some _)
      codeFont := Valid.isFont_of_font? (by decide : Valid.font? widest.fonts.code = some _)
      colours := by
        intro slot
        cases slot <;> decide }
  exact ⟨hvalid, (isValid_iff_merge_ofProfile widest).mp hvalid _⟩

end Profile
end Listing
