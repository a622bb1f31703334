/-
Every profile that a style can lead to is valid.

A profile is valid when each of its settings would be taken by the check that
guards it.  The standard profile is, and laying overrides over a valid profile
keeps it so, whatever they ask for: a setting is replaced by a checked one or not
at all.  Presets and style specs only ever do these two things.
-/
import Listing.Proofs.Text.Blank
import Listing.Style.Spec

namespace Listing
namespace Valid

/-- A list of font families as the check returns it. -/
structure IsFont (t : Text) : Prop where
  ne_nil : t ≠ []
  trimmed : Text.trim t = t
  safe : ∀ c ∈ t, c ∉ unsafeFontChars

theorem isFont_of_font? {t font : Text} (h : font? t = some font) : IsFont font := by
  unfold font? at h
  simp only at h
  split at h
  · exact absurd h (by simp)
  · rename_i hsafe
    obtain rfl := Option.some.inj h
    rw [Bool.or_eq_true, not_or] at hsafe
    refine ⟨fun hnil => hsafe.1 (List.isEmpty_iff.mpr hnil), Text.trim_trim t, ?_⟩
    intro c hc hunsafe
    exact hsafe.2 (List.any_eq_true.mpr ⟨c, hc, List.contains_iff_mem.mpr hunsafe⟩)

theorem width?_mem {x : Binary64} {n : Nat} (h : width? x = some n) :
    Profile.minWidth ≤ n ∧ n ≤ Profile.maxWidthLimit := by
  obtain ⟨i, -, rfl⟩ := Option.map_eq_some_iff.mp h
  unfold clampInt Profile.minWidth Profile.maxWidthLimit
  omega

theorem fontSize?_mem {x : Binary64} {n : Nat} (h : fontSize? x = some n) :
    Profile.minFontSize ≤ n ∧ n ≤ Profile.maxFontSize := by
  unfold fontSize? at h
  split at h
  · obtain ⟨i, -, rfl⟩ := Option.map_eq_some_iff.mp h
    unfold clampInt Profile.minFontSize Profile.maxFontSize
    omega
  · exact absurd h (by simp)

/-! ## Characters of colours -/

/-- The characters that a colour may hold. -/
def isColourChar (c : Char) : Bool :=
  c.isAlpha || isHexDigit c || isArgumentChar c || ['#', '(', ')'].contains c

theorem isColourChar_of_isAlpha {c : Char} (h : c.isAlpha = true) : isColourChar c = true := by
  rw [isColourChar, h]
  rfl

theorem isColourChar_of_isHexDigit {c : Char} (h : isHexDigit c = true) :
    isColourChar c = true := by
  rw [isColourChar, h, Bool.or_true]
  rfl

theorem isColourChar_of_isArgumentChar {c : Char} (h : isArgumentChar c = true) :
    isColourChar c = true := by
  rw [isColourChar, h, Bool.or_true]
  rfl

theorem isColourChar_of_isArguments {t : Text} (h : isArguments t = true) {c : Char}
    (hc : c ∈ t) : isColourChar c = true := by
  unfold isArguments at h
  split at h
  · rename_i r hr
    rw [Bool.and_eq_true] at h
    rw [← List.mem_reverse, hr] at hc
    rcases List.mem_cons.mp hc with rfl | hc
    · decide
    · exact isColourChar_of_isArgumentChar (List.all_eq_true.mp h.2 c hc)
  · exact absurd h Bool.false_ne_true

theorem isColourChar_of_isColour {t : Text} (h : isColour t = true) {c : Char} (hc : c ∈ t) :
    isColourChar c = true := by
  unfold isColour at h
  split at h
  · exact absurd h Bool.false_ne_true
  · rw [Bool.and_eq_true] at h
    rcases List.mem_cons.mp hc with rfl | hc
    · decide
    · exact isColourChar_of_isHexDigit (List.all_eq_true.mp h.2 c hc)
  · rw [Bool.or_eq_true] at h
    rcases h with hname | hcall
    · exact isColourChar_of_isAlpha (List.all_eq_true.mp hname c hc)
    · obtain ⟨name, hmem, hargs⟩ := List.any_eq_true.mp hcall
      obtain ⟨args, hafter, hargs⟩ := (Option.any_eq_true _ _).mp hargs
      rw [← Text.after?_eq_some_iff.mp hafter] at hc
      rcases List.mem_append.mp hc with hc | hc
      · have hall : functionNames.all (fun n => n.all isColourChar) = true := by decide
        exact List.all_eq_true.mp (List.all_eq_true.mp hall name hmem) c hc
      · exact isColourChar_of_isArguments hargs hc

end Valid

namespace Profile

/-- Every setting would be taken by the check that guards it. -/
structure IsValid (p : Profile) : Prop where
  maxWidth : minWidth ≤ p.maxWidth ∧ p.maxWidth ≤ maxWidthLimit
  commentSize : minFontSize ≤ p.fontSizes.comment ∧ p.fontSizes.comment ≤ maxFontSize
  codeSize : minFontSize ≤ p.fontSizes.code ∧ p.fontSizes.code ≤ maxFontSize
  commentFont : Valid.IsFont p.fonts.comment
  codeFont : Valid.IsFont p.fonts.code
  colours : ∀ slot, Valid.isColour (p.colours.get slot) = true

theorem isValid_standard : standard.IsValid where
  maxWidth := by decide
  commentSize := by decide
  codeSize := by decide
  commentFont := Valid.isFont_of_font? (by decide : Valid.font? standard.fonts.comment = some _)
  codeFont := Valid.isFont_of_font? (by decide : Valid.font? standard.fonts.code = some _)
  colours := by
    intro slot
    cases slot <;> decide

end Profile

namespace Overrides

/-- A setting that is replaced by a checked value, or not at all, keeps what the check
promises. -/
theorem getD_bind_of_check {α β : Type} {check : α → Option β} {P : β → Prop}
    (hcheck : ∀ x y, check x = some y → P y) (asked : Option α) {current : β}
    (hcurrent : P current) : P ((asked.bind check).getD current) := by
  cases h : asked.bind check with
  | none => exact hcurrent
  | some y =>
    obtain ⟨x, -, hx⟩ := Option.bind_eq_some_iff.mp h
    exact hcheck x y hx

theorem isColour_applyColour {p : Palette} (hp : ∀ slot, Valid.isColour (p.get slot) = true)
    (key colour : Text) (slot : Slot) :
    Valid.isColour ((applyColour p key colour).get slot) = true := by
  unfold applyColour
  simp only
  split
  · rename_i hcolour
    split
    · rename_i target _
      by_cases hslot : slot = target
      · rw [hslot, Palette.get_set_self]
        exact hcolour
      · rw [Palette.get_set_ne p hslot]
        exact hp slot
    · exact hp slot
  · exact hp slot

theorem isValid_apply (o : Overrides) {p : Profile} (h : p.IsValid) : (o.apply p).IsValid where
  maxWidth := getD_bind_of_check (fun _ _ => Valid.width?_mem) o.maxWidth h.maxWidth
  commentSize :=
    getD_bind_of_check (fun _ _ => Valid.fontSize?_mem) o.fontSizes.comment h.commentSize
  codeSize := getD_bind_of_check (fun _ _ => Valid.fontSize?_mem) o.fontSizes.code h.codeSize
  commentFont :=
    getD_bind_of_check (fun _ _ => Valid.isFont_of_font?) o.fonts.comment h.commentFont
  codeFont := getD_bind_of_check (fun _ _ => Valid.isFont_of_font?) o.fonts.code h.codeFont
  colours := by
    show ∀ slot, Valid.isColour
      ((o.colours.entries.foldl (fun q e => applyColour q e.1 e.2) p.colours).get slot) = true
    -- One colour after the other: the palette so far is the accumulator.
    generalize o.colours.entries = entries
    have hstart := h.colours
    generalize p.colours = palette at hstart ⊢
    induction entries generalizing palette with
    | nil => exact hstart
    | cons e rest ih => exact ih _ (isColour_applyColour hstart e.1 e.2)

end Overrides

theorem Profile.isValid_merge {base : Profile} (h : base.IsValid) (preset : Option Overrides)
    (o : Overrides) : (Profile.merge base preset o).IsValid := by
  cases preset with
  | none => exact o.isValid_apply h
  | some preset => exact o.isValid_apply (preset.isValid_apply h)

namespace Presets

theorem isValid_resolve (presets : Presets) (o : Overrides) : (presets.resolve o).IsValid :=
  Profile.isValid_merge Profile.isValid_standard _ o

theorem isValid_resolveName? {presets : Presets} {name : Text} {p : Profile}
    (h : presets.resolveName? name = some p) : p.IsValid := by
  obtain ⟨preset, -, rfl⟩ := Option.map_eq_some_iff.mp h
  exact Profile.isValid_merge Profile.isValid_standard (some preset) Overrides.empty

end Presets

theorem StyleSpec.isValid_of_resolve {presets : Presets} {spec : StyleSpec} {p : Profile}
    (h : spec.resolve presets = .ok p) : p.IsValid := by
  cases spec with
  | preset name =>
    rw [resolve] at h
    split at h
    · rename_i q hq
      obtain rfl := Except.ok.inj h
      exact Presets.isValid_resolveName? hq
    · exact absurd h (by simp)
  | inline o =>
    rw [resolve] at h
    split at h
    · obtain rfl := Except.ok.inj h
      exact presets.isValid_resolve o
    · split at h
      · obtain rfl := Except.ok.inj h
        exact presets.isValid_resolve o
      · exact absurd h (by simp)

theorem StyleSpec.isValid_of_resolveText {presets : Presets} {t : Text} {p : Profile}
    (h : resolveText presets t = .ok p) : p.IsValid := by
  unfold resolveText at h
  split at h
  · exact absurd h (by simp)
  · exact isValid_of_resolve h

/-- Any text, read as a style, leads to a valid profile. -/
theorem Presets.isValid_profile (presets : Presets) (t : Text) : (presets.profile t).IsValid := by
  unfold profile
  split
  · rename_i p hp
    exact StyleSpec.isValid_of_resolveText hp
  · exact Profile.isValid_standard

/-! ## Chains of operations -/

namespace Profile

/-- The profiles that the operations on styles lead to from the standard one, in any
order and with any overrides, presets and texts. -/
inductive Reached : Profile → Prop
  | standard : Reached standard
  | merge {base : Profile} (hbase : Reached base) (preset : Option Overrides) (o : Overrides) :
      Reached (merge base preset o)
  | overrides {base : Profile} (hbase : Reached base) (o : Overrides) : Reached (o.apply base)
  | resolve (o : Overrides) : Reached (resolve o)
  | presets (presets : Presets) (o : Overrides) : Reached (presets.resolve o)
  | name {presets : Presets} {name : Text} {p : Profile}
      (hname : presets.resolveName? name = some p) : Reached p
  | spec {presets : Presets} {spec : StyleSpec} {p : Profile}
      (hspec : spec.resolve presets = .ok p) : Reached p
  | text (presets : Presets) (t : Text) : Reached (presets.profile t)

theorem Reached.isValid {p : Profile} (h : p.Reached) : p.IsValid := by
  induction h with
  | standard => exact isValid_standard
  | merge _ preset o ih => exact isValid_merge ih preset o
  | overrides _ o ih => exact o.isValid_apply ih
  | resolve o => exact isValid_merge isValid_standard none o
  | presets presets o => exact presets.isValid_resolve o
  | name hname => exact Presets.isValid_resolveName? hname
  | spec hspec => exact StyleSpec.isValid_of_resolve hspec
  | text presets t => exact presets.isValid_profile t

/-- A letter or digit, one of the signs in colours, or white space. -/
def isColourSign (c : Char) : Bool :=
  c.isAlphanum || "#().,%/+-".toList.contains c || Text.isBlank c

theorem isAlphanum_of_isHexDigit {c : Char} (h : Valid.isHexDigit c = true) :
    c.isAlphanum = true := by
  have hval : ∀ d : Char, d.val.toNat = d.toNat := fun _ => rfl
  have hcodes : 'a'.toNat = 97 ∧ 'f'.toNat = 102 ∧ 'z'.toNat = 122 ∧ 'A'.toNat = 65 ∧
      'F'.toNat = 70 ∧ 'Z'.toNat = 90 := by decide
  simp only [Valid.isHexDigit, Bool.or_eq_true, Bool.and_eq_true, decide_eq_true_eq,
    Char.le_def, UInt32.le_iff_toNat_le, hval] at h
  show ((decide ('A'.val ≤ c.val ∧ c.val ≤ 'Z'.val) ||
    (decide ('a'.val ≤ c.val) && decide (c.val ≤ 'z'.val))) || c.isDigit) = true
  simp only [Bool.or_eq_true, Bool.and_eq_true, decide_eq_true_eq, UInt32.le_iff_toNat_le, hval]
  obtain (hdigit | hlower) | hupper := h
  · exact .inr hdigit
  · exact .inl (.inr (by omega))
  · exact .inl (.inl (by omega))

theorem isColourSign_of_isColourChar {c : Char} (h : Valid.isColourChar c = true) :
    isColourSign c = true := by
  unfold isColourSign
  simp only [Valid.isColourChar, Valid.isArgumentChar, Bool.or_eq_true] at h
  obtain ((halpha | hhex) | ((hdigit | hsign) | hblank)) | hsign := h
  · simp [Char.isAlphanum, halpha]
  · rw [isAlphanum_of_isHexDigit hhex]
    rfl
  · simp [Char.isAlphanum, hdigit]
  · simp only [List.contains_iff_mem, List.mem_cons, List.not_mem_nil, or_false] at hsign
    rcases hsign with rfl | rfl | rfl | rfl | rfl | rfl <;> rfl
  · rw [hblank, Bool.or_true]
  · simp only [List.contains_iff_mem, List.mem_cons, List.not_mem_nil, or_false] at hsign
    rcases hsign with rfl | rfl | rfl <;> rfl

/-- Whatever chain of operations leads to a profile, each of its settings is one that
its check would take, and its colours hold no other characters than colours do. -/
theorem isValid_of_reached {p : Profile} (h : p.Reached) :
    p.IsValid ∧ ∀ slot, ∀ c ∈ p.colours.get slot, isColourSign c = true := by
  have hvalid := h.isValid
  refine ⟨hvalid, ?_⟩
  intro slot c hc
  exact isColourSign_of_isColourChar (Valid.isColourChar_of_isColour (hvalid.colours slot) hc)

/-- A style text with a preset, and over it settings that no check would take. -/
def layered : Profile :=
  Overrides.apply
    { maxWidth := some (Binary64.infinity false)
      fonts := ⟨some "serif; \x7b\x7d".toList, some "  ".toList⟩
      colours := Dict.ofList [("text".toList, "</style>".toList), ("plain".toList, "navy".toList)] }
    (merge (Presets.standard.profile "\x7b\"preset\": \"dark\", \"width\": \"1e400\"\x7d".toList)
      (some Presets.compact) Overrides.empty)

theorem isValid_of_reached_layered :
    layered.Reached ∧
      layered.IsValid ∧ ∀ slot, ∀ c ∈ layered.colours.get slot, isColourSign c = true := by
  have hreached : layered.Reached := .overrides (.merge (.text _ _) _ _) _
  exact ⟨hreached, isValid_of_reached hreached⟩

end Profile
end Listing
