/-
Profiles in layers.

A profile has nineteen fields.  Overrides that are laid over it set those that they validly ask
for and leave the others (`field_apply`): a number, a font or a flag if the check takes it, and a
colour by the greatest of the keys that name its slot and hold a colour.  So a field of a merged
profile is what the topmost layer that asks for it asks for (`merge_layers`), whatever the layers
ask for besides.
-/
import Listing.Proofs.Dict
import Listing.Proofs.Text.ByteOrder
import Listing.Style.Presets

namespace Listing

/-- A field of a profile, down to the colour of one slot. -/
inductive StyleField where
  | maxWidth
  | commentSize
  | codeSize
  | commentFont
  | codeFont
  | commentBold
  | commentItalic
  | codeBold
  | codeItalic
  | colour (slot : Slot)

def StyleField.Value : StyleField → Type
  | .maxWidth | .commentSize | .codeSize => Nat
  | .commentFont | .codeFont | .colour _ => Text
  | .commentBold | .commentItalic | .codeBold | .codeItalic => Bool

namespace Profile

def field (p : Profile) : (s : StyleField) → s.Value
  | .maxWidth => p.maxWidth
  | .commentSize => p.fontSizes.comment
  | .codeSize => p.fontSizes.code
  | .commentFont => p.fonts.comment
  | .codeFont => p.fonts.code
  | .commentBold => p.fontStyles.commentBold
  | .commentItalic => p.fontStyles.commentItalic
  | .codeBold => p.fontStyles.codeBold
  | .codeItalic => p.fontStyles.codeItalic
  | .colour slot => p.colours.get slot

/-- A profile is nothing but its fields. -/
theorem ext_field {p q : Profile} (h : ∀ s, p.field s = q.field s) : p = q := by
  have hcolours : p.colours = q.colours := Palette.ext_get fun slot => h (.colour slot)
  obtain ⟨_, _, ⟨_, _⟩, ⟨_, _⟩, ⟨_, _, _, _⟩⟩ := p
  obtain ⟨_, _, ⟨_, _⟩, ⟨_, _⟩, ⟨_, _, _, _⟩⟩ := q
  obtain rfl : _ = _ := hcolours
  obtain rfl : _ = _ := h .maxWidth
  obtain rfl : _ = _ := h .commentSize
  obtain rfl : _ = _ := h .codeSize
  obtain rfl : _ = _ := h .commentFont
  obtain rfl : _ = _ := h .codeFont
  obtain rfl : _ = _ := h .commentBold
  obtain rfl : _ = _ := h .commentItalic
  obtain rfl : _ = _ := h .codeBold
  obtain rfl : _ = _ := h .codeItalic
  rfl

end Profile

namespace Overrides

/-- There is a colour for a slot under one of the keys that name it. -/
def Offers (o : Overrides) (slot : Slot) (key colour : Text) : Prop :=
  Slot.ofKey? key = some slot ∧
    ∃ asked, o.colours.get? key = some asked ∧ Text.trim asked = colour ∧
      Valid.isColour colour = true

/-- What overrides validly ask for.  Of several colours for one slot they ask for the one under
the greatest key. -/
def Asks (o : Overrides) : (s : StyleField) → s.Value → Prop
  | .maxWidth, n => o.maxWidth.bind Valid.width? = some n
  | .commentSize, n => o.fontSizes.comment.bind Valid.fontSize? = some n
  | .codeSize, n => o.fontSizes.code.bind Valid.fontSize? = some n
  | .commentFont, t => o.fonts.comment.bind Valid.font? = some t
  | .codeFont, t => o.fonts.code.bind Valid.font? = some t
  | .commentBold, b => o.fontStyles.commentBold = some b
  | .commentItalic, b => o.fontStyles.commentItalic = some b
  | .codeBold, b => o.fontStyles.codeBold = some b
  | .codeItalic, b => o.fontStyles.codeItalic = some b
  | .colour slot, colour => ∃ key, o.Offers slot key colour ∧
      ∀ other c, o.Offers slot other c → other ≠ key → Text.BytesBefore other key

/-! ## Colours -/

/-- The colour of an entry, if it is one and for this slot. -/
def offered? (slot : Slot) (e : Text × Text) : Option Text :=
  if Slot.ofKey? e.1 = some slot ∧ Valid.isColour (Text.trim e.2) = true then
    some (Text.trim e.2)
  else none

theorem offered?_eq_some_iff {slot : Slot} {key asked colour : Text} :
    offered? slot (key, asked) = some colour ↔
      Slot.ofKey? key = some slot ∧ Text.trim asked = colour ∧ Valid.isColour colour = true := by
  rw [offered?, Option.ite_none_right_eq_some, Option.some.injEq]
  constructor
  · rintro ⟨⟨hkey, hcolour⟩, rfl⟩
    exact ⟨hkey, rfl, hcolour⟩
  · rintro ⟨hkey, rfl, hcolour⟩
    exact ⟨⟨hkey, hcolour⟩, rfl⟩

theorem get_applyColour (p : Palette) (slot : Slot) (e : Text × Text) :
    (applyColour p e.1 e.2).get slot = (offered? slot e).getD (p.get slot) := by
  unfold applyColour offered?
  simp only
  by_cases hcolour : Valid.isColour (Text.trim e.2) = true
  · rw [if_pos hcolour]
    cases hkey : Slot.ofKey? e.1 with
    | none => simp
    | some named =>
      by_cases hslot : named = slot
      · subst hslot
        rw [if_pos ⟨rfl, hcolour⟩]
        exact Palette.get_set_self p named _
      · rw [if_neg fun h => hslot (Option.some.inj h.1)]
        exact Palette.get_set_ne p (Ne.symm hslot) _
  · rw [if_neg hcolour, if_neg fun h => hcolour h.2]
    rfl

/-- One colour after the other: the last that is offered for a slot is the one that stays. -/
theorem get_foldl_offered? (entries : List (Text × Text)) (p : Palette) (slot : Slot) :
    (entries.foldl (fun q e => applyColour q e.1 e.2) p).get slot =
      (entries.reverse.findSome? (offered? slot)).getD (p.get slot) := by
  induction entries generalizing p with
  | nil => rfl
  | cons e rest ih =>
    rw [List.foldl_cons, ih, get_applyColour, List.reverse_cons, List.findSome?_append]
    cases rest.reverse.findSome? (offered? slot) with
    | none => cases hoffer : offered? slot e <;> simp [hoffer]
    | some colour => rfl

theorem offers_iff {o : Overrides} {slot : Slot} {key colour : Text} :
    o.Offers slot key colour ↔
      ∃ asked, o.colours.get? key = some asked ∧ offered? slot (key, asked) = some colour := by
  simp only [offered?_eq_some_iff]
  constructor
  · rintro ⟨hkey, asked, hget, hcolour⟩
    exact ⟨asked, hget, hkey, hcolour⟩
  · rintro ⟨asked, hget, hkey, hcolour⟩
    exact ⟨hkey, asked, hget, hcolour⟩

/-- Keys are kept in the order of their bytes, so the last colour is the one under the greatest
key. -/
theorem findSome?_offered?_eq_some_iff (o : Overrides) (slot : Slot) (colour : Text) :
    o.colours.entries.reverse.findSome? (offered? slot) = some colour ↔
      ∃ key, o.Offers slot key colour ∧
        ∀ other c, o.Offers slot other c → other ≠ key → Text.BytesBefore other key := by
  rw [Dict.findSome?_reverse_eq_some_iff]
  simp only [offers_iff, Text.bytesBefore_iff]
  constructor
  · rintro ⟨key, asked, hget, hoffer, hgreatest⟩
    refine ⟨key, ⟨asked, hget, hoffer⟩, ?_⟩
    rintro other c ⟨a, ha, hc⟩ hne
    exact hgreatest other a ha (by rw [hc]; rfl) hne
  · rintro ⟨key, ⟨asked, hget, hoffer⟩, hgreatest⟩
    refine ⟨key, asked, hget, hoffer, ?_⟩
    intro other a ha hsome hne
    obtain ⟨c, hc⟩ := Option.isSome_iff_exists.mp hsome
    exact hgreatest other c ⟨a, ha, hc⟩ hne

/-! ## Fields -/

def asked? (o : Overrides) : (s : StyleField) → Option s.Value
  | .maxWidth => o.maxWidth.bind Valid.width?
  | .commentSize => o.fontSizes.comment.bind Valid.fontSize?
  | .codeSize => o.fontSizes.code.bind Valid.fontSize?
  | .commentFont => o.fonts.comment.bind Valid.font?
  | .codeFont => o.fonts.code.bind Valid.font?
  | .commentBold => o.fontStyles.commentBold
  | .commentItalic => o.fontStyles.commentItalic
  | .codeBold => o.fontStyles.codeBold
  | .codeItalic => o.fontStyles.codeItalic
  | .colour slot => o.colours.entries.reverse.findSome? (offered? slot)

theorem asked?_eq_some_iff {o : Overrides} {s : StyleField} {v : s.Value} :
    o.asked? s = some v ↔ o.Asks s v := by
  cases s with
  | colour slot => exact findSome?_offered?_eq_some_iff o slot v
  | _ => exact Iff.rfl

theorem field_apply (o : Overrides) (p : Profile) (s : StyleField) :
    (o.apply p).field s = (o.asked? s).getD (p.field s) := by
  cases s with
  | colour slot => exact get_foldl_offered? o.colours.entries p.colours slot
  | _ => rfl

theorem asked?_congr {o o' : Overrides} {s : StyleField} (h : ∀ v, o'.Asks s v ↔ o.Asks s v) :
    o'.asked? s = o.asked? s :=
  Option.ext fun v => by rw [asked?_eq_some_iff, asked?_eq_some_iff, h v]

theorem asked?_eq_none_iff {o : Overrides} {s : StyleField} :
    o.asked? s = none ↔ ∀ v, ¬ o.Asks s v := by
  rw [Option.eq_none_iff_forall_ne_some]
  exact forall_congr' fun v => not_congr asked?_eq_some_iff

theorem field_apply_of_not_asks {o : Overrides} {s : StyleField} (h : ∀ v, ¬ o.Asks s v)
    (p : Profile) : (o.apply p).field s = p.field s := by
  rw [field_apply, asked?_eq_none_iff.mpr h, Option.getD_none]

/-- A layer either says what a field is or leaves it to what is below. -/
theorem field_apply_eq_iff {o : Overrides} {p : Profile} {s : StyleField} {v : s.Value} :
    (o.apply p).field s = v ↔ o.Asks s v ∨ (∀ w, ¬ o.Asks s w) ∧ p.field s = v := by
  rw [field_apply, ← asked?_eq_some_iff, ← asked?_eq_none_iff]
  cases o.asked? s with
  | none => simp
  | some w => simp

/-- What a layer has set it sets again. -/
theorem apply_apply (o : Overrides) (p : Profile) : o.apply (o.apply p) = o.apply p := by
  refine Profile.ext_field fun s => ?_
  simp only [field_apply]
  cases o.asked? s with
  | none => rfl
  | some v => rfl

theorem asked?_empty (s : StyleField) : empty.asked? s = none := by
  cases s <;> rfl

theorem apply_empty (p : Profile) : empty.apply p = p :=
  Profile.ext_field fun s => by rw [field_apply, asked?_empty, Option.getD_none]

end Overrides

/-! ## Layers -/

/-- What a field is when layers, the topmost of them first, lie over a profile in which it is
`lowest`. -/
def StyleField.Layered (s : StyleField) (lowest : s.Value) : List Overrides → s.Value → Prop
  | [], v => lowest = v
  | o :: below, v => o.Asks s v ∨ (∀ w, ¬ o.Asks s w) ∧ s.Layered lowest below v

namespace Profile

theorem field_layers_eq_iff (layers : List Overrides) (base : Profile) (s : StyleField)
    (v : s.Value) :
    (layers.foldr Overrides.apply base).field s = v ↔ s.Layered (base.field s) layers v := by
  induction layers with
  | nil => exact Iff.rfl
  | cons o below ih =>
    rw [List.foldr_cons, Overrides.field_apply_eq_iff, ih]
    exact Iff.rfl

theorem merge_eq_layers (base : Profile) (preset : Option Overrides) (o : Overrides) :
    merge base preset o = (o :: preset.toList).foldr Overrides.apply base := by
  cases preset with
  | none => rfl
  | some preset => rfl

/-- A preset that is not there asks for nothing. -/
theorem merge_eq_apply (base : Profile) (preset : Option Overrides) (o : Overrides) :
    merge base preset o = o.apply ((preset.getD Overrides.empty).apply base) := by
  cases preset with
  | none => rw [Option.getD_none, Overrides.apply_empty, merge]
  | some preset => rfl

/-- Each field of a merged profile is what the overrides ask for, else what the preset asks for,
else what it was.  So a field does not depend on what is asked for another, what is not valid
hides nothing, and the same overrides laid over the result change nothing. -/
theorem merge_layers (base : Profile) (preset : Option Overrides) (o : Overrides) :
    (∀ (s : StyleField) (v : s.Value),
      (merge base preset o).field s = v ↔
        s.Layered (base.field s) (o :: preset.toList) v) ∧
    (∀ (base' : Profile) (preset' : Option Overrides) (o' : Overrides) (s : StyleField),
      base'.field s = base.field s →
      (∀ v, (preset'.getD Overrides.empty).Asks s v ↔ (preset.getD Overrides.empty).Asks s v) →
      (∀ v, o'.Asks s v ↔ o.Asks s v) →
        (merge base' preset' o').field s = (merge base preset o).field s) ∧
    (∀ s, (∀ v, ¬ o.Asks s v) →
      (merge base preset o).field s = (merge base preset Overrides.empty).field s) ∧
    (∀ s, (∀ v, ¬ (preset.getD Overrides.empty).Asks s v) →
      (merge base preset o).field s = (merge base none o).field s) ∧
    merge (merge base preset o) none o = merge base preset o := by
  refine ⟨fun s v => ?_, ?_, ?_, ?_, ?_⟩
  · rw [merge_eq_layers, field_layers_eq_iff]
  · intro base' preset' o' s hbase hpreset ho
    simp only [merge_eq_apply, Overrides.field_apply, hbase, Overrides.asked?_congr hpreset,
      Overrides.asked?_congr ho]
  · intro s ho
    rw [merge_eq_apply, merge_eq_apply, Overrides.field_apply_of_not_asks ho,
      Overrides.apply_empty]
  · intro s hpreset
    simp only [merge_eq_apply, Overrides.field_apply,
      Overrides.asked?_eq_none_iff.mpr hpreset, Option.getD_none, Overrides.asked?_empty]
  · rw [merge, merge_eq_apply, Overrides.apply_apply]

/-- Overrides with a width that is none and a foreground under each of its keys, the last of
which holds no colour. -/
def navy : Overrides where
  maxWidth := some (Binary64.infinity false)
  colours := Dict.ofList
    [("foreground".toList, "red".toList), ("text".toList, "#zz".toList),
      ("plain".toList, " navy ".toList)]

theorem merge_layers_navy :
    navy.Asks (.colour .foreground) "navy".toList ∧
    (merge standard (some Presets.compact) navy).field (.colour .foreground) = "navy".toList ∧
    (∀ v, Overrides.empty.Asks (.colour .foreground) v ↔
      Presets.compact.Asks (.colour .foreground) v) ∧
    (merge { standard with maxWidth := 120 } none { navy with maxWidth := none }).field
        (.colour .foreground) =
      (merge standard (some Presets.compact) navy).field (.colour .foreground) ∧
    (∀ v, ¬ navy.Asks .maxWidth v) ∧
    (merge standard (some Presets.compact) navy).field .maxWidth =
      (merge standard (some Presets.compact) Overrides.empty).field .maxWidth ∧
    merge (merge standard (some Presets.compact) navy) none navy =
      merge standard (some Presets.compact) navy := by
  obtain ⟨hlayers, hother, hhidden, -, hagain⟩ := merge_layers standard (some Presets.compact) navy
  have hcolour : navy.Asks (.colour .foreground) "navy".toList :=
    Overrides.asked?_eq_some_iff.mp (by rfl)
  have hpreset : ∀ v, Overrides.empty.Asks (.colour .foreground) v ↔
      Presets.compact.Asks (.colour .foreground) v := fun v => by
    rw [← Overrides.asked?_eq_some_iff, ← Overrides.asked?_eq_some_iff]
    exact Iff.rfl
  have hwidth : ∀ v, ¬ navy.Asks .maxWidth v := Overrides.asked?_eq_none_iff.mp (by rfl)
  exact ⟨hcolour, (hlayers _ _).mpr (.inl hcolour), hpreset,
    hother _ none _ _ rfl hpreset fun _ => Iff.rfl, hwidth, hhidden _ hwidth, hagain⟩

end Profile
end Listing
