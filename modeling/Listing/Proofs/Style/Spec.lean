/-
Names as styles.

A text that starts with a brace is JSON, and any other is looked up as a name before it is
tried as base64.  So the name of a preset stands for its profile (`profile_of_lookup`),
unless it starts with a brace (`profile_of_brace`).
-/
import Listing.Proofs.Text.Lowercase
import Listing.Style.Spec

namespace Listing
namespace Presets

theorem lookup_trim (presets : Presets) (t : Text) :
    presets.lookup (Text.trim t) = presets.lookup t := by
  rw [lookup, Text.canonical_trim, lookup]

theorem lookup_lowercase (presets : Presets) (t : Text) :
    presets.lookup (Text.lowercase t) = presets.lookup t := by
  rw [lookup, Text.canonical_lowercase, lookup]

theorem resolveName?_of_lookup {presets : Presets} {name : Text} {o : Overrides}
    (h : presets.lookup name = some o) :
    presets.resolveName? name = some (o.apply Profile.standard) := by
  rw [resolveName?, h]
  rfl

/-- The name of a preset is a style, even if it could be read as base64. -/
theorem profile_of_lookup {presets : Presets} {t : Text} {o : Overrides}
    (hlookup : presets.lookup t = some o) (hne : Text.trim t ≠ [])
    (hbrace : (Text.trim t).head? ≠ some '{') : presets.profile t = o.apply Profile.standard := by
  have hparse : StyleSpec.parse presets t = .ok (.preset (Text.lowercase (Text.trim t))) := by
    unfold StyleSpec.parse
    simp only
    split
    · rename_i hnil
      exact absurd hnil hne
    · rename_i r hcons
      rw [hcons] at hbrace
      exact absurd rfl hbrace
    · rw [contains, lookup_trim, hlookup]
      rfl
  have hresolve : StyleSpec.resolve presets (.preset (Text.lowercase (Text.trim t))) =
      .ok (o.apply Profile.standard) := by
    rw [← lookup_trim, ← lookup_lowercase] at hlookup
    rw [StyleSpec.resolve, resolveName?_of_lookup hlookup]
  rw [profile, StyleSpec.resolveText, hparse]
  simp only [hresolve]

/-- A text that starts with a brace is JSON, even if it is the name of a preset too. -/
theorem profile_of_brace (presets : Presets) {t : Text}
    (hbrace : (Text.trim t).head? = some '{') (hjson : Json.ofText? (Text.trim t) = none) :
    presets.profile t = Profile.standard := by
  obtain ⟨r, hcons⟩ := List.head?_eq_some_iff.mp hbrace
  have hparse : StyleSpec.parse presets t = .error .notJson := by
    rw [hcons] at hjson
    unfold StyleSpec.parse StyleSpec.ofJsonText
    simp only [hcons, hjson]
  rw [profile, StyleSpec.resolveText, hparse]

end Presets
end Listing
