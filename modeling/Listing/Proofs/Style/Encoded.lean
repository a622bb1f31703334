/-
Styles in JSON under base64.

A text that starts with a brace is JSON.  Its bytes under base64, with padding or without, are
another text: one of signs that are neither white space nor a brace, so it is no JSON itself.
If it is long enough and no preset goes by it as a name, it is read as base64, and what is read
then is the JSON that it was made from (`parse_encoded`).
-/
import Listing.Proofs.Base64
import Listing.Proofs.Text.Blank
import Listing.Proofs.Text.ByteOrder
import Listing.Style.Spec

namespace Listing
namespace StyleSpec

/-- The signs of base64 with the one for padding. -/
def signs : Text := Base64.alphabet ++ ['=']

/-- What a sign has to be for a text of signs to be read as base64. -/
structure IsSign (c : Char) : Prop where
  isBase64Char : isBase64Char c = true
  oneByte : c.utf8Size = 1
  notBlank : Text.isBlank c = false
  notBrace : c ≠ '{'

theorem isSign_of_mem {c : Char} (h : c ∈ signs) : IsSign c := by
  have hall : signs.all (fun c =>
      isBase64Char c && c.utf8Size == 1 && !Text.isBlank c && c != '{') = true := by
    decide +kernel
  have hc := List.all_eq_true.mp hall c h
  simp only [Bool.and_eq_true, beq_iff_eq, bne_iff_ne, Bool.not_eq_true'] at hc
  exact ⟨hc.1.1.1, hc.1.1.2, hc.1.2, hc.2⟩

theorem byteLength_of_isSign {t : Text} (h : ∀ c ∈ t, IsSign c) :
    Text.byteLength t = t.length := by
  induction t with
  | nil => rfl
  | cons c r ih =>
    rw [Text.byteLength_cons, (h c List.mem_cons_self).oneByte,
      ih fun d hd => h d (List.mem_cons_of_mem c hd), List.length_cons, Nat.add_comm]

/-- A text of signs that is no name of a preset is base64 if it is long enough. -/
theorem parse_of_isSign {presets : Presets} {t : Text} (h : ∀ c ∈ t, IsSign c)
    (hlength : minBase64Length ≤ t.length) (hname : presets.contains t = false) :
    parse presets t = ofBase64 t := by
  have htrim : Text.trim t = t := Text.trim_of_forall_not_blank fun c hc => (h c hc).notBlank
  have hlooks : looksLikeBase64 t = true := by
    rw [looksLikeBase64, byteLength_of_isSign h, decide_eq_true hlength, Bool.true_and]
    exact List.all_eq_true.mpr fun c hc => (h c hc).isBase64Char
  unfold parse
  simp only [htrim]
  split
  · exact absurd hlength (by decide)
  · exact absurd rfl (h '{' List.mem_cons_self).notBrace
  · rw [hname, hlooks]
    rfl

theorem parse_of_brace {presets : Presets} {t : Text} (htrim : Text.trim t = t)
    (hbrace : t.head? = some '{') : parse presets t = ofJsonText t := by
  obtain ⟨r, rfl⟩ := List.head?_eq_some_iff.mp hbrace
  unfold parse
  simp only [htrim]

theorem withoutPadding_append {t : Text} (h : '=' ∉ t) (fill : Nat) :
    withoutPadding (t ++ List.replicate fill '=') = t := by
  have hfill : ∀ c ∈ List.replicate fill '=', (c == '=') = true := fun c hc =>
    beq_iff_eq.mpr (List.eq_of_mem_replicate hc)
  have hlast : t.reverse.dropWhile (· == '=') = t.reverse :=
    List.dropWhile_eq_self_iff.mpr fun hpos hc =>
      h (List.mem_reverse.mp (beq_iff_eq.mp hc ▸ List.getElem_mem hpos))
  rw [withoutPadding, List.reverse_append, List.reverse_replicate,
    List.dropWhile_append_of_pos hfill, hlast, List.reverse_reverse]

/-- The bytes of a text under base64 are read as the text. -/
theorem ofBase64_encode (t : Text) (fill : Nat) :
    ofBase64 (Base64.encode (Text.bytes t) ++ List.replicate fill '=') = ofJsonText t := by
  have hfree : '=' ∉ Base64.encode (Text.bytes t) := fun hmem =>
    absurd (Base64.mem_alphabet_of_mem_encode hmem) (by decide)
  rw [ofBase64, withoutPadding_append hfree, Base64.decode_encode]
  simp only [ofJsonBytes, Text.toByteArray_bytes, Text.decode?_encode]

/-- A style in JSON and its bytes under base64 are the same style, or fail in the same way. -/
theorem parse_encoded (presets : Presets) {t e : Text} (htrim : Text.trim t = t)
    (hbrace : t.head? = some '{')
    (hencoded : e = Base64.encode (Text.bytes t) ∨
      e = Base64.encode (Text.bytes t) ++ Base64.padding (Base64.encode (Text.bytes t)))
    (hlength : 17 ≤ e.length) (hname : presets.contains e = false) :
    parse presets e = parse presets t ∧ parse presets t = ofJsonText t := by
  obtain ⟨fill, rfl⟩ : ∃ fill, e = Base64.encode (Text.bytes t) ++ List.replicate fill '=' := by
    rcases hencoded with rfl | rfl
    · exact ⟨0, (List.append_nil _).symm⟩
    · exact ⟨_, rfl⟩
  have hsigns : ∀ c ∈ Base64.encode (Text.bytes t) ++ List.replicate fill '=', IsSign c := by
    intro c hc
    refine isSign_of_mem (List.mem_append.mpr ?_)
    refine (List.mem_append.mp hc).imp Base64.mem_alphabet_of_mem_encode fun hpad => ?_
    exact List.mem_singleton.mpr (List.eq_of_mem_replicate hpad)
  have hjson : parse presets t = ofJsonText t := parse_of_brace htrim hbrace
  rw [parse_of_isSign hsigns hlength hname, ofBase64_encode, hjson]
  exact ⟨rfl, rfl⟩

def darkText : Text := "\x7b\"base\": \"dark\", \"width\": \"ü\"\x7d".toList

def darkEncoded : Text := "eyJiYXNlIjogImRhcmsiLCAid2lkdGgiOiAiw7wifQ==".toList

theorem parse_encoded_dark :
    Text.trim darkText = darkText ∧ darkText.head? = some '{' ∧
      darkEncoded = Base64.encode (Text.bytes darkText) ++
        Base64.padding (Base64.encode (Text.bytes darkText)) ∧
      17 ≤ darkEncoded.length ∧ Presets.standard.contains darkEncoded = false ∧
      parse Presets.standard darkEncoded = parse Presets.standard darkText ∧
      parse Presets.standard darkText = ofJsonText darkText := by
  have htrim : Text.trim darkText = darkText := by decide +kernel
  have hencoded : darkEncoded = Base64.encode (Text.bytes darkText) ++
      Base64.padding (Base64.encode (Text.bytes darkText)) := by decide +kernel
  have hlength : 17 ≤ darkEncoded.length := by decide +kernel
  have hname : Presets.standard.contains darkEncoded = false := by decide +kernel
  exact ⟨htrim, rfl, hencoded, hlength, hname,
    parse_encoded Presets.standard htrim rfl (.inr hencoded) hlength hname⟩

end StyleSpec
end Listing
