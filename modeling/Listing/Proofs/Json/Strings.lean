/-
Strings of JSON read back from the form they are written in.

A character is written by an escape or as it stands, and either is read as that one
character (`stringBody?_jsonChar`), so a text comes back character by character.
-/
import Listing.Json.Reader
import Listing.Outline

namespace Listing
namespace Json

theorem hexDigits?_pair {digits : Text} {high low : Nat}
    (h : digits.map hexDigit? = [some high, some low]) (t : Text) :
    hexDigits? 0 4 ('0' :: '0' :: digits ++ t) = some (16 * high + low, t) := by
  obtain ⟨a, rest, rfl, ha, hrest⟩ := List.map_eq_cons_iff.mp h
  obtain ⟨b, rest, rfl, hb, hnil⟩ := List.map_eq_cons_iff.mp hrest
  obtain rfl := List.map_eq_nil_iff.mp hnil
  have hzero : hexDigit? '0' = some 0 := by decide
  simp [hexDigits?, ha, hb, hzero]

/-- Two hexadecimal digits give back the code that they were made from. -/
theorem hexDigit?_hex {n : Nat} (h : n < 32) :
    ((if n < 16 then ['0'] else []) ++ Text.hex n).map hexDigit? =
      [some (n / 16), some (n % 16)] := by
  have hall : ∀ n < 32, ((if n < 16 then ['0'] else []) ++ Text.hex n).map hexDigit? =
      [some (n / 16), some (n % 16)] := by decide
  exact hall n h

theorem unicodeEscape?_hex {c : Char} (h : c.toNat < 32) (t : Text) :
    unicodeEscape? ('0' :: '0' :: ((if c.toNat < 16 then ['0'] else []) ++ Text.hex c.toNat) ++ t) =
      some (c, t) := by
  have hcode : 16 * (c.toNat / 16) + c.toNat % 16 = c.toNat := by omega
  have hlow : c.toNat < 0xD800 := by omega
  rw [unicodeEscape?, hexDigits?_pair (hexDigit?_hex h), hcode]
  simp [hlow]

/-- What is not written by an escape is written as it stands. -/
theorem jsonChar_cases (c : Char) :
    (∃ e, Outline.jsonChar c = '\\' :: e ∧ ∀ t, escape? (e ++ t) = some (c, t)) ∨
      Outline.jsonChar c = [c] ∧ c ≠ '"' ∧ c ≠ '\\' ∧ ¬ c < ' ' := by
  unfold Outline.jsonChar
  split
  · subst_vars
    exact .inl ⟨['"'], rfl, fun t => rfl⟩
  split
  · subst_vars
    exact .inl ⟨['\\'], rfl, fun t => rfl⟩
  split
  · subst_vars
    exact .inl ⟨['b'], rfl, fun t => rfl⟩
  split
  · subst_vars
    exact .inl ⟨['f'], rfl, fun t => rfl⟩
  split
  · subst_vars
    exact .inl ⟨['n'], rfl, fun t => rfl⟩
  split
  · subst_vars
    exact .inl ⟨['r'], rfl, fun t => rfl⟩
  split
  · subst_vars
    exact .inl ⟨['t'], rfl, fun t => rfl⟩
  split
  · rename_i hlow
    exact .inl ⟨'u' :: '0' :: '0' :: ((if c.toNat < 16 then ['0'] else []) ++ Text.hex c.toNat),
      by simp, unicodeEscape?_hex hlow⟩
  · rename_i hquote hslash _ _ _ _ _ hlow
    exact .inr ⟨rfl, hquote, hslash, hlow⟩

theorem stringBody?_jsonChar (c : Char) (t : Text) :
    stringBody? (Outline.jsonChar c ++ t) =
      (stringBody? t).map fun (body, rest) => (c :: body, rest) := by
  obtain ⟨e, he, hescape⟩ | ⟨he, hquote, hslash, hlow⟩ := jsonChar_cases c
  · rw [he, List.cons_append, stringBody?, if_neg (by decide), if_pos rfl]
    split
    · rename_i hnone
      rw [hescape t] at hnone
      exact absurd hnone (by simp)
    · rename_i d rest hsome
      rw [hescape t] at hsome
      obtain ⟨rfl, rfl⟩ := Prod.mk.inj (Option.some.inj hsome)
      cases stringBody? t with
      | none => rfl
      | some found => rfl
  · rw [he, List.singleton_append, stringBody?, if_neg hquote, if_neg hslash, if_neg hlow]
    cases stringBody? t with
    | none => rfl
    | some found => rfl

theorem stringBody?_jsonText (t rest : Text) :
    stringBody? (t.flatMap Outline.jsonChar ++ '"' :: rest) = some (t, rest) := by
  induction t with
  | nil =>
    rw [List.flatMap_nil, List.nil_append, stringBody?, if_pos rfl]
  | cons c t ih =>
    rw [List.flatMap_cons, List.append_assoc, stringBody?_jsonChar, ih]
    rfl

end Json
end Listing
