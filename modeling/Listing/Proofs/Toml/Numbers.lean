/-
Numbers read back from the form they are written in.

A number is written as digits on both sides of a point.  Every other kind of value that
starts like one is ruled out by a character that such a text does not have, or does not
have in that place, so it is read as a number with a point (`runValue?_tomlNumber`).
-/
import Listing.Proofs.Number.Decimal
import Listing.Proofs.Outline
import Listing.Toml.Scalar
import Mathlib.Data.List.TakeWhile

namespace Listing
namespace Toml

/-! ## Digits -/

theorem digitRun?_of_isDigit {t : Text} (hne : t ≠ []) (h : ∀ c ∈ t, c.isDigit = true) :
    digitRun? Char.isDigit t = some t := by
  induction t with
  | nil => exact absurd rfl hne
  | cons c r ih =>
    have hc := h c List.mem_cons_self
    cases r with
    | nil => simp [digitRun?, hc]
    | cons d r =>
      have hd : d ≠ '_' := by
        rintro rfl
        exact absurd (h '_' (by simp)) (by decide)
      rw [digitRun?, if_pos hc, ih (by simp) fun e he => h e (List.mem_cons_of_mem _ he)]
      · rfl
      · simp
      · intro r' heq
        exact hd (List.cons.inj heq).1

theorem not_mem_of_digitRun? {t digits : Text} (h : digitRun? Char.isDigit t = some digits) :
    '.' ∉ t := by
  have hdot : ∀ {c : Char}, c.isDigit = true → '.' ≠ c := by
    rintro c hc rfl
    exact absurd hc (by decide)
  fun_induction digitRun? Char.isDigit t generalizing digits with
  | case1 => simp
  | case2 c hc => simpa using hdot hc
  | case4 c r hc ih =>
    obtain ⟨more, hmore, -⟩ := Option.map_eq_some_iff.mp h
    simpa [hdot hc] using ih hmore
  | case6 c r _ _ hc ih =>
    obtain ⟨more, hmore, -⟩ := Option.map_eq_some_iff.mp h
    simpa [hdot hc] using ih hmore
  | case3 | case5 | case7 => simp at h

/-! ## Texts with a point -/

theorem after?_eq_none {head t : Text} {c : Char} (hhead : c ∈ head) (ht : c ∉ t) :
    Text.after? head t = none := by
  cases hafter : Text.after? head t with
  | none => rfl
  | some rest =>
    rw [← Text.after?_eq_some_iff.mp hafter] at ht
    exact absurd (List.mem_append_left _ hhead) ht

theorem eq_of_twoDigits? {low high n : Nat} {t r : Text}
    (h : twoDigits? low high t = some (n, r)) : ∃ a b, t = a :: b :: r := by
  unfold twoDigits? at h
  split at h
  · rename_i a b r'
    simp only at h
    split at h
    · split at h
      · rw [(Prod.mk.inj (Option.some.inj h)).2]
        exact ⟨a, b, rfl⟩
      · exact absurd h (by simp)
    · exact absurd h (by simp)
  · exact absurd h (by simp)

/-- A sign, digits, a point and digits. -/
def pointText (negative : Bool) (whole part : Text) : Text :=
  Binary64.signText negative ++ (whole ++ '.' :: part)

section
variable {whole part : Text} (hwhole : ∀ c ∈ whole, c.isDigit = true)
  (hpart : ∀ c ∈ part, c.isDigit = true)
include hwhole hpart

theorem mem_pointText (negative : Bool) {c : Char} (h : c ∈ pointText negative whole part) :
    c.isDigit = true ∨ c = '.' ∨ c = '-' := by
  unfold pointText Binary64.signText at h
  rcases List.mem_append.mp h with h | h
  · cases negative
    · simp at h
    · exact .inr (.inr (by simpa using h))
  · rcases List.mem_append.mp h with h | h
    · exact .inl (hwhole c h)
    · rcases List.mem_cons.mp h with rfl | h
      · exact .inr (.inl rfl)
      · exact .inl (hpart c h)

theorem isRunChar_of_mem_pointText (negative : Bool) {c : Char}
    (h : c ∈ pointText negative whole part) : isRunChar c = true := by
  rcases mem_pointText hwhole hpart negative h with hc | rfl | rfl
  · rw [isRunChar, Char.isAlphanum, hc, Bool.or_true]
    rfl
  · decide
  · decide

theorem not_mem_pointText (negative : Bool) {c : Char} (hdigit : c.isDigit = false)
    (hdot : c ≠ '.') (hminus : c ≠ '-') : c ∉ pointText negative whole part := by
  intro h
  rcases mem_pointText hwhole hpart negative h with h | h | h
  · rw [h] at hdigit
    exact absurd hdigit (by decide)
  · exact hdot h
  · exact hminus h

/-- The sign stands in front, so there is no dash where a date has one. -/
theorem date?_pointText (negative : Bool) : date? (pointText negative whole part) = none := by
  have hdash : '-' ∉ (pointText negative whole part).drop 4 := by
    intro hdrop
    have hmem : '-' ∈ whole ++ '.' :: part := by
      cases negative
      · exact List.mem_of_mem_drop hdrop
      · exact List.mem_of_mem_drop (i := 3) hdrop
    rcases List.mem_append.mp hmem with h | h
    · exact absurd (hwhole _ h) (by decide)
    · rcases List.mem_cons.mp h with h | h
      · exact absurd h (by decide)
      · exact absurd (hpart _ h) (by decide)
  unfold date?
  simp only
  split
  · rfl
  · rw [after?_eq_none List.mem_cons_self hdash]
    rfl

theorem time?_pointText (negative : Bool) : time? (pointText negative whole part) = none := by
  unfold time?
  cases htwo : twoDigits? 0 23 (pointText negative whole part) with
  | none => rfl
  | some found =>
    obtain ⟨hour, r⟩ := found
    obtain ⟨a, b, heq⟩ := eq_of_twoDigits? htwo
    have hcolon : ':' ∉ r := by
      intro hmem
      refine not_mem_pointText hwhole hpart negative (c := ':') rfl (by decide) (by decide) ?_
      rw [heq]
      exact List.mem_cons_of_mem _ (List.mem_cons_of_mem _ hmem)
    show (Text.after? [':'] r).bind _ = none
    rw [after?_eq_none List.mem_cons_self hcolon]
    rfl

theorem dateTime?_pointText (negative : Bool) :
    dateTime? (pointText negative whole part) = none := by
  rw [dateTime?, date?_pointText hwhole hpart, time?_pointText hwhole hpart]

end

theorem sign_pointText {whole : Text} (hne : whole ≠ []) (h : ∀ c ∈ whole, c.isDigit = true)
    (negative : Bool) (part : Text) :
    sign (pointText negative whole part) = (negative, whole ++ '.' :: part) := by
  cases negative with
  | true => rfl
  | false =>
    obtain ⟨c, r, rfl⟩ := List.exists_cons_of_ne_nil hne
    have hc := h c List.mem_cons_self
    show sign (c :: (r ++ '.' :: part)) = _
    unfold sign
    split
    · rename_i heq
      rw [(List.cons.inj heq).1] at hc
      exact absurd hc (by decide)
    · rename_i heq
      rw [(List.cons.inj heq).1] at hc
      exact absurd hc (by decide)
    · rfl

theorem integer?_pointText {whole : Text} (hne : whole ≠ []) (h : ∀ c ∈ whole, c.isDigit = true)
    (negative : Bool) (part : Text) : integer? (pointText negative whole part) = none := by
  have hwhole : wholePart? (whole ++ '.' :: part) = none := by
    unfold wholePart?
    cases hrun : digitRun? Char.isDigit (whole ++ '.' :: part) with
    | none => rfl
    | some digits => exact absurd (by simp) (not_mem_of_digitRun? hrun)
  rw [integer?, sign_pointText hne h]
  simp only [hwhole]

theorem wholePart?_of_says {d : Binary64.Decimal} {whole part : Text} (h : d.Says whole part) :
    wholePart? whole = some whole := by
  unfold wholePart?
  rw [digitRun?_of_isDigit h.whole_ne_nil h.whole_digits]
  simp only
  rw [if_neg]
  intro hplain
  rw [Bool.and_eq_true, beq_iff_eq, decide_eq_true_eq] at hplain
  have := h.plain hplain.1
  omega

/-- The number that digits around a point stand for is read from them. -/
theorem float?_pointText {d : Binary64.Decimal} {whole part : Text} (h : d.Says whole part)
    {negative : Bool} {x : Binary64} (hx : d.toBinary64 negative = x)
    (hfinite : x.isFinite = true) :
    float? (pointText negative whole part) = some (.real x) := by
  have hbody : ∀ {c : Char}, c.isDigit = false → c ≠ '.' → c ≠ '-' → c ∉ whole ++ '.' :: part :=
    not_mem_pointText h.whole_digits h.part_digits false
  have hmark : ∀ c ∈ whole ++ '.' :: part, (c != 'e' && c != 'E') = true := by
    intro c hc
    rw [Bool.and_eq_true, bne_iff_ne, bne_iff_ne]
    constructor
    · rintro rfl
      exact hbody rfl (by decide) (by decide) hc
    · rintro rfl
      exact hbody rfl (by decide) (by decide) hc
  have hpoint : ∀ c ∈ whole, (c != '.') = true := by
    intro c hc
    rw [bne_iff_ne]
    rintro rfl
    exact absurd (h.whole_digits _ hc) (by decide)
  have hword : ∀ word : Text, '.' ∉ word → whole ++ '.' :: part ≠ word := by
    rintro word hword rfl
    exact hword (by simp)
  have hnotInfinite : x ≠ Binary64.infinity false := by
    rintro rfl
    exact absurd hfinite (by decide +kernel)
  have hwords : ¬ ((decide (whole ++ '.' :: part = "inf".toList) ||
      decide (whole ++ '.' :: part = "nan".toList)) = true) := by
    rw [decide_eq_false (hword _ (by decide)), decide_eq_false (hword _ (by decide))]
    exact Bool.false_ne_true
  have hany : (whole ++ '.' :: part).any (fun c => c == '.' || c == 'e' || c == 'E') = true := by
    simp
  unfold float?
  rw [sign_pointText h.whole_ne_nil h.whole_digits]
  simp only
  rw [if_neg hwords, hany]
  simp only [Bool.not_true, Bool.false_eq_true, if_false]
  rw [List.takeWhile_eq_self_iff.mpr hmark, List.dropWhile_eq_nil_iff.mpr hmark,
    List.takeWhile_append_of_pos hpoint, List.dropWhile_append_of_pos hpoint]
  simp only [List.takeWhile_cons, List.dropWhile_cons, bne_self_eq_false, Bool.false_eq_true,
    if_false, List.append_nil, wholePart?_of_says h,
    digitRun?_of_isDigit h.part_ne_nil h.part_digits, Int.zero_sub, h.value, hx]
  rw [if_neg hnotInfinite, ofBinary64, if_pos hfinite]

theorem runValue?_pointText {d : Binary64.Decimal} {whole part : Text} (h : d.Says whole part)
    {negative : Bool} {x : Binary64} (hx : d.toBinary64 negative = x)
    (hfinite : x.isFinite = true) :
    runValue? (pointText negative whole part) = some (.real x) := by
  have hword : ∀ word : Text, '.' ∉ word → pointText negative whole part ≠ word := by
    rintro word hword rfl
    exact hword (by simp [pointText])
  have hbase : ∀ {c : Char} {mark : Text}, c ∈ mark → c.isDigit = false → c ≠ '.' → c ≠ '-' →
      Text.after? mark (pointText negative whole part) = none :=
    fun hmem hdigit hdot hminus => after?_eq_none hmem
      (not_mem_pointText h.whole_digits h.part_digits negative hdigit hdot hminus)
  have hhex : Text.after? "0x".toList (pointText negative whole part) = none :=
    hbase (c := 'x') (by decide) rfl (by decide) (by decide)
  have hoctal : Text.after? "0o".toList (pointText negative whole part) = none :=
    hbase (c := 'o') (by decide) rfl (by decide) (by decide)
  have hbinary : Text.after? "0b".toList (pointText negative whole part) = none :=
    hbase (c := 'b') (by decide) rfl (by decide) (by decide)
  unfold runValue?
  rw [if_neg (hword _ (by decide)), if_neg (hword _ (by decide)), hhex, hoctal, hbinary]
  simp only [dateTime?_pointText h.whole_digits h.part_digits,
    integer?_pointText h.whole_ne_nil h.whole_digits, float?_pointText h hx hfinite]

theorem tomlNumber_of_finite {x : Binary64} (hfinite : x.isFinite = true) :
    ∃ (d : Binary64.Decimal) (negative : Bool) (whole part : Text),
      Outline.tomlNumber x = pointText negative whole part ∧ d.Says whole part ∧
        d.toBinary64 negative = x := by
  unfold Binary64.isFinite at hfinite
  split at hfinite
  · rename_i negative m e hx
    obtain ⟨whole, part, hpositional, hsays⟩ :=
      Binary64.Decimal.positional_says (.shortest .away x negative m e)
        (Binary64.Decimal.exponent_shortest hx)
    refine ⟨_, negative, whole, part, ?_, hsays, Binary64.Decimal.toBinary64_shortest .away hx⟩
    rw [Outline.tomlNumber, hx, pointText, ← hpositional]
  · exact absurd hfinite (by simp)

theorem tomlNumber_of_not_finite {x : Binary64} (hfinite : x.isFinite = false) :
    Outline.tomlNumber x ∈ ["inf".toList, "-inf".toList, "nan".toList] := by
  unfold Binary64.isFinite at hfinite
  unfold Outline.tomlNumber
  cases hx : x.value with
  | nan negative => simp
  | infinite negative =>
    cases negative
    · simp [Binary64.signText]
    · simp [Binary64.signText]
  | finite negative m e =>
    rw [hx] at hfinite
    exact absurd hfinite (by simp)

/-- A number is written in characters of numbers alone. -/
theorem isRunChar_of_mem_tomlNumber {x : Binary64} {c : Char} (h : c ∈ Outline.tomlNumber x) :
    isRunChar c = true := by
  cases hfinite : x.isFinite with
  | true =>
    obtain ⟨d, negative, whole, part, htext, hsays, -⟩ := tomlNumber_of_finite hfinite
    rw [htext] at h
    exact isRunChar_of_mem_pointText hsays.whole_digits hsays.part_digits negative h
  | false =>
    have hall : ∀ t ∈ ["inf".toList, "-inf".toList, "nan".toList], t.all isRunChar = true := by
      decide
    exact List.all_eq_true.mp (hall _ (tomlNumber_of_not_finite hfinite)) c h

theorem tomlNumber_ne_nil (x : Binary64) : Outline.tomlNumber x ≠ [] := by
  cases hfinite : x.isFinite with
  | true =>
    obtain ⟨d, negative, whole, part, htext, -⟩ := tomlNumber_of_finite hfinite
    rw [htext]
    simp [pointText]
  | false =>
    intro hnil
    have hmem := tomlNumber_of_not_finite hfinite
    rw [hnil] at hmem
    exact absurd hmem (by decide)

theorem runValue?_tomlNumber (x : Binary64) :
    runValue? (Outline.tomlNumber x) = some (Scalar.number x).value := by
  rw [Scalar.value]
  cases hfinite : x.isFinite with
  | true =>
    obtain ⟨d, negative, whole, part, htext, hsays, hvalue⟩ := tomlNumber_of_finite hfinite
    rw [htext, runValue?_pointText hsays hvalue hfinite]
    rfl
  | false =>
    have hall : ∀ t ∈ ["inf".toList, "-inf".toList, "nan".toList], runValue? t = some .null := by
      intro t ht
      simp only [List.mem_cons, List.not_mem_nil, or_false] at ht
      rcases ht with rfl | rfl | rfl
      · rfl
      · rfl
      · rfl
    exact hall _ (tomlNumber_of_not_finite hfinite)

end Toml
end Listing
