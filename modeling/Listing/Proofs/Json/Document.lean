/-
A JSON document reads back to the outline that it was written from.

An object is written with each of its fields on a line.  After the value of a field stands
a comma or the end of the line, and no more of the rest matters to a reader of values
(`Reads`), so the fields are read one after the other (`fields_fieldLines`), and the
document is the object of its fields (`ofText?_toJson`).

Numbers are the exception.  Their digits are scaled by a power of ten when they are read,
which rounds a second time, so not every number comes back.  That the numbers of an outline
do is asked for, of each number by itself (`KeepsNumber`).
-/
import Listing.Proofs.Json.Strings
import Listing.Proofs.Outline
import Mathlib.Data.List.Forall2

namespace Listing
namespace Json

open Outline (jsonText jsonNumber jsonScalar jsonObject jsonFields)

/-! ## Numbers -/

theorem takeWhile_append_cons {p : Char → Bool} {c : Char} (hc : p c = false) (t r : Text) :
    (t ++ c :: r).takeWhile p = t.takeWhile p := by
  induction t with
  | nil => simp [hc]
  | cons d t ih => simp only [List.cons_append, List.takeWhile_cons, ih]

theorem dropWhile_append_cons {p : Char → Bool} {c : Char} (hc : p c = false) (t r : Text) :
    (t ++ c :: r).dropWhile p = t.dropWhile p ++ c :: r := by
  induction t with
  | nil => simp [hc]
  | cons d t ih =>
    simp only [List.cons_append, List.dropWhile_cons, ih]
    split
    · rfl
    · rfl

/-- A character that no number text goes on with. -/
structure EndsNumber (c : Char) : Prop where
  digit : c.isDigit = false
  point : c ≠ '.'
  mark : (c != 'e' && c != 'E') = true

/-- The exponent that its digits stand for. -/
def exponentOf? (negative : Bool) (digits : Text) : Option (Int × Text) :=
  let run := digits.takeWhile Char.isDigit
  if run.isEmpty then none
  else some (if negative then -(Text.digitValue run : Int) else Text.digitValue run,
    digits.dropWhile Char.isDigit)

theorem exponent?_mark {d : Char} (hd : ¬(d != 'e' && d != 'E') = true) {t : Text}
    (ht : t ≠ []) :
    ∃ negative digits, ∀ u,
      Binary64.exponent? (d :: (t ++ u)) = exponentOf? negative (digits ++ u) := by
  obtain ⟨s, t, rfl⟩ := List.exists_cons_of_ne_nil ht
  by_cases hminus : s = '-'
  · subst hminus
    exact ⟨true, t, fun u => if_neg hd⟩
  by_cases hplus : s = '+'
  · subst hplus
    exact ⟨false, t, fun u => if_neg hd⟩
  · refine ⟨false, s :: t, fun u => ?_⟩
    rw [Binary64.exponent?, if_neg hd]
    · rfl
    · intro r heq
      exact hminus (List.cons.inj heq).1
    · intro r heq
      exact hplus (List.cons.inj heq).1

theorem exponent?_append {t : Text} {e : Int} (h : Binary64.exponent? t = some (e, []))
    {c : Char} (hc : EndsNumber c) (r : Text) :
    Binary64.exponent? (t ++ c :: r) = some (e, c :: r) := by
  cases t with
  | nil =>
    obtain ⟨rfl, -⟩ := Prod.mk.inj (Option.some.inj h)
    exact if_pos hc.mark
  | cons d t =>
    by_cases hd : (d != 'e' && d != 'E') = true
    · have hnone : Binary64.exponent? (d :: t) = some (0, d :: t) := if_pos hd
      rw [hnone] at h
      exact absurd h (by simp)
    · have ht : t ≠ [] := by
        rintro rfl
        have hnone : Binary64.exponent? [d] = none := if_neg hd
        rw [hnone] at h
        exact absurd h (by simp)
      obtain ⟨negative, digits, hdigits⟩ := exponent?_mark hd ht
      rw [List.cons_append, hdigits (c :: r)]
      rw [← List.append_nil t, hdigits [], List.append_nil] at h
      unfold exponentOf? at h ⊢
      rw [takeWhile_append_cons hc.digit, dropWhile_append_cons hc.digit]
      simp only at h ⊢
      split at h
      · exact absurd h (by simp)
      · rename_i hrun
        obtain ⟨he, hrest⟩ := Prod.mk.inj (Option.some.inj h)
        rw [if_neg hrun, he, hrest]
        rfl

/-- A number text in three parts: its sign, its point with the digits after it, and what
stands behind them. -/
def signPart : Text → Bool × Text
  | '-' :: r => (true, r)
  | r => (false, r)

def pointPart : Text → Bool × Text × Text
  | '.' :: r => (true, r.takeWhile Char.isDigit, r.dropWhile Char.isDigit)
  | r => (false, [], r)

def exponentPart? (negative : Bool) (whole part t : Text) : Option (NumberText × Text) :=
  match Binary64.exponent? t with
  | none => none
  | some (exponent, rest) =>
    some (⟨negative, whole, part,
      if t.head?.any fun c => c == 'e' || c == 'E' then some exponent else none⟩, rest)

theorem numberText?_eq (t : Text) : numberText? t =
    let whole := (signPart t).2.takeWhile Char.isDigit
    let p := pointPart ((signPart t).2.dropWhile Char.isDigit)
    if whole.isEmpty || (whole.head? == some '0' && 1 < whole.length) then none
    else if p.1 && p.2.1.isEmpty then none
    else exponentPart? (signPart t).1 whole p.2.1 p.2.2 := rfl

theorem signPart_append {t : Text} (ht : t ≠ []) (u : Text) :
    signPart (t ++ u) = ((signPart t).1, (signPart t).2 ++ u) := by
  obtain ⟨d, t, rfl⟩ := List.exists_cons_of_ne_nil ht
  by_cases hd : d = '-'
  · subst hd
    rfl
  · have hplain : ∀ v, signPart (d :: v) = (false, d :: v) := by
      intro v
      rw [signPart]
      intro r heq
      exact hd (List.cons.inj heq).1
    rw [List.cons_append, hplain, hplain]
    rfl

section
variable {c : Char} (hc : EndsNumber c)
include hc

theorem pointPart_append (t r : Text) :
    pointPart (t ++ c :: r) =
      ((pointPart t).1, (pointPart t).2.1, (pointPart t).2.2 ++ c :: r) := by
  have hplain : ∀ d u, d ≠ '.' → pointPart (d :: u) = (false, [], d :: u) := by
    intro d u hd
    rw [pointPart]
    intro r heq
    exact hd (List.cons.inj heq).1
  cases t with
  | nil => exact hplain c r hc.point
  | cons d t =>
    by_cases hd : d = '.'
    · subst hd
      rw [List.cons_append, pointPart, pointPart, takeWhile_append_cons hc.digit,
        dropWhile_append_cons hc.digit]
    · rw [List.cons_append, hplain _ _ hd, hplain _ _ hd]
      rfl

theorem exponentPart?_append {negative : Bool} {whole part t : Text} {n : NumberText}
    (h : exponentPart? negative whole part t = some (n, [])) (r : Text) :
    exponentPart? negative whole part (t ++ c :: r) = some (n, c :: r) := by
  have hhead : ((t ++ c :: r).head?.any fun d => d == 'e' || d == 'E') =
      t.head?.any fun d => d == 'e' || d == 'E' := by
    cases t with
    | nil =>
      have hmark := hc.mark
      rw [Bool.and_eq_true, bne_iff_ne, bne_iff_ne] at hmark
      simp [hmark]
    | cons d t => rfl
  unfold exponentPart? at h ⊢
  split at h
  · exact absurd h (by simp)
  · rename_i exponent rest hexponent
    obtain ⟨rfl, rfl⟩ := Prod.mk.inj (Option.some.inj h)
    rw [exponent?_append hexponent hc r, hhead]

theorem numberText?_append {t : Text} {n : NumberText} (h : numberText? t = some (n, []))
    (r : Text) : numberText? (t ++ c :: r) = some (n, c :: r) := by
  have ht : t ≠ [] := by
    rintro rfl
    exact absurd h (by simp [numberText?_eq, signPart])
  rw [numberText?_eq] at h ⊢
  simp only at h ⊢
  rw [signPart_append ht, takeWhile_append_cons hc.digit, dropWhile_append_cons hc.digit,
    pointPart_append hc]
  split at h
  · exact absurd h (by simp)
  split at h
  · exact absurd h (by simp)
  · rename_i hwhole hpart
    rw [if_neg hwhole, if_neg hpart]
    exact exponentPart?_append hc h r

theorem number_append {t : Text} {v : Json} (h : number t = some (v, [])) (r : Text) :
    number (t ++ c :: r) = some (v, c :: r) := by
  unfold number at h ⊢
  split at h
  · exact absurd h (by simp)
  · rename_i n rest hn
    obtain ⟨w, hw, heq⟩ := Option.map_eq_some_iff.mp h
    obtain ⟨rfl, rfl⟩ := Prod.mk.inj heq
    rw [numberText?_append hc hn r]
    simp only [hw, Option.map_some]

end

theorem head_of_number {t rest : Text} {v : Json} (h : number t = some (v, rest)) :
    ∃ d r, t = d :: r ∧ (d.isDigit = true ∨ d = '-') := by
  cases t with
  | nil => exact absurd h (by simp [number, numberText?_eq, signPart])
  | cons d r =>
    refine ⟨d, r, rfl, ?_⟩
    by_cases hminus : d = '-'
    · exact .inr hminus
    · left
      have hsign : signPart (d :: r) = (false, d :: r) := by
        rw [signPart]
        intro r' heq
        exact hminus (List.cons.inj heq).1
      cases hd : d.isDigit with
      | true => rfl
      | false => exact absurd h (by simp [number, numberText?_eq, hsign, hd])

/-- The number comes back from its own text. -/
def KeepsNumber (x : Binary64) : Prop := number (jsonNumber x) = some (.real x, [])

/-! ## Values -/

/-- A text that is read as a value, whether a comma or the end of its line follows. -/
def Reads (read : Reader) (t : Text) (v : Json) : Prop :=
  ∀ c r, c = ',' ∨ c = '\n' → read (skipSpace (t ++ c :: r)) = some (v, c :: r)

theorem endsNumber_of_end {c : Char} (h : c = ',' ∨ c = '\n') : EndsNumber c := by
  rcases h with rfl | rfl
  · exact ⟨rfl, by decide, rfl⟩
  · exact ⟨rfl, by decide, rfl⟩

theorem skipSpace_cons {c : Char} (h : isSpace c = false) (t : Text) :
    skipSpace (c :: t) = c :: t :=
  List.dropWhile_cons_of_neg (by rw [h]; exact Bool.false_ne_true)

theorem valueAt_string (fuel depth : Nat) (t rest : Text) :
    valueAt fuel depth (jsonText t ++ rest) = some (.text t, rest) := by
  unfold valueAt
  simp [jsonText, stringBody?_jsonText]

theorem reads_text (fuel depth : Nat) (t : Text) :
    Reads (valueAt fuel depth) (jsonText t) (.text t) := by
  intro c r _
  have hskip : skipSpace (jsonText t ++ c :: r) = jsonText t ++ c :: r :=
    skipSpace_cons (by decide) _
  rw [hskip, valueAt_string]

theorem reads_number (fuel depth : Nat) {t : Text} {v : Json} (h : number t = some (v, [])) :
    Reads (valueAt fuel depth) t v := by
  intro c r hc
  obtain ⟨d, u, rfl, hd⟩ := head_of_number h
  have hne : ∀ e : Char, e.isDigit = false → e ≠ '-' → d ≠ e := by
    rintro e hdigit hminus rfl
    rcases hd with hd | hd
    · rw [hd] at hdigit
      exact absurd hdigit (by decide)
    · exact hminus hd
  have hspace : isSpace d = false := by
    simp [isSpace, hne ' ' rfl (by decide), hne '\t' rfl (by decide), hne '\n' rfl (by decide),
      hne '\r' rfl (by decide)]
  have hread := number_append (endsNumber_of_end hc) h r
  rw [List.cons_append] at hread ⊢
  have hnull : Text.after? "null".toList (d :: (u ++ c :: r)) = none :=
    if_neg (hne 'n' rfl (by decide)).symm
  have htrue : Text.after? "true".toList (d :: (u ++ c :: r)) = none :=
    if_neg (hne 't' rfl (by decide)).symm
  have hfalse : Text.after? "false".toList (d :: (u ++ c :: r)) = none :=
    if_neg (hne 'f' rfl (by decide)).symm
  rw [skipSpace_cons hspace]
  unfold valueAt
  simp only [hne '"' rfl (by decide), hne '[' rfl (by decide), hne '\x7b' rfl (by decide), if_false,
    hnull, htrue, hfalse, hread]

theorem reads_jsonScalar (fuel depth : Nat) {v : Scalar}
    (hnumber : ∀ x, v = .number x → x.isFinite = true → KeepsNumber x) :
    Reads (valueAt fuel depth) (jsonScalar v) v.value := by
  cases v with
  | text t => exact reads_text fuel depth t
  | number x =>
    rw [Scalar.value]
    cases hfinite : x.isFinite with
    | true => exact reads_number fuel depth (hnumber x rfl hfinite)
    | false =>
      have hnull : jsonNumber x = "null".toList := by
        unfold Binary64.isFinite at hfinite
        unfold Outline.jsonNumber
        cases hx : x.value with
        | nan negative => rfl
        | infinite negative => rfl
        | finite negative m e =>
          rw [hx] at hfinite
          exact absurd hfinite (by simp)
      intro c r _
      rw [jsonScalar, hnull]
      unfold valueAt
      rfl
  | flag b =>
    intro c r _
    unfold valueAt
    cases b with
    | true => rfl
    | false => rfl

/-! ## Objects -/

/-- A field on a line of its own. -/
def fieldLine (inner : Text) (f : Text × Text) : Text :=
  '\n' :: inner ++ jsonText f.1 ++ ": ".toList ++ f.2

theorem skipSpace_append {inner : Text} (h : ∀ c ∈ inner, isSpace c = true) (t : Text) :
    skipSpace (inner ++ t) = skipSpace t :=
  List.dropWhile_append_of_pos h

theorem skipSpace_fieldLine {inner : Text} (h : ∀ c ∈ inner, isSpace c = true)
    (f : Text × Text) (rest : Text) :
    skipSpace (fieldLine inner f ++ rest) =
      '"' :: (f.1.flatMap Outline.jsonChar ++ '"' :: ':' :: ' ' :: (f.2 ++ rest)) := by
  have htext : fieldLine inner f ++ rest = ('\n' :: inner) ++
      '"' :: (f.1.flatMap Outline.jsonChar ++ '"' :: ':' :: ' ' :: (f.2 ++ rest)) := by
    simp [fieldLine, jsonText]
  have hspace : ∀ c ∈ '\n' :: inner, isSpace c = true := by
    intro c hc
    rcases List.mem_cons.mp hc with rfl | hc
    · rfl
    · exact h c hc
  rw [htext, skipSpace_append hspace, skipSpace_cons (by decide)]

section
variable {read : Reader} {inner : Text} {f : Text × Text} {v : Json}
  (hinner : ∀ c ∈ inner, isSpace c = true) (hread : Reads read f.2 v)
include hinner hread

theorem fields_comma (fuel : Nat) (rest : Text) :
    fields read (fuel + 1) (fieldLine inner f ++ ',' :: rest) =
      (fields read fuel rest).map fun (fs, rest) => ((f.1, v) :: fs, rest) := by
  have hvalue : read (skipSpace (' ' :: (f.2 ++ ',' :: rest))) = some (v, ',' :: rest) :=
    hread ',' rest (.inl rfl)
  have hcolon : ∀ t, skipSpace (':' :: t) = ':' :: t := fun t => rfl
  have hcomma : skipSpace (',' :: rest) = ',' :: rest := rfl
  rw [fields, skipSpace_fieldLine hinner]
  simp only [stringBody?_jsonText, hcolon, hvalue, hcomma]
  cases fields read fuel rest with
  | none => rfl
  | some found => rfl

theorem fields_last {indent : Text} (hindent : ∀ c ∈ indent, isSpace c = true) (fuel : Nat)
    (rest : Text) :
    fields read (fuel + 1) (fieldLine inner f ++ '\n' :: (indent ++ '\x7d' :: rest)) =
      some ([(f.1, v)], rest) := by
  have hvalue := hread '\n' (indent ++ '\x7d' :: rest) (.inr rfl)
  have hcolon : ∀ t, skipSpace (':' :: t) = ':' :: t := fun t => rfl
  have hbrace : skipSpace ('\n' :: (indent ++ '\x7d' :: rest)) = '\x7d' :: rest := by
    show skipSpace (indent ++ _) = _
    rw [skipSpace_append hindent]
    rfl
  have hspace : skipSpace (' ' :: (f.2 ++ '\n' :: (indent ++ '\x7d' :: rest))) =
      skipSpace (f.2 ++ '\n' :: (indent ++ '\x7d' :: rest)) := rfl
  rw [fields, skipSpace_fieldLine hinner]
  simp only [stringBody?_jsonText, hcolon, hspace, hvalue, hbrace]

end

/-- The texts of fields and the fields they are read as. -/
def ReadsFields (read : Reader) (texts : List (Text × Text)) (values : List (Text × Json)) : Prop :=
  List.Forall₂ (fun f e => f.1 = e.1 ∧ Reads read f.2 e.2) texts values

/-- The lines of an object. -/
def fieldLines (inner : Text) (texts : List (Text × Text)) : Text :=
  Text.join [','] (texts.map (fieldLine inner))

theorem fieldLines_cons_cons (inner : Text) (f g : Text × Text) (texts : List (Text × Text)) :
    fieldLines inner (f :: g :: texts) =
      fieldLine inner f ++ ',' :: fieldLines inner (g :: texts) :=
  List.append_assoc ..

theorem fieldLines_cons (inner : Text) (f : Text × Text) (texts : List (Text × Text)) :
    ∃ more, fieldLines inner (f :: texts) = fieldLine inner f ++ more ∧
      (fieldLines inner texts).length ≤ more.length := by
  cases texts with
  | nil => exact ⟨[], (List.append_nil _).symm, Nat.le_refl _⟩
  | cons g texts => exact ⟨_, fieldLines_cons_cons inner f g texts, Nat.le_succ _⟩

theorem jsonObject_cons (indent : Text) (f : Text × Text) (texts : List (Text × Text))
    (rest : Text) :
    jsonObject indent (f :: texts) ++ rest =
      '\x7b' :: (fieldLines (indent ++ "  ".toList) (f :: texts) ++
        '\n' :: (indent ++ '\x7d' :: rest)) := by
  show "\x7b".toList ++ fieldLines (indent ++ "  ".toList) (f :: texts) ++ '\n' :: indent
    ++ "\x7d".toList ++ rest = _
  simp

section
variable {read : Reader} {inner indent : Text} (hinner : ∀ c ∈ inner, isSpace c = true)
  (hindent : ∀ c ∈ indent, isSpace c = true)
include hinner hindent

theorem fields_fieldLines {texts : List (Text × Text)} {values : List (Text × Json)}
    (h : ReadsFields read texts values) (hne : texts ≠ []) {fuel : Nat}
    (hfuel : texts.length ≤ fuel) (rest : Text) :
    fields read fuel (fieldLines inner texts ++ '\n' :: (indent ++ '\x7d' :: rest)) =
      some (values, rest) := by
  induction h generalizing fuel with
  | nil => exact absurd rfl hne
  | @cons f e texts values hfirst hothers ih =>
    obtain ⟨name, v⟩ := e
    obtain ⟨rfl, hread⟩ := hfirst
    rw [List.length_cons] at hfuel
    obtain ⟨fuel, rfl⟩ := Nat.exists_eq_succ_of_ne_zero (by omega : fuel ≠ 0)
    -- Only the last line is followed by the closing brace.
    cases hothers with
    | nil => exact fields_last hinner hread hindent fuel rest
    | cons hsecond hothers =>
      have hnext := ih (by simp) (Nat.le_of_succ_le_succ hfuel)
      rw [fieldLines_cons_cons, List.append_assoc, List.cons_append, fields_comma hinner hread,
        hnext]
      rfl

end

theorem isSpace_of_mem_step : ∀ c ∈ "  ".toList, isSpace c = true := by
  have hall : "  ".toList.all isSpace = true := by decide
  exact List.all_eq_true.mp hall

theorem valueAt_jsonObject {indent : Text} (hindent : ∀ c ∈ indent, isSpace c = true)
    {fuel depth : Nat} {texts : List (Text × Text)} {values : List (Text × Json)}
    (h : ReadsFields (valueAt fuel depth) texts values) (hfuel : texts.length ≤ fuel)
    (rest : Text) :
    valueAt fuel (depth + 1) (jsonObject indent texts ++ rest) =
      some (ofFields values, rest) := by
  cases texts with
  | nil =>
    cases h
    unfold valueAt
    rfl
  | cons f texts =>
    have hinner : ∀ c ∈ indent ++ "  ".toList, isSpace c = true := by
      intro c hc
      rcases List.mem_append.mp hc with hc | hc
      · exact hindent c hc
      · exact isSpace_of_mem_step c hc
    have hfields := fields_fieldLines hinner hindent h (by simp) hfuel rest
    obtain ⟨body, hskip⟩ : ∃ body, skipSpace (fieldLines (indent ++ "  ".toList) (f :: texts)
        ++ '\n' :: (indent ++ '\x7d' :: rest)) = '"' :: body := by
      obtain ⟨more, hmore, -⟩ := fieldLines_cons (indent ++ "  ".toList) f texts
      rw [hmore, List.append_assoc]
      exact ⟨_, skipSpace_fieldLine hinner f _⟩
    rw [jsonObject_cons]
    unfold valueAt
    simp only [hskip, hfields]
    rfl

/-! ## Documents -/

theorem readsFields_entries (fuel depth : Nat) {entries : List (Text × Scalar)}
    (h : ∀ e ∈ entries, ∀ x, e.2 = .number x → x.isFinite = true → KeepsNumber x) :
    ReadsFields (valueAt fuel depth) (jsonFields entries) (Outline.fields entries) := by
  refine List.forall₂_map_left_iff.mpr (List.forall₂_map_right_iff.mpr ?_)
  refine List.forall₂_same.mpr fun e he => ?_
  exact ⟨rfl, reads_jsonScalar fuel depth (h e he)⟩

theorem skipSpace_jsonObject (indent : Text) (texts : List (Text × Text)) (rest : Text) :
    skipSpace (jsonObject indent texts ++ rest) = jsonObject indent texts ++ rest := by
  cases texts with
  | nil => exact skipSpace_cons (by decide) _
  | cons f texts =>
    rw [jsonObject_cons]
    exact skipSpace_cons (by decide) _

theorem readsFields_groups {fuel depth : Nat} {groups : List (Text × List (Text × Scalar))}
    (h : ∀ g ∈ groups, g.2.length ≤ fuel ∧
      ∀ e ∈ g.2, ∀ x, e.2 = .number x → x.isFinite = true → KeepsNumber x) :
    ReadsFields (valueAt fuel (depth + 1))
      (groups.map fun g => (g.1, jsonObject "  ".toList (jsonFields g.2)))
      (groups.map fun g => (g.1, ofFields (Outline.fields g.2))) := by
  refine List.forall₂_map_left_iff.mpr (List.forall₂_map_right_iff.mpr ?_)
  refine List.forall₂_same.mpr fun g hg => ⟨rfl, ?_⟩
  intro c r _
  obtain ⟨hfuel, hnumbers⟩ := h g hg
  rw [skipSpace_jsonObject]
  refine valueAt_jsonObject isSpace_of_mem_step (readsFields_entries fuel depth hnumbers) ?_ (c :: r)
  rw [jsonFields, List.length_map]
  exact hfuel

theorem length_fieldLines (inner : Text) (texts : List (Text × Text)) :
    texts.length ≤ (fieldLines inner texts).length ∧
      ∀ f ∈ texts, f.2.length ≤ (fieldLines inner texts).length := by
  induction texts with
  | nil => exact ⟨Nat.le_refl _, by simp⟩
  | cons f texts ih =>
    obtain ⟨more, hmore, hlonger⟩ := fieldLines_cons inner f texts
    have hline : f.2.length + 1 ≤ (fieldLine inner f).length := by
      simp only [fieldLine, List.length_append, List.length_cons]
      omega
    rw [hmore, List.length_append]
    refine ⟨?_, ?_⟩
    · rw [List.length_cons]
      omega
    · intro e he
      rcases List.mem_cons.mp he with rfl | he
      · omega
      · have := ih.2 e he
        omega

/-- An object is at least as long as its fields are many, and longer than any of them. -/
theorem length_jsonObject (indent : Text) (texts : List (Text × Text)) :
    texts.length ≤ (jsonObject indent texts).length ∧
      ∀ f ∈ texts, f.2.length ≤ (jsonObject indent texts).length := by
  obtain ⟨hcount, hlonger⟩ := length_fieldLines (indent ++ "  ".toList) texts
  have hobject : (fieldLines (indent ++ "  ".toList) texts).length ≤
      (jsonObject indent texts).length := by
    cases texts with
    | nil => exact Nat.zero_le _
    | cons f texts =>
      have htext := congrArg List.length (jsonObject_cons indent f texts [])
      rw [List.append_nil, List.length_cons, List.length_append] at htext
      omega
  refine ⟨Nat.le_trans hcount hobject, ?_⟩
  intro f hf
  exact Nat.le_trans (hlonger f hf) hobject

/-- The fields of a document as they are written. -/
def documentFields (o : Outline) : List (Text × Text) :=
  jsonFields o.entries ++ o.groups.map fun g => (g.1, jsonObject "  ".toList (jsonFields g.2))

theorem toJson_eq (o : Outline) : o.toJson = jsonObject [] (documentFields o) ++ ['\n'] := rfl

theorem length_toJson (o : Outline) :
    (documentFields o).length ≤ o.toJson.length ∧ ∀ g ∈ o.groups, g.2.length ≤ o.toJson.length := by
  obtain ⟨hcount, hlonger⟩ := length_jsonObject [] (documentFields o)
  have hlength : o.toJson.length = (jsonObject [] (documentFields o)).length + 1 := by
    rw [toJson_eq, List.length_append]
    rfl
  refine ⟨by omega, ?_⟩
  intro g hg
  have hgroup := (length_jsonObject "  ".toList (jsonFields g.2)).1
  have hfield := hlonger (g.1, jsonObject "  ".toList (jsonFields g.2))
    (List.mem_append_right _ (List.mem_map_of_mem hg))
  rw [jsonFields, List.length_map] at hgroup
  rw [hlength]
  exact Nat.le_trans hgroup (Nat.le_trans hfield (Nat.le_succ _))

theorem ofText?_toJson {o : Outline}
    (h : ∀ x, Scalar.number x ∈ o.scalars → x.isFinite = true → KeepsNumber x) :
    ofText? o.toJson = some o.value := by
  obtain ⟨hcount, hlonger⟩ := length_toJson o
  have hentries : ∀ e ∈ o.entries, ∀ x, e.2 = .number x → x.isFinite = true →
      KeepsNumber x := by
    intro e he x hx
    exact h x (List.mem_append_left _ (hx ▸ List.mem_map_of_mem he))
  have hgroups : ∀ g ∈ o.groups, g.2.length ≤ o.toJson.length ∧
      ∀ e ∈ g.2, ∀ x, e.2 = .number x → x.isFinite = true → KeepsNumber x := by
    intro g hg
    refine ⟨hlonger g hg, fun e he x hx => ?_⟩
    refine h x (List.mem_append_right _ (List.mem_flatMap.mpr ⟨g, hg, ?_⟩))
    exact hx ▸ List.mem_map_of_mem he
  have hfields : ReadsFields (valueAt o.toJson.length 126) (documentFields o) o.topFields :=
    List.rel_append (readsFields_entries _ _ hentries) (readsFields_groups hgroups)
  have hvalue : valueAt o.toJson.length maxDepth o.toJson = some (o.value, ['\n']) :=
    valueAt_jsonObject (by simp) hfields hcount ['\n']
  have hskip : skipSpace o.toJson = o.toJson := skipSpace_jsonObject [] (documentFields o) ['\n']
  rw [ofText?, hskip, hvalue]
  rfl

-- The digits 61.238404586201156 are those of a number, and are read as the one below it.
example : (number (jsonNumber ⟨4633815356561848742⟩)).bind (·.1.number?) =
    some ⟨4633815356561848741⟩ := by decide +kernel

end Json
end Listing
