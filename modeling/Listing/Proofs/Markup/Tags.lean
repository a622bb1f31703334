/-
Tags in a text, and texts that are laid out with tags.

`Laid tags t` says that `t` is the tags `tags` in order with text between them that
holds no angle bracket.  Layouts are put together from layouts, which is how a
page is followed through its template.  What a layout is good for is that its
tags can be read off it: deleting known tags from such a text finds exactly the
tags it was laid out with and leaves no angle bracket (`Laid.strip`), and the tags
are also counted by a plain search for their text (`Laid.occurrences`).
-/
import Listing.Text.Basic

namespace Listing

namespace Text

/-- There is no angle bracket in the text. -/
def BracketFree (t : Text) : Prop := ∀ c ∈ t, c ≠ '<' ∧ c ≠ '>'

instance (t : Text) : Decidable (BracketFree t) :=
  List.decidableBAll (fun c => c ≠ '<' ∧ c ≠ '>') t

theorem BracketFree.append {a b : Text} (ha : BracketFree a) (hb : BracketFree b) :
    BracketFree (a ++ b) := fun c hc => (List.mem_append.mp hc).elim (ha c) (hb c)

theorem BracketFree.flatMap {α : Type} {xs : List α} {f : α → Text}
    (h : ∀ x ∈ xs, BracketFree (f x)) : BracketFree (xs.flatMap f) := by
  intro c hc
  obtain ⟨x, hx, hcx⟩ := List.mem_flatMap.mp hc
  exact h x hx c hcx

/-- Characters that are all of a kind hold no bracket if neither bracket is of it. -/
theorem BracketFree.of_forall {P : Char → Prop} {t : Text} (hlt : ¬ P '<') (hgt : ¬ P '>')
    (h : ∀ c ∈ t, P c) : BracketFree t := by
  intro c hc
  constructor
  · rintro rfl
    exact hlt (h _ hc)
  · rintro rfl
    exact hgt (h _ hc)

/-- The number of places where `part` stands in a text. -/
def occurrences (part : Text) : Text → Nat
  | [] => 0
  | c :: r => (if (after? part (c :: r)).isSome then 1 else 0) + occurrences part r

end Text

/-- A tag, given by what stands between its angle brackets. -/
structure Tag where
  inner : Text
  closed : Text.BracketFree inner
deriving DecidableEq

namespace Tag

def ofString (s : String) (closed : Text.BracketFree s.toList := by decide) : Tag :=
  ⟨s.toList, closed⟩

def text (tag : Tag) : Text := '<' :: (tag.inner ++ ['>'])

/-- The known tag that a text starts with, and what follows it. -/
def at? (known : List Tag) (t : Text) : Option (Tag × Text) :=
  known.findSome? fun tag => (Text.after? tag.text t).map fun rest => (tag, rest)

theorem text_append_of_at? {known : List Tag} {t rest : Text} {tag : Tag}
    (h : at? known t = some (tag, rest)) : tag.text ++ rest = t := by
  obtain ⟨other, -, hother⟩ := List.exists_of_findSome?_eq_some h
  obtain ⟨r, hr, hpair⟩ := Option.map_eq_some_iff.mp hother
  obtain ⟨rfl, rfl⟩ := Prod.mk.inj hpair
  exact Text.after?_eq_some_iff.mp hr

/-- Only one tag can stand at the start of a text: the first closing bracket ends it. -/
theorem eq_of_text_append_eq {a b : Tag} {s t : Text} (h : a.text ++ s = b.text ++ t) :
    a = b ∧ s = t := by
  obtain ⟨x, hx⟩ := a
  obtain ⟨y, hy⟩ := b
  have hinner : x ++ '>' :: s = y ++ '>' :: t := by
    simpa [text] using h
  -- In step through both: neither tag has a closing bracket before its last character.
  have hxy : x = y ∧ s = t := by
    clear h
    induction x generalizing y with
    | nil =>
      cases y with
      | nil => exact ⟨rfl, (List.cons_eq_cons.mp hinner).2⟩
      | cons d y =>
        obtain ⟨rfl, -⟩ := List.cons_eq_cons.mp hinner
        exact absurd rfl (hy _ List.mem_cons_self).2
    | cons c x ih =>
      cases y with
      | nil =>
        obtain ⟨rfl, -⟩ := List.cons_eq_cons.mp hinner
        exact absurd rfl (hx _ List.mem_cons_self).2
      | cons d y =>
        obtain ⟨rfl, hrest⟩ := List.cons_eq_cons.mp hinner
        obtain ⟨rfl, hst⟩ := ih (fun e he => hx e (List.mem_cons_of_mem c he)) y
          (fun e he => hy e (List.mem_cons_of_mem c he)) hrest
        exact ⟨rfl, hst⟩
  obtain ⟨rfl, hst⟩ := hxy
  exact ⟨rfl, hst⟩

theorem at?_text_append {known : List Tag} {tag : Tag} (hknown : tag ∈ known) (t : Text) :
    at? known (tag.text ++ t) = some (tag, t) := by
  have hself : Text.after? tag.text (tag.text ++ t) = some t := Text.after?_eq_some_iff.mpr rfl
  cases h : at? known (tag.text ++ t) with
  | none =>
    have hnone := List.findSome?_eq_none_iff.mp h tag hknown
    rw [hself] at hnone
    exact absurd hnone (by simp)
  | some found =>
    obtain ⟨other, rest⟩ := found
    obtain ⟨rfl, rfl⟩ := eq_of_text_append_eq (text_append_of_at? h)
    rfl

theorem at?_cons_of_ne (known : List Tag) {c : Char} (hc : c ≠ '<') (t : Text) :
    at? known (c :: t) = none := by
  cases h : at? known (c :: t) with
  | none => rfl
  | some found =>
    have happ := text_append_of_at? h
    exact absurd (List.cons_eq_cons.mp happ).1.symm hc

theorem length_lt_of_at? {known : List Tag} {t rest : Text} {tag : Tag}
    (h : at? known t = some (tag, rest)) : rest.length < t.length := by
  rw [← text_append_of_at? h, List.length_append, text, List.length_cons]
  omega

end Tag

/-- The tags that were found in a text, and the text without them. -/
structure Stripped where
  tags : List Tag
  rest : Text

/-- Deletes the known tags from a text, from left to right. -/
def strip (known : List Tag) : Text → Stripped
  | [] => ⟨[], []⟩
  | c :: r =>
    match h : Tag.at? known (c :: r) with
    | some (tag, rest) =>
      have := Tag.length_lt_of_at? h
      let s := strip known rest
      ⟨tag :: s.tags, s.rest⟩
    | none =>
      let s := strip known r
      ⟨s.tags, c :: s.rest⟩
termination_by t => t.length
decreasing_by
  · exact this
  · exact Nat.lt_succ_self _

theorem strip_of_at? {known : List Tag} {t rest : Text} {tag : Tag}
    (h : Tag.at? known t = some (tag, rest)) :
    strip known t = ⟨tag :: (strip known rest).tags, (strip known rest).rest⟩ := by
  cases t with
  | nil => exact absurd (Tag.text_append_of_at? h) (by simp [Tag.text])
  | cons c r =>
    rw [strip]
    split
    · rename_i other after hother
      rw [h] at hother
      obtain ⟨rfl, rfl⟩ := Prod.mk.inj (Option.some.inj hother)
      rfl
    · rename_i hnone
      exact absurd (h.symm.trans hnone) (by simp)

theorem strip_cons_of_ne (known : List Tag) {c : Char} (hc : c ≠ '<') (t : Text) :
    strip known (c :: t) = ⟨(strip known t).tags, c :: (strip known t).rest⟩ := by
  have hnone := Tag.at?_cons_of_ne known hc t
  rw [strip]
  split
  · rename_i hsome
    exact absurd (hnone.symm.trans hsome) (by simp)
  · rfl

/-- The text is these tags in order and, between them, text without brackets. -/
inductive Laid : List Tag → Text → Prop where
  | nil : Laid [] []
  | tag {tags : List Tag} {t : Text} (tag : Tag) (rest : Laid tags t) :
      Laid (tag :: tags) (tag.text ++ t)
  | char {tags : List Tag} {t : Text} {c : Char} (hc : c ≠ '<' ∧ c ≠ '>') (rest : Laid tags t) :
      Laid tags (c :: t)

namespace Laid

theorem append {a b : List Tag} {s t : Text} (hs : Laid a s) (ht : Laid b t) :
    Laid (a ++ b) (s ++ t) := by
  induction hs with
  | nil => exact ht
  | tag tag _ ih =>
    rw [List.append_assoc]
    exact .tag tag ih
  | char hc _ ih => exact .char hc ih

theorem ofFree {t : Text} (h : Text.BracketFree t) : Laid [] t := by
  induction t with
  | nil => exact .nil
  | cons c r ih =>
    exact .char (h c List.mem_cons_self) (ih fun d hd => h d (List.mem_cons_of_mem c hd))

theorem ofTag (tag : Tag) : Laid [tag] tag.text := by
  have h := Laid.tag tag .nil
  rwa [List.append_nil] at h

/-- A tag with text behind it. -/
theorem tagText {tags : List Tag} {between t : Text} (tag : Tag)
    (hbetween : Text.BracketFree between) (h : Laid tags t) :
    Laid (tag :: tags) (tag.text ++ (between ++ t)) :=
  .tag tag ((ofFree hbetween).append h)

/-- A tag that ends its line. -/
theorem tagLine {tags : List Tag} {t : Text} (tag : Tag) (h : Laid tags t) :
    Laid (tag :: tags) (tag.text ++ '\n' :: t) :=
  .tag tag (.char (by decide) h)

theorem flatMap {α : Type} {xs : List α} {f : α → List Tag} {g : α → Text}
    (h : ∀ x ∈ xs, Laid (f x) (g x)) : Laid (xs.flatMap f) (xs.flatMap g) := by
  induction xs with
  | nil => exact .nil
  | cons x rest ih =>
    rw [List.flatMap_cons, List.flatMap_cons]
    exact (h x List.mem_cons_self).append (ih fun y hy => h y (List.mem_cons_of_mem x hy))

/-- Deleting known tags from a text finds the tags it was laid out with and leaves no
bracket. -/
theorem strip {known tags : List Tag} {t : Text} (h : Laid tags t)
    (hknown : ∀ tag ∈ tags, tag ∈ known) :
    (Listing.strip known t).tags = tags ∧ Text.BracketFree (Listing.strip known t).rest := by
  induction h with
  | nil =>
    rw [Listing.strip]
    exact ⟨rfl, fun c hc => absurd hc List.not_mem_nil⟩
  | tag tag rest ih =>
    obtain ⟨htags, hfree⟩ := ih fun other hother => hknown other (List.mem_cons_of_mem tag hother)
    rw [strip_of_at? (Tag.at?_text_append (hknown tag List.mem_cons_self) _), htags]
    exact ⟨rfl, hfree⟩
  | char hc rest ih =>
    obtain ⟨htags, hfree⟩ := ih hknown
    rw [strip_cons_of_ne known hc.1]
    refine ⟨htags, fun d hd => ?_⟩
    rcases List.mem_cons.mp hd with rfl | hd
    · exact hc
    · exact hfree d hd

theorem occurrences_append_of_free (tag : Tag) {a : Text} (ha : ∀ c ∈ a, c ≠ '<') (t : Text) :
    Text.occurrences tag.text (a ++ t) = Text.occurrences tag.text t := by
  induction a with
  | nil => rfl
  | cons c r ih =>
    have hnone : Text.after? tag.text (c :: (r ++ t)) = none := by
      rw [Tag.text, Text.after?, if_neg (Ne.symm (ha c List.mem_cons_self))]
    rw [List.cons_append, Text.occurrences, hnone,
      ih fun d hd => ha d (List.mem_cons_of_mem c hd)]
    exact Nat.zero_add _

theorem occurrences_text_append (tag other : Tag) (t : Text) :
    Text.occurrences tag.text (other.text ++ t)
      = (if other = tag then 1 else 0) + Text.occurrences tag.text t := by
  have htail : ∀ c ∈ other.inner ++ ['>'], c ≠ '<' := by
    intro c hc
    rcases List.mem_append.mp hc with hc | hc
    · exact (other.closed c hc).1
    · rw [List.mem_singleton.mp hc]
      decide
  have hhead : (Text.after? tag.text (other.text ++ t)).isSome = true ↔ other = tag := by
    constructor
    · intro h
      obtain ⟨rest, hrest⟩ := Option.isSome_iff_exists.mp h
      exact (Tag.eq_of_text_append_eq (Text.after?_eq_some_iff.mp hrest)).1.symm
    · rintro rfl
      rw [Text.after?_eq_some_iff.mpr rfl]
      rfl
  have happ : other.text ++ t = '<' :: ((other.inner ++ ['>']) ++ t) := rfl
  rw [happ, Text.occurrences, occurrences_append_of_free tag htail, ← happ]
  simp only [hhead]

/-- A search for the text of a tag finds it as often as it was laid out. -/
theorem occurrences {tags : List Tag} {t : Text} (h : Laid tags t) (tag : Tag) :
    Text.occurrences tag.text t = tags.count tag := by
  induction h with
  | nil => rfl
  | tag other rest ih =>
    rw [occurrences_text_append, ih, List.count_cons, Nat.add_comm]
    simp only [beq_iff_eq]
  | char hc rest ih =>
    refine Eq.trans ?_ ih
    exact occurrences_append_of_free tag (fun d hd => List.mem_singleton.mp hd ▸ hc.1) _

end Laid
end Listing
