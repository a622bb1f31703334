/-
Lines of a page read back.

A reader of the page knows the tags that a line is made with and the five entities.  What
it gets from a line are the characters of the tokens, each in the class of its token, and
nothing else (`read_line`).  So the markup of a line holds its text and its classes, and no
text of a token can pass for a tag, for an entity or for another token: the reader would
get something else from it.

The reader goes from tag to tag.  An escaped text has none, and each of its characters is
read by itself, whatever follows it (`readFrom_escapeChar`).
-/
import Listing.Proofs.Page.Document

namespace Listing

/-- The characters of a text that is shown in a class, and none if it is not text of the
line. -/
def charactersIn : Option TokenClass → Text → List (Char × TokenClass)
  | some kind, t => t.map fun c => (c, kind)
  | none, _ => []

theorem charactersIn_cons (kind : Option TokenClass) (c : Char) (t : Text) :
    charactersIn kind (c :: t) = charactersIn kind [c] ++ charactersIn kind t := by
  cases kind <;> rfl

theorem map_fst_charactersIn (kind : TokenClass) (t : Text) :
    (charactersIn (some kind) t).map Prod.fst = t := by
  rw [charactersIn, List.map_map]
  exact List.map_id t

/-- The characters of a line, each in the class of its token. -/
def Line.characters (line : Line) : List (Char × TokenClass) :=
  line.spans.flatMap fun s => charactersIn (some s.kind) s.text

theorem Line.map_fst_characters (line : Line) : line.characters.map Prod.fst = line.text := by
  rw [characters, List.map_flatMap, text]
  exact List.flatMap_congr fun s _ => map_fst_charactersIn s.kind s.text

namespace Markup

/-! ## Entities -/

/-- The characters that are not written as they are. -/
def entities : List (Text × Char) :=
  [("&amp;".toList, '&'), ("&lt;".toList, '<'), ("&gt;".toList, '>'), ("&quot;".toList, '"'),
    ("&#39;".toList, '\'')]

/-- The character that `c :: r` is read to start with, and what is read after it. -/
def readChar (c : Char) (r : Text) : Char × Text :=
  (entities.findSome? fun e =>
    (Text.after? e.1 (c :: r)).map fun rest => (e.2, rest)).getD (c, r)

theorem readChar_of_ne {c : Char} (h : c ≠ '&') (r : Text) : readChar c r = (c, r) := by
  have hnone : (entities.findSome? fun e =>
      (Text.after? e.1 (c :: r)).map fun rest => (e.2, rest)) = none := by
    refine List.findSome?_eq_none_iff.mpr fun e he => Option.map_eq_none_iff.mpr ?_
    have hall : ∀ e ∈ entities, e.1.head? = some '&' := by decide
    obtain ⟨tail, htail⟩ := List.head?_eq_some_iff.mp (hall e he)
    rw [htail, Text.after?, if_neg (Ne.symm h)]
  rw [readChar, hnone]
  rfl

theorem length_readChar_le (c : Char) (r : Text) : (readChar c r).2.length ≤ r.length := by
  rw [readChar]
  cases h : entities.findSome? fun e =>
      (Text.after? e.1 (c :: r)).map fun rest => (e.2, rest) with
  | none => exact Nat.le_refl _
  | some found =>
    obtain ⟨e, he, hafter⟩ := List.exists_of_findSome?_eq_some h
    obtain ⟨rest, hrest, rfl⟩ := Option.map_eq_some_iff.mp hafter
    have hall : ∀ e ∈ entities, 0 < e.1.length := by decide
    have hpos := hall e he
    have hlength := congrArg List.length (Text.after?_eq_some_iff.mp hrest)
    rw [List.length_append, List.length_cons] at hlength
    show rest.length ≤ r.length
    omega

theorem exists_readChar_escapeChar (c : Char) (t : Text) :
    ∃ d r, escapeChar c ++ t = d :: r ∧ d ≠ '<' ∧ readChar d r = (c, t) := by
  unfold escapeChar
  by_cases hamp : c = '&'
  · subst hamp
    exact ⟨'&', "amp;".toList ++ t, rfl, by decide, rfl⟩
  by_cases hlt : c = '<'
  · subst hlt
    exact ⟨'&', "lt;".toList ++ t, rfl, by decide, rfl⟩
  by_cases hgt : c = '>'
  · subst hgt
    exact ⟨'&', "gt;".toList ++ t, rfl, by decide, rfl⟩
  by_cases hquot : c = '"'
  · subst hquot
    exact ⟨'&', "quot;".toList ++ t, rfl, by decide, rfl⟩
  by_cases happos : c = '\''
  · subst happos
    exact ⟨'&', "#39;".toList ++ t, rfl, by decide, rfl⟩
  rw [if_neg hamp, if_neg hlt, if_neg hgt, if_neg hquot, if_neg happos]
  exact ⟨c, t, rfl, hlt, readChar_of_ne hamp t⟩

theorem escape_eq_self {t : Text} (h : ∀ c ∈ t, escapeChar c = [c]) : escape t = t := by
  induction t with
  | nil => rfl
  | cons c r ih =>
    rw [escape, List.flatMap_cons, h c List.mem_cons_self, List.singleton_append]
    exact congrArg (c :: ·) (ih fun d hd => h d (List.mem_cons_of_mem c hd))

/-! ## The reader -/

/-- The class of the text behind a tag.  A line number is no text of its line. -/
def classBehind (tag : Tag) : Option TokenClass :=
  if tag = Template.numberStart then none
  else some ((TokenClass.styled.find? fun k => (Template.token k).head? == some tag).getD .plain)

/-- Reads a line of a page from a place where text is of class `kind`. -/
def readFrom (kind : Option TokenClass) : Text → List (Char × TokenClass)
  | [] => []
  | c :: r =>
    match h : Tag.at? Template.lineTags (c :: r) with
    | some (tag, rest) =>
      have := Tag.length_lt_of_at? h
      readFrom (classBehind tag) rest
    | none => charactersIn kind [(readChar c r).1] ++ readFrom kind (readChar c r).2
termination_by t => t.length
decreasing_by
  · exact this
  · exact Nat.lt_succ_of_le (length_readChar_le c r)

def read (t : Text) : List (Char × TokenClass) := readFrom (some .plain) t

theorem readFrom_tag {tag : Tag} (hknown : tag ∈ Template.lineTags) (kind : Option TokenClass)
    (t : Text) : readFrom kind (tag.text ++ t) = readFrom (classBehind tag) t := by
  have hat := Tag.at?_text_append hknown t
  show readFrom kind ('<' :: _) = _
  rw [readFrom]
  split
  · rename_i other rest hother
    obtain ⟨rfl, rfl⟩ := Prod.mk.inj (Option.some.inj (hother.symm.trans hat))
    rfl
  · rename_i hnone
    exact nomatch hnone.symm.trans hat

theorem readFrom_escapeChar (kind : Option TokenClass) (c : Char) (t : Text) :
    readFrom kind (escapeChar c ++ t) = charactersIn kind [c] ++ readFrom kind t := by
  obtain ⟨d, r, hcons, hd, hread⟩ := exists_readChar_escapeChar c t
  rw [hcons, readFrom]
  split
  · rename_i hsome
    exact nomatch hsome.symm.trans (Tag.at?_cons_of_ne Template.lineTags hd r)
  · rw [hread]

theorem readFrom_escape (kind : Option TokenClass) (s t : Text) :
    readFrom kind (escape s ++ t) = charactersIn kind s ++ readFrom kind t := by
  induction s with
  | nil => cases kind <;> rfl
  | cons c s ih =>
    rw [charactersIn_cons, List.append_assoc, ← ih, ← readFrom_escapeChar, escape,
      List.flatMap_cons, List.append_assoc]
    rfl

/-- A span is read in the class of its tag, and text behind it is plain again. -/
theorem readFrom_spanElement {styleClass : Text} {start : Tag}
    (hstart : openTag "span".toList styleClass = start.text)
    (hknown : start ∈ Template.lineTags) (kind : Option TokenClass) (s t : Text) :
    readFrom kind (spanElement styleClass (escape s) ++ t)
      = charactersIn (classBehind start) s ++ read t := by
  have hend : closeTag "span".toList = Template.spanEnd.text := rfl
  rw [spanElement, hstart, hend, List.append_assoc, List.append_assoc, readFrom_tag hknown,
    readFrom_escape, readFrom_tag (by decide)]
  rfl

theorem exists_tokenStart {kind : TokenClass} {styleClass : Text}
    (h : kind.styleClass? = some styleClass) :
    ∃ start ∈ Template.lineTags, openTag "span".toList styleClass = start.text ∧
      classBehind start = some kind := by
  have hstyled : kind ∈ TokenClass.styled := by
    cases kind with
    | plain => exact nomatch h
    | _ => decide
  have hall : ∀ k ∈ TokenClass.styled, ∃ start ∈ Template.lineTags,
      (k.styleClass?.map (openTag "span".toList)) = some start.text ∧
        classBehind start = some k := by decide
  obtain ⟨start, hknown, htag, hclass⟩ := hall kind hstyled
  rw [h] at htag
  exact ⟨start, hknown, Option.some.inj htag, hclass⟩

theorem read_token (s : Span) (t : Text) :
    read (token s ++ t) = charactersIn (some s.kind) s.text ++ read t := by
  rw [token]
  split
  · rename_i styleClass hstyle
    obtain ⟨start, hknown, hstart, hclass⟩ := exists_tokenStart hstyle
    rw [read, readFrom_spanElement hstart hknown, hclass]
  · rename_i hstyle
    have hkind : s.kind = .plain := by
      cases hk : s.kind with
      | plain => rfl
      | _ => rw [hk] at hstyle; exact nomatch hstyle
    rw [hkind]
    exact readFrom_escape (some .plain) s.text t

theorem read_tokens (source : Line) (t : Text) :
    read (source.spans.flatMap token ++ t) = source.characters ++ read t := by
  rw [Line.characters]
  induction source.spans with
  | nil => rfl
  | cons s rest ih =>
    rw [List.flatMap_cons, List.append_assoc, read_token, ih, List.flatMap_cons,
      List.append_assoc]

/-- A gutter shows blanks and digits only, so it is as good as escaped. -/
theorem escape_gutterText (g : Gutter) : escape g.text = g.text := by
  have hdigit : ∀ c : Char, c.isDigit = true → escapeChar c = [c] := by
    intro c hc
    have hne : ∀ d ∈ ['&', '<', '>', '"', '\''], c ≠ d := by
      rintro d hd rfl
      have hall : ['&', '<', '>', '"', '\''].all (fun d => !d.isDigit) = true := by decide
      have hnot := List.all_eq_true.mp hall _ hd
      rw [hc] at hnot
      exact Bool.false_ne_true hnot
    simp only [List.forall_mem_cons] at hne
    obtain ⟨hamp, hlt, hgt, hquot, happos, -⟩ := hne
    rw [escapeChar, if_neg hamp, if_neg hlt, if_neg hgt, if_neg hquot, if_neg happos]
  refine escape_eq_self fun c hc => ?_
  rw [Gutter.text, padStart] at hc
  rcases List.mem_append.mp hc with hc | hc
  · rw [List.eq_of_mem_replicate hc]
    rfl
  · cases hnumber : g.number with
    | none =>
      rw [hnumber] at hc
      exact absurd hc List.not_mem_nil
    | some n =>
      rw [hnumber] at hc
      exact hdigit c (Nat.isDigit_of_mem_toDigits (by decide) (by decide) hc)

theorem read_gutter (g : Option Gutter) (t : Text) : read (gutter g ++ t) = read t := by
  cases g with
  | none => rfl
  | some g =>
    have hread : read (spanElement "ln".toList (escape g.text) ++ t)
        = charactersIn (classBehind Template.numberStart) g.text ++ read t :=
      readFrom_spanElement rfl (by decide) (some .plain) g.text t
    rw [escape_gutterText] at hread
    exact hread

/-! ## Lines -/

/-- A reader of the page sees the characters of a line in their classes, whatever they are
and whatever stands in the gutter. -/
theorem read_line (source : Line) (g : Option Gutter) : read (line source g) = source.characters := by
  have hstart : openTag "div".toList (lineClass source.kind)
      = (Template.lineStart source.kind).text := by
    cases source.kind <;> rfl
  have hplain : classBehind (Template.lineStart source.kind) = some .plain := by
    cases source.kind <;> decide
  have hend : read (closeTag "div".toList) = [] := by
    show read (Template.divEnd.text ++ []) = []
    rw [read, readFrom_tag (by decide), readFrom]
  rw [line, hstart, List.append_assoc, List.append_assoc, read,
    readFrom_tag (Template.lineStart_mem_lineTags source.kind), hplain]
  show read (gutter g ++ (source.spans.flatMap token ++ closeTag "div".toList)) = _
  rw [read_gutter, read_tokens, hend, List.append_nil]

theorem read_escape (t : Text) : read (escape t) = charactersIn (some .plain) t := by
  have h := readFrom_escape (some .plain) t []
  rwa [List.append_nil, readFrom, List.append_nil] at h

/-- The HTML of a line holds the line: its characters and their classes can be read off it,
so two lines that are written alike, behind the same gutter, have the same text in the same
classes.  Escaping by itself loses nothing either, and leaves no bracket for a tag. -/
theorem line_holds_characters (g : Option Gutter) :
    (∀ a b : Line, line a g = line b g → a.text = b.text ∧ a.characters = b.characters) ∧
    (∀ source : Line, read (line source g) = source.characters) ∧
    Function.Injective escape ∧
    ∀ t, Text.BracketFree (escape t) ∧ read (escape t) = charactersIn (some .plain) t := by
  refine ⟨fun a b h => ?_, fun source => read_line source g, fun s t h => ?_,
    fun t => ⟨escape_bracketFree t, read_escape t⟩⟩
  · have hcharacters : a.characters = b.characters := by
      rw [← read_line a g, h, read_line b g]
    refine ⟨?_, hcharacters⟩
    rw [← a.map_fst_characters, hcharacters, b.map_fst_characters]
  · rw [← map_fst_charactersIn .plain s, ← read_escape, h, read_escape, map_fst_charactersIn]

/-- Text that spells an entity, in one piece and cut in two. -/
def spelledOut : Line := ⟨[⟨.plain, "&lt;b".toList⟩, ⟨.string, "</span>\"".toList⟩]⟩

def spelledApart : Line :=
  ⟨[⟨.plain, "&".toList⟩, ⟨.plain, "lt;b".toList⟩, ⟨.string, "</span>\"".toList⟩, ⟨.plain, []⟩]⟩

theorem line_holds_characters_spelled :
    spelledOut ≠ spelledApart ∧ line spelledOut none = line spelledApart none ∧
      spelledOut.text = spelledApart.text ∧ spelledOut.characters = spelledApart.characters := by
  have hline : line spelledOut none = line spelledApart none := by decide +kernel
  exact ⟨by decide, hline, (line_holds_characters none).1 spelledOut spelledApart hline⟩

end Markup
end Listing
