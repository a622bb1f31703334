/-
What is taken off a comment line.

A comment line is its prose with marks around it, and its body is what is left when the marks
are dropped and nothing else.  Which marks those are is said here without the steps that drop
them.  A line comment has in front of its prose the marker, more of the marker's characters
and an exclamation mark (`TailOff`).  A line of a block comment has the opener and stars in
front and the closer behind, where each of them may be missing and the stars of a border are
its prose (`StarsOff`, `BlockOff`).  White space around the marks and the prose goes with
them.

`TakenApart` puts this together: a line, what stands in front of its prose, the prose, and
what stands behind.  Marks are taken off as far as they go, and the closer is looked for in
what the opener leaves, so no character counts for two of them and a line is taken apart to
one prose only.  `eq_body_iff_takenApart` says that this prose is the body of the line.
-/
import Listing.Comment
import Listing.Grammar.Languages
import Listing.Proofs.Border
import Listing.Proofs.Highlight.Rules

namespace Listing

/-! ## The marker of a line -/

namespace Grammar

/-- `m` is the first line comment marker, in the order of the grammar, that `t` starts with. -/
structure FirstMarker (g : Grammar) (t : Text) (m : Marker) : Prop where
  starts : m.text <+: t
  first : ∃ earlier later, g.lineComments = earlier ++ m :: later ∧
    ∀ other ∈ earlier, ¬ other.text <+: t

variable {g : Grammar} {t : Text} {m : Marker}

theorem lineComment?_eq_some_iff : g.lineComment? t = some m ↔ g.FirstMarker t m := by
  rw [lineComment?, List.find?_eq_some_iff_append, Marker.isSome_after?_iff]
  have hnot : ∀ other : Marker, (!(other.after? t).isSome) = true ↔ ¬ other.text <+: t := by
    intro other
    rw [Bool.not_eq_true', ← Bool.not_eq_true, Marker.isSome_after?_iff]
  simp only [hnot]
  constructor
  · intro h
    exact ⟨h.1, h.2⟩
  · intro h
    exact ⟨h.starts, h.first⟩

theorem lineComment?_eq_none_iff : g.lineComment? t = none ↔ ¬ g.OpensLine t := by
  rw [← lineComment?_isSome_iff, Option.not_isSome_iff_eq_none]

end Grammar

namespace Comment

/-! ## A mark that may be missing -/

/-- A mark is taken off the start of `t` if it is there. -/
inductive OffStart (mark t : Text) : Text → Text → Prop
  | present {rest : Text} (ht : t = mark ++ rest) : OffStart mark t mark rest
  | missing (ht : ¬ mark <+: t) : OffStart mark t [] t

/-- A mark is taken off the end of `t` if it is there. -/
inductive OffEnd (mark t : Text) : Text → Text → Prop
  | present {rest : Text} (ht : t = rest ++ mark) : OffEnd mark t rest mark
  | missing (ht : ¬ mark <:+ t) : OffEnd mark t t []

section

variable {mark t off rest : Text}

theorem OffStart.append (h : OffStart mark t off rest) : off ++ rest = t := by
  cases h with
  | present ht => exact ht.symm
  | missing _ => rfl

theorem OffStart.rest_eq (h : OffStart mark t off rest) :
    rest = (Text.after? mark t).getD t := by
  cases h with
  | present ht => rw [Text.after?_eq_some_iff.mpr ht.symm, Option.getD_some]
  | missing ht => rw [Text.after?_eq_none_iff.mpr ht, Option.getD_none]

theorem exists_offStart (mark t : Text) : ∃ off rest, OffStart mark t off rest := by
  by_cases h : mark <+: t
  · obtain ⟨rest, ht⟩ := h
    exact ⟨mark, rest, .present ht.symm⟩
  · exact ⟨[], t, .missing h⟩

theorem OffEnd.append (h : OffEnd mark t rest off) : rest ++ off = t := by
  cases h with
  | present ht => exact ht.symm
  | missing _ => exact List.append_nil t

theorem OffEnd.rest_eq (h : OffEnd mark t rest off) :
    rest = (Text.before? mark t).getD t := by
  cases h with
  | present ht => rw [Text.before?_eq_some_iff.mpr ht.symm, Option.getD_some]
  | missing ht => rw [Text.before?_eq_none_iff.mpr ht, Option.getD_none]

theorem exists_offEnd (mark t : Text) : ∃ rest off, OffEnd mark t rest off := by
  by_cases h : mark <:+ t
  · obtain ⟨rest, ht⟩ := h
    exact ⟨rest, mark, .present ht.symm⟩
  · exact ⟨t, [], .missing h⟩

end

/-! ## Behind a line comment marker -/

/-- Behind the marker `m` the text `t` goes on with `off`: more of the marker's characters,
as many as there are, and then at most one exclamation mark. -/
inductive TailOff (m : Marker) (t : Text) : Text → Text → Prop
  | intro {repeats behind bang rest : Text} (ht : t = repeats ++ behind)
      (hrepeats : MaximalRun m.text.contains repeats behind)
      (hbang : OffStart ['!'] behind bang rest) : TailOff m t (repeats ++ bang) rest

theorem afterMarker_eq (m : Marker) (t : Text) :
    afterMarker m t =
      (Text.after? ['!'] (t.dropWhile m.text.contains)).getD (t.dropWhile m.text.contains) := by
  rw [afterMarker]
  cases t.dropWhile m.text.contains with
  | nil => rfl
  | cons c r =>
    by_cases hc : c = '!'
    · subst hc
      rfl
    · rw [Text.after?_eq_none_iff.mpr fun h => hc (List.cons_prefix_cons.mp h).1.symm,
        Option.getD_none]
      split
      · rename_i heq
        exact absurd (List.cons_eq_cons.mp heq).1 hc
      · rfl

section

variable {m : Marker} {t off rest : Text}

theorem TailOff.append (h : TailOff m t off rest) : off ++ rest = t := by
  cases h with
  | intro ht _ hbang => rw [List.append_assoc, hbang.append, ht]

theorem TailOff.rest_eq (h : TailOff m t off rest) : rest = afterMarker m t := by
  cases h with
  | intro ht hrepeats hbang =>
    rw [afterMarker_eq, ht, hrepeats.dropWhile]
    exact hbang.rest_eq

theorem exists_tailOff (m : Marker) (t : Text) : ∃ off rest, TailOff m t off rest := by
  have hrepeats := MaximalRun.takeWhile_dropWhile m.text.contains t
  obtain ⟨bang, rest, hbang⟩ := exists_offStart ['!'] (t.dropWhile m.text.contains)
  exact ⟨_, rest, .intro List.takeWhile_append_dropWhile.symm hrepeats hbang⟩

end

/-! ## Inside a block comment -/

/-- Stars in front of the prose are taken off with the white space before them.  If all
there is makes a border, it is the prose. -/
inductive StarsOff (t : Text) : Text → Text → Prop
  | border (hrun : Border.IsRun t) : StarsOff t [] t
  | stars {space stars rest : Text} (hrun : ¬ Border.IsRun t) (ht : t = space ++ (stars ++ rest))
      (hspace : MaximalRun Text.isBlank space (stars ++ rest))
      (hstars : MaximalRun (· == '*') stars rest) : StarsOff t (space ++ stars) rest

/-- The marks of a line inside a block comment: its opener and stars in front, and its closer
behind.  The closer is looked for in what the opener leaves. -/
inductive BlockOff (block : BlockComment) (t : Text) : Text → Text → Text → Prop
  | intro {opener opened inner closer stars rest : Text}
      (hopener : OffStart block.opener.text t opener opened)
      (hcloser : OffEnd block.closer.text opened inner closer)
      (hstars : StarsOff inner stars rest) : BlockOff block t (opener ++ stars) rest closer

section

variable {t off rest : Text}

theorem StarsOff.append (h : StarsOff t off rest) : off ++ rest = t := by
  cases h with
  | border _ => rfl
  | stars _ ht _ _ => rw [List.append_assoc, ht]

theorem StarsOff.rest_eq (h : StarsOff t off rest) :
    rest = if (Border.char? t).isSome then t else (Text.trimStart t).dropWhile (· == '*') := by
  cases h with
  | border hrun => rw [if_pos (Border.isSome_char?_iff.mpr hrun)]
  | stars hrun ht hspace hstars =>
    rw [if_neg (mt Border.isSome_char?_iff.mp hrun), Text.trimStart, ht, hspace.dropWhile,
      hstars.dropWhile]

theorem exists_starsOff (t : Text) : ∃ off rest, StarsOff t off rest := by
  by_cases hrun : Border.IsRun t
  · exact ⟨[], t, .border hrun⟩
  · have hspace := MaximalRun.takeWhile_dropWhile Text.isBlank t
    have hstars := MaximalRun.takeWhile_dropWhile (· == '*') (Text.trimStart t)
    have hstart : (Text.trimStart t).takeWhile (· == '*') ++
        (Text.trimStart t).dropWhile (· == '*') = Text.trimStart t :=
      List.takeWhile_append_dropWhile
    refine ⟨Text.indent t ++ _, _, .stars hrun ?_ ?_ hstars⟩
    · rw [hstart, Text.indent_append_trimStart]
    · rw [hstart]
      exact hspace

variable {block : BlockComment} {front back : Text}

theorem BlockOff.append (h : BlockOff block t front rest back) : front ++ rest ++ back = t := by
  cases h with
  | intro hopener hcloser hstars =>
    rw [List.append_assoc _ _ rest, hstars.append, List.append_assoc, hcloser.append,
      hopener.append]

theorem BlockOff.rest_eq (h : BlockOff block t front rest back) : rest = insideBlock block t := by
  cases h with
  | intro hopener hcloser hstars =>
    have hopened := hopener.rest_eq
    have hinner := hcloser.rest_eq
    have hrest := hstars.rest_eq
    rw [hinner, hopened] at hrest
    exact hrest

theorem exists_blockOff (block : BlockComment) (t : Text) :
    ∃ front rest back, BlockOff block t front rest back := by
  obtain ⟨opener, opened, hopener⟩ := exists_offStart block.opener.text t
  obtain ⟨inner, closer, hcloser⟩ := exists_offEnd block.closer.text opened
  obtain ⟨stars, rest, hstars⟩ := exists_starsOff inner
  exact ⟨_, rest, closer, .intro hopener hcloser hstars⟩

end

/-! ## The whole line -/

/-- A comment line `t` taken apart: its prose, what stands in front of the prose, and what
stands behind.  The marks are those of the line without the white space around it. -/
inductive TakenApart (g : Grammar) (t : Text) : Text → Text → Text → Prop
  /-- It starts with a line comment marker. -/
  | line {lead core trail behind tail rest space prose gap : Text} {m : Marker}
      (hcore : Text.Trims t lead core trail) (hmarker : g.FirstMarker core m)
      (hbehind : core = m.text ++ behind) (htail : TailOff m behind tail rest)
      (hprose : Text.Trims rest space prose gap) :
      TakenApart g t (lead ++ m.text ++ tail ++ space) prose (gap ++ trail)
  /-- It does not, and the language has block comments. -/
  | block {lead core trail front rest back space prose gap : Text} {block : BlockComment}
      (hcore : Text.Trims t lead core trail) (hline : ¬ g.OpensLine core)
      (hblock : g.blockComment = some block) (hoff : BlockOff block core front rest back)
      (hprose : Text.Trims rest space prose gap) :
      TakenApart g t (lead ++ front ++ space) prose (gap ++ back ++ trail)
  /-- It does not, and the language has none. -/
  | bare {lead prose trail : Text} (hprose : Text.Trims t lead prose trail)
      (hline : ¬ g.OpensLine prose) (hblock : g.blockComment = none) :
      TakenApart g t lead prose trail

section

variable {g : Grammar} {t before prose behind : Text}

theorem TakenApart.append (h : TakenApart g t before prose behind) :
    t = before ++ prose ++ behind := by
  cases h with
  | line hcore _ hbehind htail hprose =>
    rw [hcore.eq, hbehind, ← htail.append, hprose.eq]
    simp only [List.append_assoc]
  | block hcore _ _ hoff hprose =>
    rw [hcore.eq, ← hoff.append, hprose.eq]
    simp only [List.append_assoc]
  | bare hprose _ _ => exact hprose.eq

theorem TakenApart.exists_trims (h : TakenApart g t before prose behind) :
    ∃ rest space gap, Text.Trims rest space prose gap := by
  cases h with
  | line _ _ _ _ hprose => exact ⟨_, _, _, hprose⟩
  | block _ _ _ _ hprose => exact ⟨_, _, _, hprose⟩
  | bare hprose _ _ => exact ⟨_, _, _, hprose⟩

theorem TakenApart.eq_body (h : TakenApart g t before prose behind) : prose = body g t := by
  cases h with
  | line hcore hmarker hbehind htail hprose =>
    have hfirst := Grammar.lineComment?_eq_some_iff.mpr hmarker
    have hafter := Marker.after?_eq_some_iff.mpr hbehind.symm
    rw [body, ← hcore.eq_trim, hfirst]
    simp only [hafter, Option.getD_some]
    rw [hprose.eq_trim, htail.rest_eq]
  | block hcore hline hblock hoff hprose =>
    have hnone := Grammar.lineComment?_eq_none_iff.mpr hline
    rw [body, ← hcore.eq_trim, hnone, hblock]
    simp only
    rw [hprose.eq_trim, hoff.rest_eq]
  | bare hprose hline hblock =>
    have hnone := Grammar.lineComment?_eq_none_iff.mpr hline
    rw [body, ← hprose.eq_trim, hnone, hblock]

theorem exists_takenApart (g : Grammar) (t : Text) :
    ∃ before prose behind, TakenApart g t before prose behind := by
  obtain ⟨lead, trail, hcore⟩ := Text.exists_trims t
  cases hfirst : g.lineComment? (Text.trim t) with
  | some m =>
    have hmarker := Grammar.lineComment?_eq_some_iff.mp hfirst
    obtain ⟨behind, hbehind⟩ := hmarker.starts
    obtain ⟨tail, rest, htail⟩ := exists_tailOff m behind
    obtain ⟨space, gap, hprose⟩ := Text.exists_trims rest
    exact ⟨_, _, _, .line hcore hmarker hbehind.symm htail hprose⟩
  | none =>
    have hline := Grammar.lineComment?_eq_none_iff.mp hfirst
    cases hblock : g.blockComment with
    | some block =>
      obtain ⟨front, rest, back, hoff⟩ := exists_blockOff block (Text.trim t)
      obtain ⟨space, gap, hprose⟩ := Text.exists_trims rest
      exact ⟨_, _, _, .block hcore hline hblock hoff hprose⟩
    | none => exact ⟨lead, _, trail, .bare hcore hline hblock⟩

end

/-- A comment line can be taken apart, and to one prose only, which is its body.  In front of
the body and behind it there is nothing but marks and white space, and the body itself
neither starts nor ends with white space. -/
theorem eq_body_iff_takenApart (g : Grammar) (t prose : Text) :
    prose = body g t ↔
      ∃ before behind, t = before ++ prose ++ behind ∧
        (∀ c, prose.head? = some c → Text.isBlank c = false) ∧
        (∀ c, prose.getLast? = some c → Text.isBlank c = false) ∧
        TakenApart g t before prose behind := by
  constructor
  · intro h
    obtain ⟨before, other, behind, hapart⟩ := exists_takenApart g t
    obtain rfl : prose = other := h.trans hapart.eq_body.symm
    obtain ⟨_, _, _, hprose⟩ := hapart.exists_trims
    exact ⟨before, behind, hapart.append, hprose.start, hprose.stop, hapart⟩
  · intro h
    obtain ⟨_, _, _, _, _, hapart⟩ := h
    exact hapart.eq_body

/-- A closer needs a star of its own, a border keeps its stars, and of stars and exclamation
marks only the first go. -/
example :
    ["/*/", "/***/", "/*****/", "  * * x */", "///!! x"].map
        (fun t => body (.ofDefinition Languages.c) t.toList) =
      ["/", "", "***", "* x", "! x"].map String.toList := by
  decide

end Comment
end Listing
