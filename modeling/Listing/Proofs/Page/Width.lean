/-
Output lines fit the page.

Three parts of the library make output lines: lines by themselves are wrapped,
borders are drawn again, and comment groups are set as prose.  `output_width_le`
bounds all of them by the width of the page and names the two kinds of line that
may be wider: white space by itself, which is never cut, and a border whose own
indentation leaves no room for the shortest run.
-/
import Listing.Proofs.Page.Segments
import Listing.Proofs.Prose.Lines

namespace Listing

/-- `shown` is the border `t` drawn on a page of `width` columns that its own
indentation leaves no room on. -/
structure Border.Overhangs (width : Nat) (t shown : Text) : Prop where
  isBorder : (Border.char? t).isSome = true
  sameChar : Border.char? shown = Border.char? t
  sameIndent : Text.indent shown = Text.indent t
  /-- The indentation is wider than the page less the shortest run. -/
  noRoom : width < Text.width (Text.indent t) + Border.minRun
  width_eq : Text.width shown = Text.width (Text.indent t) + Border.minRun

/-- A border that is drawn again fits the page or overhangs it. -/
theorem Border.fill?_width_le {t shown : Text} {width : Nat}
    (h : Border.fill? t width = some shown) :
    Text.width shown ≤ width ∨ Border.Overhangs width t shown := by
  obtain ⟨hborder, hindent, hchar, hwidth⟩ := Border.fill?_spec h
  by_cases hroom : Text.width (Text.indent t) + minRun ≤ width
  · exact .inl (by omega)
  · exact .inr ⟨hborder, hchar, hindent, by omega, by omega⟩

namespace Segment

/-- A line by itself that holds nothing but white space. -/
def IsBlankLine (s : Segment) : Prop :=
  ∃ source, s = .single source ∧ Text.allBlank source.text = true

/-- A line by itself that is no border is wrapped at the width of the page. -/
theorem width_le_of_mem_wrapped {lexer : Lexer} {width : Nat} {source : SourceLine} {line : Line}
    (hwidth : Wrap.charRoom ≤ width) (htext : source.line.text = source.text)
    (hblank : Text.allBlank source.text = false)
    (h : line ∈ Wrap.highlighted lexer source.line width) : line.width ≤ width := by
  have hmem : line.text ∈ Wrap.line source.line.text width := by
    rw [← Wrap.text_highlighted lexer]
    exact List.mem_map_of_mem h
  rw [htext] at hmem
  exact Wrap.width_le_of_mem_line hwidth hblank hmem

/-- The lines of a comment group fit the page, borders that overhang it apart. -/
theorem width_le_of_mem_reflow {g : Grammar} {width : Nat} {raws : List Text} {line : Line}
    (hwidth : Wrap.window ≤ width) (h : line ∈ Prose.reflow g width raws) :
    line.width ≤ width ∨ ∃ raw ∈ raws, Border.Overhangs width raw line.text := by
  have hindent := Prose.width_groupIndent_le raws hwidth
  obtain rfl | ⟨bodies, hline⟩ | ⟨raw, hraw, hborder⟩ := Prose.mem_reflow h
  · exact .inl (Nat.zero_le width)
  · exact .inl (Prose.width_le_of_mem_paragraphLines hindent hline)
  · rcases Prose.classify_border hindent hborder with hown | hinside
    · exact (Border.fill?_width_le hown).imp_right fun hover => ⟨raw, hraw, hover⟩
    · exact .inl (Nat.le_of_eq hinside)

/-- The output lines of a segment fit the page, with two exceptions. -/
theorem width_le_of_mem_output {lexer : Lexer} {width : Nat} {s : Segment} {line : Line}
    (hwidth : Wrap.window ≤ width) (htext : ∀ source ∈ s.lines, source.line.text = source.text)
    (h : line ∈ s.output lexer width) :
    line.width ≤ width ∨ s.IsBlankLine ∨
      ∃ source ∈ s.lines, Border.Overhangs width source.text line.text := by
  have hroom : Wrap.charRoom ≤ width := Nat.le_trans (by decide) hwidth
  cases s with
  | single source =>
    have hsource := htext source List.mem_cons_self
    rw [output] at h
    split at h
    · rename_i hkind
      have hborder := fill?_eq_borderLine_text hkind width
      rw [hsource] at hborder
      rw [List.mem_singleton.mp h]
      exact (Border.fill?_width_le hborder).imp_right
        fun hover => .inr ⟨source, List.mem_cons_self, hover⟩
    · by_cases hblank : Text.allBlank source.text = true
      · exact .inr (.inl ⟨source, rfl, hblank⟩)
      · exact .inl (width_le_of_mem_wrapped hroom hsource (Bool.eq_false_iff.mpr hblank) h)
  | group first rest =>
    refine (width_le_of_mem_reflow hwidth h).imp_right ?_
    rintro ⟨raw, hraw, hover⟩
    obtain ⟨source, hsource, rfl⟩ := List.mem_map.mp hraw
    exact .inr ⟨source, hsource, hover⟩

end Segment

namespace Page

/-- The output lines of a page are those of its segments, and each of them is at most
as wide as the page, unless it is all there is of a blank line outside a group, or
a border that overhangs the page. -/
theorem output_width_le (g : Grammar) (profile : Profile) (options : PageOptions) (source : Text)
    (hwidth : 40 ≤ profile.maxWidth) :
    (outputLines g profile.maxWidth options source).map NumberedLine.line =
      (Segment.split options.reflowComments
        (sourceLines { grammar := g } options.tabWidth source)).flatMap
          (Segment.output { grammar := g } profile.maxWidth) ∧
    ∀ s ∈ Segment.split options.reflowComments
        (sourceLines { grammar := g } options.tabWidth source),
      ∀ line ∈ s.output { grammar := g } profile.maxWidth,
        line.width ≤ profile.maxWidth ∨ s.IsBlankLine ∨
          ∃ t ∈ s.lines, Border.Overhangs profile.maxWidth t.text line.text := by
  refine ⟨map_line_numberedLines _ _ 1 _, fun s hs line hline => ?_⟩
  exact Segment.width_le_of_mem_output (Nat.le_trans (by decide) hwidth)
    (fun t ht => line_text_of_mem_split hs ht) hline

/-- A page of forty columns with a border that overhangs it, a blank line that is wider
than it and a line of code that has to be wrapped. -/
def narrowSource : Text :=
  List.replicate 45 ' ' ++ "====\n".toList ++ List.replicate 50 ' ' ++
    "\ncall(alpha, beta, gamma, delta, epsilon, zeta);".toList

theorem output_width_le_narrow :
    40 ≤ { Profile.standard with maxWidth := 40 }.maxWidth ∧
    (outputLines (Grammar.ofDefinition { id := [] }) 40 {} narrowSource).map
      (fun out => out.line.width) = [48, 50, 40, 6] ∧
    ∀ s ∈ Segment.split true
        (sourceLines { grammar := Grammar.ofDefinition { id := [] } } 4 narrowSource),
      ∀ line ∈ s.output { grammar := Grammar.ofDefinition { id := [] } } 40,
        line.width ≤ 40 ∨ s.IsBlankLine ∨
          ∃ t ∈ s.lines, Border.Overhangs 40 t.text line.text :=
  ⟨by decide, by decide +kernel,
    (output_width_le (Grammar.ofDefinition { id := [] })
      { Profile.standard with maxWidth := 40 } {} narrowSource (by decide)).2⟩

end Page
end Listing
