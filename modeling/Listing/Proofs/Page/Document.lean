/-
Documents hold no markup but that of their template.

User text reaches a document in four ways: as source text and as the title, which
are escaped, as line numbers, and as colours and fonts in the style sheet, which
are kept free of angle brackets only by the checks that a profile has passed.
`document_onlyTags` joins the four.  Of a page it gives the very sequence of
tags, which depends on the output lines through their kinds and the classes of
their tokens alone, so that no text can add a tag, not even one of the template.
-/
import Listing.Page.Basic
import Listing.Proofs.Markup.Tags
import Listing.Proofs.Style.Validity

namespace Listing

/-! ## The tags of the template -/

namespace Template

def titleEnd : Tag := .ofString "/title"

def styleEnd : Tag := .ofString "/style"

def spanEnd : Tag := .ofString "/span"

def divEnd : Tag := .ofString "/div"

/-- The tags before the first line. -/
def opening : List Tag :=
  [.ofString "!DOCTYPE html", .ofString "html", .ofString "head",
    .ofString "meta charset=\"utf-8\"", .ofString "title", titleEnd, .ofString "style", styleEnd,
    .ofString "/head", .ofString "body", .ofString "div class=\"code\""]

/-- The tags after the last line. -/
def closing : List Tag := [divEnd, .ofString "/body", .ofString "/html"]

/-- The tags around the text of a document that is not highlighted. -/
def raw : List Tag := [.ofString "pre class=\"raw\"", .ofString "/pre"]

/-- The tag that a line of a kind starts with. -/
def lineStart : LineKind → Tag
  | .code => .ofString "div class=\"line\""
  | .comment => .ofString "div class=\"line comment\""
  | .border => .ofString "div class=\"line decorative\""
  | .blank => .ofString "div class=\"line blank\""

def numberStart : Tag := .ofString "span class=\"ln\""

/-- The tags around a token. -/
def token : TokenClass → List Tag
  | .comment => [.ofString "span class=\"tok-comment\"", spanEnd]
  | .keyword => [.ofString "span class=\"tok-keyword\"", spanEnd]
  | .string => [.ofString "span class=\"tok-string\"", spanEnd]
  | .number => [.ofString "span class=\"tok-number\"", spanEnd]
  | .function => [.ofString "span class=\"tok-function\"", spanEnd]
  | .typeName => [.ofString "span class=\"tok-type\"", spanEnd]
  | .identifier => [.ofString "span class=\"tok-variable\"", spanEnd]
  | .operator => [.ofString "span class=\"tok-operator\"", spanEnd]
  | .plain => []

/-- The tags of a line, with a line number or without. -/
def line (source : Line) (numbered : Bool) : List Tag :=
  lineStart source.kind :: ((if numbered then [numberStart, spanEnd] else []) ++
    (source.spans.flatMap (fun s => token s.kind) ++ [divEnd]))

def lineTags : List Tag :=
  [LineKind.code, .comment, .border, .blank].map lineStart
    ++ [numberStart, spanEnd, divEnd] ++ TokenClass.styled.flatMap token

/-- Every tag of a page. -/
def pageTags : List Tag := opening ++ lineTags ++ closing

theorem lineStart_mem_lineTags (kind : LineKind) : lineStart kind ∈ lineTags := by
  have hkind : kind ∈ [LineKind.code, .comment, .border, .blank] := by
    cases kind <;> decide
  exact List.mem_append_left _ (List.mem_append_left _ (List.mem_map_of_mem hkind))

theorem mem_lineTags_of_mem_token {kind : TokenClass} {tag : Tag} (h : tag ∈ token kind) :
    tag ∈ lineTags := by
  by_cases hkind : kind ∈ TokenClass.styled
  · exact List.mem_append_right _ (List.mem_flatMap.mpr ⟨kind, hkind, h⟩)
  · cases kind with
    | plain => exact absurd h List.not_mem_nil
    | _ => exact absurd (by decide) hkind

theorem mem_lineTags_of_mem_line {source : Line} {numbered : Bool} {tag : Tag}
    (h : tag ∈ line source numbered) : tag ∈ lineTags := by
  have hends : ∀ other ∈ [numberStart, spanEnd, divEnd], other ∈ lineTags :=
    fun other hother => List.mem_append_left _ (List.mem_append_right _ hother)
  rcases List.mem_cons.mp h with rfl | h
  · exact lineStart_mem_lineTags source.kind
  rcases List.mem_append.mp h with h | h
  · cases numbered with
    | false => exact absurd h List.not_mem_nil
    | true => exact hends tag (List.mem_append_left [divEnd] h)
  rcases List.mem_append.mp h with h | h
  · obtain ⟨s, -, hs⟩ := List.mem_flatMap.mp h
    exact mem_lineTags_of_mem_token hs
  · exact hends tag (List.mem_append_right [numberStart, spanEnd] h)

end Template

/-! ## Text without brackets -/

namespace Markup

theorem escape_bracketFree (t : Text) : Text.BracketFree (escape t) := by
  refine Text.BracketFree.flatMap fun c _ => ?_
  unfold escapeChar
  split
  · decide
  split
  · decide
  split
  · decide
  split
  · decide
  split
  · decide
  · rename_i hlt hgt _ _
    intro d hd
    rw [List.mem_singleton.mp hd]
    exact ⟨hlt, hgt⟩

theorem ofNat_bracketFree (n : Nat) : Text.BracketFree (Text.ofNat n) := by
  have hdigit : ∀ c ∈ Text.ofNat n, c.isDigit = true :=
    fun c hc => Nat.isDigit_of_mem_toDigits (by decide) (by decide) hc
  exact .of_forall (by decide) (by decide) hdigit

theorem gutterText_bracketFree (g : Gutter) : Text.BracketFree g.text := by
  unfold Gutter.text padStart
  refine Text.BracketFree.append ?_ ?_
  · intro c hc
    rw [List.eq_of_mem_replicate hc]
    decide
  · cases g.number with
    | none => exact fun c hc => absurd hc List.not_mem_nil
    | some n => exact ofNat_bracketFree n

end Markup

namespace Valid

theorem bracketFree_of_isColour {t : Text} (h : isColour t = true) : Text.BracketFree t := by
  have hchar : ∀ c ∈ t, isColourChar c = true := fun c hc => isColourChar_of_isColour h hc
  exact .of_forall (by decide) (by decide) hchar

theorem IsFont.bracketFree {t : Text} (h : IsFont t) : Text.BracketFree t :=
  .of_forall (by decide) (by decide) h.safe

end Valid

namespace Stylesheet

theorem rule_bracketFree {selector : String} {declarations : List (String × Text)}
    (hselector : Text.BracketFree selector.toList)
    (h : ∀ d ∈ declarations, Text.BracketFree d.1.toList ∧ Text.BracketFree d.2) :
    Text.BracketFree (rule selector declarations) := by
  unfold rule
  refine ((hselector.append (by decide)).append (.flatMap fun d hd => ?_)).append (by decide)
  exact ((((h d hd).1.append (by decide)).append (h d hd).2).append (by decide))

theorem weight_bracketFree (bold : Bool) : Text.BracketFree (weight bold) := by
  cases bold <;> decide

theorem slant_bracketFree (italic : Bool) : Text.BracketFree (slant italic) := by
  cases italic <;> decide

theorem pixels_bracketFree (n : Nat) : Text.BracketFree (pixels n) :=
  (Markup.ofNat_bracketFree n).append (by decide)

theorem styleClass_bracketFree {kind : TokenClass} {name : Text}
    (h : kind.styleClass? = some name) : Text.BracketFree name := by
  cases kind with
  | plain => exact absurd h (by simp [TokenClass.styleClass?])
  | _ =>
    obtain rfl := Option.some.inj h
    decide

theorem tokenRule_bracketFree {p : Palette} (hp : ∀ slot, Valid.isColour (p.get slot) = true)
    (kind : TokenClass) : Text.BracketFree (tokenRule p kind) := by
  unfold tokenRule
  split
  · rename_i name hclass
    have hselector : Text.BracketFree (['.'] ++ name) :=
      .append (by decide) (styleClass_bracketFree hclass)
    refine rule_bracketFree (by rw [String.toList_ofList]; exact hselector) fun d hd => ?_
    rw [List.mem_singleton.mp hd]
    show Text.BracketFree "color".toList ∧ Text.BracketFree (p.get (Slot.ofClass kind))
    exact ⟨by decide, Valid.bracketFree_of_isColour (hp _)⟩
  · exact fun c hc => absurd hc List.not_mem_nil

theorem ofProfile_bracketFree {p : Profile} (h : p.IsValid) :
    Text.BracketFree (ofProfile p) := by
  have hcolour : ∀ slot, Text.BracketFree (p.colours.get slot) :=
    fun slot => Valid.bracketFree_of_isColour (h.colours slot)
  have hwidth : Text.BracketFree (Text.ofNat p.maxWidth ++ "ch".toList) :=
    (Markup.ofNat_bracketFree p.maxWidth).append (by decide)
  unfold ofProfile
  refine .append (.append (.append (.append (.append (.append ?_ ?_) ?_) ?_) ?_) ?_) ?_
  · refine rule_bracketFree (by decide) ?_
    simp only [List.forall_mem_cons]
    exact ⟨by decide, by decide, ⟨by decide, hcolour .background⟩,
      ⟨by decide, hcolour .foreground⟩, List.forall_mem_nil _⟩
  · refine rule_bracketFree (by decide) ?_
    simp only [List.forall_mem_cons]
    exact ⟨⟨by decide, h.codeFont.bracketFree⟩, ⟨by decide, pixels_bracketFree _⟩, by decide,
      ⟨by decide, weight_bracketFree _⟩, ⟨by decide, slant_bracketFree _⟩, ⟨by decide, hwidth⟩,
      List.forall_mem_nil _⟩
  · exact rule_bracketFree (by decide) (by decide)
  · exact rule_bracketFree (by decide) (by decide)
  · exact .flatMap fun kind _ => tokenRule_bracketFree h.colours kind
  · refine rule_bracketFree (by decide) ?_
    simp only [List.forall_mem_cons]
    exact ⟨⟨by decide, weight_bracketFree _⟩, ⟨by decide, slant_bracketFree _⟩,
      List.forall_mem_nil _⟩
  · refine rule_bracketFree (by decide) ?_
    simp only [List.forall_mem_cons]
    exact ⟨⟨by decide, h.commentFont.bracketFree⟩, ⟨by decide, pixels_bracketFree _⟩,
      List.forall_mem_nil _⟩

end Stylesheet

/-! ## Layouts -/

namespace Markup

theorem spanElement_laid {styleClass inner : Text} {start : Tag}
    (hstart : openTag "span".toList styleClass = start.text) (hinner : Text.BracketFree inner) :
    Laid [start, Template.spanEnd] (spanElement styleClass inner) := by
  rw [spanElement, hstart, List.append_assoc]
  exact .tagText start hinner (.ofTag Template.spanEnd)

theorem token_laid (s : Span) : Laid (Template.token s.kind) (token s) := by
  have hescape := escape_bracketFree s.text
  obtain ⟨kind, t⟩ := s
  cases kind with
  | plain => exact .ofFree hescape
  | _ => exact spanElement_laid rfl hescape

theorem gutter_laid (g : Option Gutter) :
    Laid (if g.isSome then [Template.numberStart, Template.spanEnd] else []) (gutter g) := by
  cases g with
  | none => exact .nil
  | some g => exact spanElement_laid rfl (gutterText_bracketFree g)

theorem line_laid (source : Line) (g : Option Gutter) :
    Laid (Template.line source g.isSome) (line source g) := by
  have hstart : openTag "div".toList (lineClass source.kind)
      = (Template.lineStart source.kind).text := by
    cases source.kind <;> rfl
  have htokens : Laid (source.spans.flatMap fun s => Template.token s.kind)
      (source.spans.flatMap token) := .flatMap fun s _ => token_laid s
  rw [line, hstart, List.append_assoc, List.append_assoc]
  exact .tag _ ((gutter_laid g).append (htokens.append (.ofTag Template.divEnd)))

end Markup

namespace Page

theorem documentStart_laid (title : Text) {stylesheet : Text}
    (hstylesheet : Text.BracketFree stylesheet) :
    Laid Template.opening (documentStart title stylesheet) := by
  -- The template falls into three parts, with the title and the style sheet between them.
  have hhead : Laid (Template.opening.take 5)
      "<!DOCTYPE html>\n<html>\n<head>\n<meta charset=\"utf-8\">\n<title>".toList :=
    .tagLine _ (.tagLine _ (.tagLine _ (.tagLine _ (.ofTag _))))
  have hstyle : Laid ((Template.opening.drop 5).take 2) "</title>\n<style>\n".toList :=
    .tagLine _ (.tagLine _ .nil)
  have hbody : Laid (Template.opening.drop 7)
      "</style>\n</head>\n<body>\n<div class=\"code\">\n".toList :=
    .tagLine _ (.tagLine _ (.tagLine _ (.tagLine _ .nil)))
  exact (((hhead.append (.ofFree (Markup.escape_bracketFree title))).append hstyle).append
    (.ofFree hstylesheet)).append hbody

theorem documentEnd_laid : Laid Template.closing documentEnd :=
  .tagLine _ (.tagLine _ (.tagLine _ .nil))

/-- The tags of a page: those of the template around those of its output lines. -/
def tags (options : PageOptions) (outputs : List NumberedLine) : List Tag :=
  Template.opening ++ outputs.flatMap (fun out => Template.line out.line options.lineNumbers)
    ++ Template.closing

/-- Lines that are laid out are laid out in their document. -/
theorem documentOf_laid {α : Type} (title : Text) {stylesheet : Text}
    (hstylesheet : Text.BracketFree stylesheet) {outputs : List α} {f : α → List Tag}
    {shown : α → Text} (h : ∀ out ∈ outputs, Laid (f out) (shown out)) :
    Laid (Template.opening ++ outputs.flatMap f ++ Template.closing)
      (documentOf title stylesheet (outputs.map shown)) := by
  rw [documentOf, List.flatMap_map]
  refine ((documentStart_laid title hstylesheet).append (.flatMap fun out hout => ?_)).append
    documentEnd_laid
  have hline := (h out hout).append (.ofFree (by decide : Text.BracketFree ['\n']))
  rwa [List.append_nil] at hline

theorem document_laid {profile : Profile} (hprofile : profile.IsValid) (g : Grammar)
    (options : PageOptions) (source : Text) :
    Laid (tags options (outputLines g profile.maxWidth options source))
      (render g profile options source).document := by
  refine documentOf_laid _ (Stylesheet.ofProfile_bracketFree hprofile) fun out _ => ?_
  cases options.lineNumbers with
  | true => exact Markup.line_laid out.line (some _)
  | false => exact Markup.line_laid out.line none

theorem renderPlain_laid (text title : Text) :
    Laid (Template.opening ++ Template.raw ++ Template.closing) (renderPlain text title) := by
  have hstylesheet : Text.BracketFree (Stylesheet.ofProfile Profile.standard
      ++ Stylesheet.rule "pre.raw"
        [("margin", "0".toList), ("white-space", "pre-wrap".toList)]) :=
    (Stylesheet.ofProfile_bracketFree Profile.isValid_standard).append
      (Stylesheet.rule_bracketFree (by decide) (by decide))
  have hstart := documentStart_laid title hstylesheet
  have htext : Laid [] (Markup.escape text) := .ofFree (Markup.escape_bracketFree text)
  have hopen : Laid (Template.raw.take 1) "<pre class=\"raw\">".toList := .ofTag _
  have hclose : Laid (Template.raw.drop 1) "</pre>\n".toList := .tagLine _ .nil
  have h := (((hstart.append hopen).append htext).append hclose).append documentEnd_laid
  rwa [List.append_nil, List.append_assoc Template.opening] at h

/-- The document has the tags `tags` and no other markup: deleting the known tags from
it finds these in this order and leaves no angle bracket, and the title and the
style sheet are ended once. -/
structure OnlyTags (known tags : List Tag) (document : Text) : Prop where
  found : (strip known document).tags = tags
  rest : Text.BracketFree (strip known document).rest
  styleEnd : Text.occurrences "</style>".toList document = 1
  titleEnd : Text.occurrences "</title>".toList document = 1

theorem onlyTags_of_laid {known middle : List Tag} {document : Text}
    (hlaid : Laid (Template.opening ++ middle ++ Template.closing) document)
    (hknown : ∀ tag ∈ Template.opening ++ middle ++ Template.closing, tag ∈ known)
    (hstyle : Template.styleEnd ∉ middle) (htitle : Template.titleEnd ∉ middle) :
    OnlyTags known (Template.opening ++ middle ++ Template.closing) document := by
  obtain ⟨hfound, hrest⟩ := hlaid.strip hknown
  refine ⟨hfound, hrest, ?_, ?_⟩
  · refine (hlaid.occurrences Template.styleEnd).trans ?_
    rw [List.count_append, List.count_append, List.count_eq_zero_of_not_mem hstyle]
    decide
  · refine (hlaid.occurrences Template.titleEnd).trans ?_
    rw [List.count_append, List.count_append, List.count_eq_zero_of_not_mem htitle]
    decide

/-- No user text adds markup to a document.  Whatever the source, the grammar, the
options with their title, and the text that names the style are, the page has the
tags of its template; and so has the document of text without highlighting. -/
theorem document_onlyTags (presets : Presets) (style : Text) (g : Grammar)
    (options : PageOptions) (source text title : Text) :
    OnlyTags Template.pageTags
      (tags options (outputLines g (presets.profile style).maxWidth options source))
      (render g (presets.profile style) options source).document ∧
    OnlyTags (Template.pageTags ++ Template.raw)
      (Template.opening ++ Template.raw ++ Template.closing) (renderPlain text title) := by
  constructor
  · have hlines : ∀ tag ∈ (outputLines g (presets.profile style).maxWidth options source).flatMap
        (fun out => Template.line out.line options.lineNumbers), tag ∈ Template.lineTags := by
      intro tag htag
      obtain ⟨out, -, hout⟩ := List.mem_flatMap.mp htag
      exact Template.mem_lineTags_of_mem_line hout
    refine onlyTags_of_laid (document_laid (presets.isValid_profile style) g options source)
      (fun tag htag => ?_) (fun h => absurd (hlines _ h) (by decide))
      (fun h => absurd (hlines _ h) (by decide))
    simp only [Template.pageTags, List.mem_append] at htag ⊢
    exact htag.imp_left fun h => h.imp_right (hlines tag)
  · refine onlyTags_of_laid (renderPlain_laid text title) (fun tag htag => ?_) (by decide)
      (by decide)
    simp only [Template.pageTags, List.mem_append] at htag ⊢
    rcases htag with (h | h) | h
    · exact .inl (.inl (.inl h))
    · exact .inr h
    · exact .inl (.inr h)

end Page
end Listing
