/-
Overrides: the settings of a profile that someone has asked for.

Overrides are read without complaint.  Each setting is taken by itself, and one
that is missing, of another type or not valid leaves the profile as it was.
-/
import Listing.Json.Basic
import Listing.Style.Valid

namespace Listing

/-- Weight and slant where they are asked for. -/
structure FontStyleOverrides where
  commentBold : Option Bool := none
  commentItalic : Option Bool := none
  codeBold : Option Bool := none
  codeItalic : Option Bool := none
deriving DecidableEq

/-- A partial profile. -/
structure Overrides where
  /-- The preset that these overrides are laid over. -/
  preset : Option Text := none
  maxWidth : Option Binary64 := none
  /-- Colours by key, in lower case. -/
  colours : Dict Text := Dict.empty
  fontSizes : Pair (Option Binary64) := ⟨none, none⟩
  fonts : Pair (Option Text) := ⟨none, none⟩
  fontStyles : FontStyleOverrides := {}

namespace Overrides

/-- Overrides that ask for nothing. -/
def empty : Overrides := {}

/-- Overrides that ask for a preset and nothing else. -/
def ofPreset (name : Text) : Overrides := { preset := some name }

/-- Asks for a colour under a key in any case. -/
def withColour (o : Overrides) (key colour : Text) : Overrides :=
  { o with colours := o.colours.insert (Text.asciiLowercase key) colour }

def noFontStyles (s : FontStyleOverrides) : Bool :=
  s.commentBold.isNone && s.commentItalic.isNone && s.codeBold.isNone && s.codeItalic.isNone

def isEmpty (o : Overrides) : Bool :=
  o.preset.isNone && o.maxWidth.isNone && o.colours.isEmpty
    && o.fontSizes.comment.isNone && o.fontSizes.code.isNone
    && o.fonts.comment.isNone && o.fonts.code.isNone
    && noFontStyles o.fontStyles

/-- The field under the first of several names that is there at all.  A field that
is there and cannot be used hides the names after it. -/
def field? (fields : List (Text × Json)) : List Text → Option Json
  | [] => none
  | name :: names =>
    match fields.lookup name with
    | some v => some v
    | none => field? fields names

/-- A number, or a text that holds one. -/
def number? : Json → Option Binary64
  | .text t => Binary64.ofText? (Text.trim t)
  | v => v.number?

/-- A truth value, or a word for one. -/
def flag? : Json → Option Bool
  | .bool b => some b
  | .text t => Text.boolean? t
  | _ => none

/-- The colours of an object; what is not a text is left out. -/
def readColours (fields : List (Text × Json)) : Dict Text :=
  Dict.ofList (fields.filterMap fun (key, v) =>
    v.text?.map fun colour => (Text.asciiLowercase key, colour))

/-- A name that is not blank, without white space around it. -/
def presetName? (v : Json) : Option Text :=
  (v.text?.map Text.trim).filter (!·.isEmpty)

/-- Takes what can be used of a value. -/
def ofJson (v : Json) : Overrides :=
  let fields := v.fields?.getD []
  let group (names : List Text) : List (Text × Json) :=
    ((field? fields names).bind Json.fields?).getD []
  let sizes := group ["fontSizes".toList, "font_sizes".toList]
  let fonts := group ["fonts".toList]
  let styles := group ["fontStyles".toList, "font_styles".toList]
  { preset := (field? fields ["preset".toList, "base".toList]).bind presetName?
    maxWidth :=
      (field? fields ["maxWidth".toList, "max_width".toList, "width".toList]).bind number?
    colours := readColours (group ["colors".toList, "colours".toList])
    fontSizes :=
      ⟨(field? sizes ["comment".toList]).bind number?,
        (field? sizes ["code".toList]).bind number?⟩
    fonts :=
      ⟨(field? fonts ["comment".toList]).bind Json.text?,
        (field? fonts ["code".toList]).bind Json.text?⟩
    fontStyles :=
      { commentBold := (field? styles ["commentBold".toList, "comment_bold".toList]).bind flag?
        commentItalic :=
          (field? styles ["commentItalic".toList, "comment_italic".toList]).bind flag?
        codeBold := (field? styles ["codeBold".toList, "code_bold".toList]).bind flag?
        codeItalic :=
          (field? styles ["codeItalic".toList, "code_italic".toList]).bind flag? } }

/-- Lays one colour over a palette if its key names a slot and it is a colour. -/
def applyColour (p : Palette) (key colour : Text) : Palette :=
  let colour := Text.trim colour
  if Valid.isColour colour then
    match Slot.ofKey? key with
    | some slot => p.set slot colour
    | none => p
  else p

/-- Lays the valid settings over a profile.  Colours are taken in the order of
their keys, so of several keys for one slot the last one counts. -/
def apply (o : Overrides) (p : Profile) : Profile where
  maxWidth := (o.maxWidth.bind Valid.width?).getD p.maxWidth
  colours := o.colours.entries.foldl (fun q e => applyColour q e.1 e.2) p.colours
  fontSizes :=
    ⟨(o.fontSizes.comment.bind Valid.fontSize?).getD p.fontSizes.comment,
      (o.fontSizes.code.bind Valid.fontSize?).getD p.fontSizes.code⟩
  fonts :=
    ⟨(o.fonts.comment.bind Valid.font?).getD p.fonts.comment,
      (o.fonts.code.bind Valid.font?).getD p.fonts.code⟩
  fontStyles :=
    { commentBold := o.fontStyles.commentBold.getD p.fontStyles.commentBold
      commentItalic := o.fontStyles.commentItalic.getD p.fontStyles.commentItalic
      codeBold := o.fontStyles.codeBold.getD p.fontStyles.codeBold
      codeItalic := o.fontStyles.codeItalic.getD p.fontStyles.codeItalic }

/-- Overrides that ask for every setting of a profile. -/
def ofProfile (p : Profile) : Overrides where
  maxWidth := some (Binary64.ofNat p.maxWidth)
  colours := Dict.ofList p.colours.entries
  fontSizes :=
    ⟨some (Binary64.ofNat p.fontSizes.comment), some (Binary64.ofNat p.fontSizes.code)⟩
  fonts := ⟨some p.fonts.comment, some p.fonts.code⟩
  fontStyles :=
    { commentBold := some p.fontStyles.commentBold
      commentItalic := some p.fontStyles.commentItalic
      codeBold := some p.fontStyles.codeBold
      codeItalic := some p.fontStyles.codeItalic }

end Overrides

namespace Profile

/-- Lays a preset over a profile, and overrides over both. -/
def merge (base : Profile) (preset : Option Overrides) (o : Overrides) : Profile :=
  o.apply (match preset with
    | some preset => preset.apply base
    | none => base)

/-- Lays overrides over the standard profile. -/
def resolve (o : Overrides) : Profile := merge standard none o

end Profile
end Listing
