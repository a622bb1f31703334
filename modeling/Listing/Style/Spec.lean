/-
Style specs: a style given by the name of a preset, in JSON, or in JSON under base64.
-/
import Listing.Style.PresetFile

namespace Listing

/-- A style that was given. -/
inductive StyleSpec where
  | preset (name : Text)
  /-- Overrides, which may name a preset to lie over. -/
  | inline (o : Overrides)

namespace StyleSpec

/-- Shorter texts are never taken for base64. -/
def minBase64Length : Nat := 17

def isBase64Char (c : Char) : Bool := c.isAlphanum || c == '+' || c == '/' || c == '='

def looksLikeBase64 (t : Text) : Bool :=
  minBase64Length ≤ Text.byteLength t && t.all isBase64Char

/-- The text without the padding it ends with. -/
def withoutPadding (t : Text) : Text := (t.reverse.dropWhile (· == '=')).reverse

def ofJsonText (t : Text) : Except Failure StyleSpec :=
  match Json.ofText? t with
  | none => .error .notJson
  | some v => if v.isObject then .ok (.inline (Overrides.ofJson v)) else .error .notObject

/-- Bytes that are not UTF-8 are not JSON either. -/
def ofJsonBytes (bytes : List UInt8) : Except Failure StyleSpec :=
  match Text.decode? bytes.toByteArray with
  | none => .error .notJson
  | some t => ofJsonText t

def ofBase64 (t : Text) : Except Failure StyleSpec :=
  match Base64.decode (withoutPadding t) with
  | .error fault => .error (.notBase64 fault)
  | .ok bytes => ofJsonBytes bytes

/-- Reads a spec.  A text that could be base64 is the name of a preset if there is
one of that name, and nothing at all is the default preset. -/
def parse (presets : Presets) (t : Text) : Except Failure StyleSpec :=
  let t := Text.trim t
  match t with
  | [] => .ok (.preset Presets.defaultName)
  | '{' :: _ => ofJsonText t
  | _ =>
    if presets.contains t then .ok (.preset (Text.lowercase t))
    else if looksLikeBase64 t then ofBase64 t
    else .error (.unknownStyle t)

/-- The overrides that a spec stands for. -/
def overrides : StyleSpec → Overrides
  | .preset name => Overrides.ofPreset name
  | .inline o => o

/-- The profile of a spec.  A preset that it names has to be there. -/
def resolve (presets : Presets) : StyleSpec → Except Failure Profile
  | .preset name =>
    match presets.resolveName? name with
    | some profile => .ok profile
    | none => .error (.unknownStyle name)
  | .inline o =>
    match o.preset with
    | none => .ok (presets.resolve o)
    | some name =>
      if presets.contains name then .ok (presets.resolve o) else .error (.unknownStyle name)

/-- The profile of a text, if that is a spec and all it names is there. -/
def resolveText (presets : Presets) (t : Text) : Except Failure Profile :=
  match parse presets t with
  | .error e => .error e
  | .ok spec => spec.resolve presets

end StyleSpec

/-- The profile of any text.  One that is no style stands for the standard profile. -/
def Presets.profile (presets : Presets) (t : Text) : Profile :=
  match StyleSpec.resolveText presets t with
  | .ok profile => profile
  | .error _ => Profile.standard

end Listing
