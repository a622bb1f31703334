/-
Presets: overrides under a name.

Names are compared without regard to case or to white space around them.  A preset
never builds on another one: what it names as its own base is dropped when it is
stored, so one look-up settles what a name stands for.
-/
import Listing.Style.Overrides

namespace Listing

/-- Presets under their names in canonical form. -/
structure Presets where
  stored : Dict Overrides

namespace Presets

def empty : Presets := ⟨Dict.empty⟩

/-- Stores a preset, instead of the one that had its name. -/
def register (presets : Presets) (name : Text) (o : Overrides) : Presets :=
  ⟨presets.stored.insert (Text.canonical name) { o with preset := none }⟩

/-- The preset that a name stands for. -/
def lookup (presets : Presets) (name : Text) : Option Overrides :=
  presets.stored.get? (Text.canonical name)

def contains (presets : Presets) (name : Text) : Bool := (presets.lookup name).isSome

/-- The names in increasing order. -/
def names (presets : Presets) : List Text := presets.stored.keys

@[simp] theorem lookup_empty (name : Text) : empty.lookup name = none := rfl

/-- What was stored last is found, without the base it named. -/
theorem lookup_register_of_eq (presets : Presets) {name other : Text} (o : Overrides)
    (h : Text.canonical other = Text.canonical name) :
    (presets.register name o).lookup other = some { o with preset := none } := by
  rw [lookup, register, h, Dict.get?_insert_self]

/-- Storing under one name leaves the others alone. -/
theorem lookup_register_of_ne (presets : Presets) {name other : Text} (o : Overrides)
    (h : Text.canonical other ≠ Text.canonical name) :
    (presets.register name o).lookup other = presets.lookup other :=
  Dict.get?_insert_ne _ h _

/-- The profile of overrides, with the preset they name underneath.  A name that
stands for nothing is passed over. -/
def resolve (presets : Presets) (o : Overrides) : Profile :=
  Profile.merge Profile.standard (o.preset.bind presets.lookup) o

/-- The profile of a preset. -/
def resolveName? (presets : Presets) (name : Text) : Option Profile :=
  (presets.lookup name).map fun preset =>
    Profile.merge Profile.standard (some preset) Overrides.empty

/-! ## The presets known without set-up -/

def withPalette (p : Palette) : Overrides :=
  p.entries.foldl (fun o e => o.withColour e.1 e.2) Overrides.empty

def dark : Overrides :=
  withPalette
    { background := "#1e1e1e".toList
      foreground := "#d4d4d4".toList
      comment := "#6a9955".toList
      keyword := "#569cd6".toList
      string := "#ce9178".toList
      number := "#b5cea8".toList
      function := "#dcdcaa".toList
      typeName := "#4ec9b0".toList
      identifier := "#9cdcfe".toList
      operator := "#d4d4d4".toList }

def light : Overrides :=
  withPalette
    { background := "#fdf6e3".toList
      foreground := "#657b83".toList
      comment := "#93a1a1".toList
      keyword := "#859900".toList
      string := "#2aa198".toList
      number := "#d33682".toList
      function := "#268bd2".toList
      typeName := "#b58900".toList
      identifier := "#657b83".toList
      operator := "#586e75".toList }

/-- Black on white, for paper. -/
def print : Overrides :=
  let black := "#000000".toList
  { withPalette
      { background := "#ffffff".toList
        foreground := black
        comment := black
        keyword := black
        string := black
        number := black
        function := black
        typeName := black
        identifier := black
        operator := black } with
    fontStyles := { commentItalic := some true, codeBold := some false } }

def compact : Overrides where
  maxWidth := some (Binary64.ofNat 100)
  fontSizes := ⟨some (Binary64.ofNat 11), some (Binary64.ofNat 11)⟩

def large : Overrides where
  fontSizes := ⟨some (Binary64.ofNat 18), some (Binary64.ofNat 16)⟩

/-- The name of the preset that leaves the standard profile as it is. -/
def defaultName : Text := "default".toList

/-- The presets known without set-up. -/
def standard : Presets :=
  [(defaultName, Overrides.empty), ("dark".toList, dark), ("light".toList, light),
      ("print".toList, print), ("compact".toList, compact), ("large".toList, large)].foldl
    (fun presets e => presets.register e.1 e.2) empty

end Presets
end Listing
