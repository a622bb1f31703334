/-
Style profiles: every setting that the look of a page depends on.

A profile is complete.  It is reached from the standard one by laying overrides
over it, and a setting is only replaced by a valid one.
-/
import Listing.Token

namespace Listing

/-- The things on a page that have a colour. -/
inductive Slot where
  | comment
  | keyword
  | string
  | number
  | function
  | typeName
  | identifier
  | operator
  | background
  /-- Text of no class. -/
  | foreground
deriving DecidableEq

namespace Slot

def all : List Slot :=
  [.comment, .keyword, .string, .number, .function, .typeName, .identifier, .operator,
    .background, .foreground]

/-- The slot that a token takes its colour from. -/
def ofClass : TokenClass → Slot
  | .comment => .comment
  | .keyword => .keyword
  | .string => .string
  | .number => .number
  | .function => .function
  | .typeName => .typeName
  | .identifier => .identifier
  | .operator => .operator
  | .plain => .foreground

/-- The name a slot goes by in overrides. -/
def name : Slot → Text
  | .comment => TokenClass.comment.name
  | .keyword => TokenClass.keyword.name
  | .string => TokenClass.string.name
  | .number => TokenClass.number.name
  | .function => TokenClass.function.name
  | .typeName => TokenClass.typeName.name
  | .identifier => TokenClass.identifier.name
  | .operator => TokenClass.operator.name
  | .background => "background".toList
  | .foreground => "foreground".toList

/-- The slot of a key.  The foreground has three of them. -/
def ofKey? (key : Text) : Option Slot :=
  if key = "background".toList then some .background
  else if key = "foreground".toList || key = "text".toList then some .foreground
  else (TokenClass.ofName? key).map ofClass

theorem ofKey?_name (slot : Slot) : ofKey? slot.name = some slot := by
  cases slot <;> decide

end Slot

/-- A colour for each slot. -/
structure Palette where
  comment : Text
  keyword : Text
  string : Text
  number : Text
  function : Text
  typeName : Text
  identifier : Text
  operator : Text
  background : Text
  foreground : Text
deriving DecidableEq

namespace Palette

def get (p : Palette) : Slot → Text
  | .comment => p.comment
  | .keyword => p.keyword
  | .string => p.string
  | .number => p.number
  | .function => p.function
  | .typeName => p.typeName
  | .identifier => p.identifier
  | .operator => p.operator
  | .background => p.background
  | .foreground => p.foreground

def set (p : Palette) (slot : Slot) (colour : Text) : Palette :=
  match slot with
  | .comment => { p with comment := colour }
  | .keyword => { p with keyword := colour }
  | .string => { p with string := colour }
  | .number => { p with number := colour }
  | .function => { p with function := colour }
  | .typeName => { p with typeName := colour }
  | .identifier => { p with identifier := colour }
  | .operator => { p with operator := colour }
  | .background => { p with background := colour }
  | .foreground => { p with foreground := colour }

@[simp] theorem get_set_self (p : Palette) (slot : Slot) (colour : Text) :
    (p.set slot colour).get slot = colour := by
  cases slot <;> rfl

theorem get_set_ne (p : Palette) {slot other : Slot} (h : other ≠ slot) (colour : Text) :
    (p.set slot colour).get other = p.get other := by
  cases slot <;> cases other
  all_goals try exact absurd rfl h
  all_goals rfl

/-- Palettes are equal when all their colours are. -/
theorem ext_get {p q : Palette} (h : ∀ slot, p.get slot = q.get slot) : p = q := by
  cases p
  cases q
  rw [Palette.mk.injEq]
  exact ⟨h .comment, h .keyword, h .string, h .number, h .function, h .typeName, h .identifier,
    h .operator, h .background, h .foreground⟩

/-- The names of the slots with their colours. -/
def entries (p : Palette) : List (Text × Text) := Slot.all.map fun slot => (slot.name, p.get slot)

end Palette

/-- One setting for comments and one for code. -/
structure Pair (α : Type) where
  comment : α
  code : α
deriving DecidableEq

/-- Weight and slant. -/
structure FontStyles where
  commentBold : Bool
  commentItalic : Bool
  codeBold : Bool
  codeItalic : Bool
deriving DecidableEq

/-- Everything that the look of a page depends on. -/
structure Profile where
  /-- Columns of a page. -/
  maxWidth : Nat
  colours : Palette
  /-- Font sizes in pixels. -/
  fontSizes : Pair Nat
  /-- Lists of font families. -/
  fonts : Pair Text
  fontStyles : FontStyles
deriving DecidableEq

namespace Profile

def minWidth : Nat := 40
def maxWidthLimit : Nat := 200
def minFontSize : Nat := 6
def maxFontSize : Nat := 72

/-- The nearest width that a page may have. -/
def clampWidth (n : Nat) : Nat := max minWidth (min n maxWidthLimit)

/-- The profile with nothing laid over it. -/
def standard : Profile where
  maxWidth := 80
  colours :=
    { comment := "#6a737d".toList
      keyword := "#d73a49".toList
      string := "#032f62".toList
      number := "#005cc5".toList
      function := "#6f42c1".toList
      typeName := "#e36209".toList
      identifier := "#24292e".toList
      operator := "#24292e".toList
      background := "#ffffff".toList
      foreground := "#24292e".toList }
  fontSizes := ⟨13, 13⟩
  fonts :=
    { comment := "Georgia, 'Times New Roman', serif".toList
      code := "Menlo, Consolas, 'DejaVu Sans Mono', monospace".toList }
  fontStyles :=
    { commentBold := false
      commentItalic := true
      codeBold := false
      codeItalic := false }

end Profile
end Listing
