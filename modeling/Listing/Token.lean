/-
Lexical classes and the names they go by.
-/
import Listing.Text.Lowercase

namespace Listing

/-- The lexical class of a stretch of source text. -/
inductive TokenClass where
  | comment
  | keyword
  | string
  | number
  /-- A name with an opening parenthesis right after it. -/
  | function
  /-- A name that starts with a capital. -/
  | typeName
  | identifier
  /-- Any other single character. -/
  | operator
  /-- White space, which carries no style. -/
  | plain
deriving DecidableEq

namespace TokenClass

/-- The classes that have a colour of their own, in the order of the style sheet. -/
def styled : List TokenClass :=
  [.comment, .keyword, .string, .number, .function, .typeName, .identifier, .operator]

/-- The name of a class in style overrides. -/
def name : TokenClass → Text
  | .comment => "comment".toList
  | .keyword => "keyword".toList
  | .string => "string".toList
  | .number => "number".toList
  | .function => "function".toList
  | .typeName => "type".toList
  | .identifier => "variable".toList
  | .operator => "operator".toList
  | .plain => "plain".toList

/-- The class of a name, written in capitals or not. -/
def ofName? (t : Text) : Option TokenClass :=
  (styled ++ [TokenClass.plain]).find? (·.name == Text.asciiLowercase t)

theorem ofName?_name (k : TokenClass) : ofName? k.name = some k := by
  cases k <;> decide

/-- The style sheet class of a token; plain text has none. -/
def styleClass? : TokenClass → Option Text
  | .plain => none
  | k => some ("tok-".toList ++ k.name)

end TokenClass
end Listing
