/-
Outlines: entries and groups of entries, and the two formats they are written in.

An outline is what a preset file holds.  Its groups are never empty, so nothing of
it is lost in a format that shows a group by its entries.
-/
import Listing.Number.Decimal
import Listing.Text.Quoted

namespace Listing

/-- The value of an entry. -/
inductive Scalar where
  | text (t : Text)
  | number (x : Binary64)
  | flag (b : Bool)
deriving DecidableEq

/-- Entries, and groups of entries after them. -/
structure Outline where
  entries : List (Text × Scalar)
  groups : List (Text × List (Text × Scalar))

namespace Outline

/-! ## As JSON -/

/-- A character inside a JSON string. -/
def jsonChar (c : Char) : Text :=
  if c = '"' then "\\\"".toList
  else if c = '\\' then "\\\\".toList
  else if c = '\x08' then "\\b".toList
  else if c = '\x0c' then "\\f".toList
  else if c = '\n' then "\\n".toList
  else if c = '\r' then "\\r".toList
  else if c = '\t' then "\\t".toList
  else if c < ' ' then "\\u00".toList ++ (if c.toNat < 16 then ['0'] else []) ++ Text.hex c.toNat
  else [c]

def jsonText (t : Text) : Text := '"' :: t.flatMap jsonChar ++ ['"']

/-- Numbers are written with a point between 10⁻⁵ and 10¹⁶ and with an exponent
outside, and of two equally near the one with an even last digit.  What is not
finite cannot be written. -/
def jsonNumber (x : Binary64) : Text :=
  match x.value with
  | .finite negative m e =>
    let d := Binary64.Decimal.shortest .toEven x negative m e
    let point := d.layout.2
    Binary64.signText negative ++
      (if -5 < point && point ≤ 16 then d.positional else d.scientific)
  | _ => "null".toList

def jsonScalar : Scalar → Text
  | .text t => jsonText t
  | .number x => jsonNumber x
  | .flag b => Text.ofBool b

/-- Fields between braces, each on a line of its own behind `indent`. -/
def jsonObject (indent : Text) (fields : List (Text × Text)) : Text :=
  if fields.isEmpty then "\x7b\x7d".toList
  else
    let inner := indent ++ "  ".toList
    let lines := fields.map fun (name, value) =>
      '\n' :: inner ++ jsonText name ++ ": ".toList ++ value
    "\x7b".toList ++ Text.join [','] lines ++ '\n' :: indent ++ "\x7d".toList

def jsonFields (entries : List (Text × Scalar)) : List (Text × Text) :=
  entries.map fun (name, v) => (name, jsonScalar v)

/-- The outline as a JSON document. -/
def toJson (o : Outline) : Text :=
  jsonObject []
      (jsonFields o.entries ++
        o.groups.map fun (name, entries) => (name, jsonObject "  ".toList (jsonFields entries)))
    ++ ['\n']

/-! ## As TOML -/

/-- A control character that is neither a tab nor a line feed. -/
def isControl (c : Char) : Bool :=
  (c.toNat < 0x20 && c != '\t' && c != '\n') || c.toNat == 0x7F

/-- The text holds three of a quote in a row. -/
def hasThree (quote : Char) : Text → Bool
  | [] => false
  | c :: r => ([quote, quote, quote].isPrefixOf (c :: r)) || hasThree quote r

/-- An escaped character of a TOML string; a line feed stays in a string over
several lines. -/
def tomlChar (long : Bool) (c : Char) : Text :=
  if c = '\t' then "\\t".toList
  else if c = '\n' then if long then [c] else "\\n".toList
  else if c = '\r' then "\\r".toList
  else if c = '\x08' then "\\b".toList
  else if c = '\x0c' then "\\f".toList
  else if c = '\\' then "\\\\".toList
  else if isControl c then
    "\\u00".toList ++ (if c.toNat < 16 then ['0'] else [])
      ++ (Text.hex c.toNat).map Char.toUpper
  else [c]

/-- The body of a string in double quotes on one line. -/
def basicBody (t : Text) : Text :=
  t.flatMap fun c => if c = '"' then "\\\"".toList else tomlChar false c

/-- The body of a string in double quotes over several lines, where `run` quotes
stand right before it.  Every third quote in a row is escaped. -/
def longBasicBody (run : Nat) : Text → Text
  | [] => []
  | c :: r =>
    if c = '"' then
      if run = 2 then "\\\"".toList ++ longBasicBody 0 r else c :: longBasicBody (run + 1) r
    else tomlChar true c ++ longBasicBody 0 r

/-- A string over several lines starts on a line of its own. -/
def longStart (t : Text) : Text := if t.contains '\n' then ['\n'] else []

/-- A text in the first form that holds it without escapes, or else escaped. -/
def tomlText (t : Text) : Text :=
  let control := t.any isControl
  let broken := t.contains '\n'
  let escaped := t.contains '\\'
  if !control && !broken && !escaped && !t.contains '"' then
    '"' :: basicBody t ++ ['"']
  else if !control && !broken && !t.contains '\'' then '\'' :: t ++ ['\'']
  else if !control && !escaped && !hasThree '"' t then
    "\"\"\"".toList ++ longStart t ++ longBasicBody 0 t ++ "\"\"\"".toList
  else if !control && !hasThree '\'' t then
    "'''".toList ++ longStart t ++ t ++ "'''".toList
  else if broken then "\"\"\"".toList ++ longStart t ++ longBasicBody 0 t ++ "\"\"\"".toList
  else '"' :: basicBody t ++ ['"']

def isBareKeyChar (c : Char) : Bool := c.isAlphanum || c == '_' || c == '-'

/-- A key, in quotes unless all its characters are plain. -/
def tomlKey (key : Text) : Text :=
  let control := key.any fun c => isControl c || c == '\n'
  if !key.isEmpty && key.all isBareKeyChar then key
  else if !control && !key.contains '\\' && !key.contains '"' then '"' :: basicBody key ++ ['"']
  else if !control && !key.contains '\'' then '\'' :: key ++ ['\'']
  else '"' :: basicBody key ++ ['"']

/-- Numbers are written without an exponent, and of two equally near the one further
from zero.  What is not a number has no sign. -/
def tomlNumber (x : Binary64) : Text :=
  match x.value with
  | .finite negative m e =>
    Binary64.signText negative ++ (Binary64.Decimal.shortest .away x negative m e).positional
  | .infinite negative => Binary64.signText negative ++ "inf".toList
  | .nan _ => "nan".toList

def tomlScalar : Scalar → Text
  | .text t => tomlText t
  | .number x => tomlNumber x
  | .flag b => Text.ofBool b

def tomlEntries (entries : List (Text × Scalar)) : Text :=
  entries.flatMap fun (key, v) => tomlKey key ++ " = ".toList ++ tomlScalar v ++ ['\n']

def tomlGroup (key : Text) (entries : List (Text × Scalar)) : Text :=
  '[' :: tomlKey key ++ "]\n".toList ++ tomlEntries entries

/-- The outline as a TOML document, with an empty line in front of each header. -/
def toToml (o : Outline) : Text :=
  let parts := o.groups.map fun (key, entries) => tomlGroup key entries
  Text.join ['\n'] (if o.entries.isEmpty then parts else tomlEntries o.entries :: parts)

end Outline
end Listing
