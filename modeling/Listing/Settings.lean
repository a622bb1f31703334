/-
Settings: what a user has chosen once and for all.

A settings file has a setting on each line, as a key and a value around an equals
sign.  A value that cannot be used leaves its setting as it is, so every file has
settings to give.  Writing settings and reading them again gives them back.
-/
import Listing.Dict
import Listing.FileTree
import Listing.Page.Basic
import Listing.Style.Presets
import Listing.Text.Lowercase
import Listing.Text.Utf8

namespace Listing

/-- What a user has chosen. -/
structure Settings where
  /-- The style of pages that are given none. -/
  style : Text := Presets.defaultName
  /-- The width of pages, instead of the one of their style. -/
  maxWidth : Option Nat := none
  tabWidth : Nat := 4
  lineNumbers : Bool := false
  reflowComments : Bool := true
  /-- Files with more bytes than this are not highlighted. -/
  rawThreshold : Nat := 0x100000
  /-- The directory of preset files. -/
  presetsDirectory : Option Path := none
deriving DecidableEq

namespace Settings

/-- The settings of someone who has chosen nothing. -/
def standard : Settings := {}

def minTabWidth : Nat := 1
def maxTabWidth : Nat := 16
def minRawThreshold : Nat := 1024

/-! ## Reading -/

/-- The key in lower case and the value of a line, both without white space around
them.  A line that is empty, starts with a hash or has no equals sign gives none. -/
def entry? (line : Text) : Option (Text × Text) :=
  let line := Text.trim line
  if line.head? = some '#' then none
  else (Text.splitAt? '=' line).map fun (key, value) => (Text.canonical key, Text.trim value)

/-- The values of a file.  The last of several with one key counts. -/
def entries (t : Text) : Dict Text := Dict.ofList ((Text.lines t).filterMap entry?)

/-- A value that is not empty. -/
def filled? (value : Text) : Option Text := if value.isEmpty then none else some value

def word? (value : Text) : Option Nat := Text.natural? Text.maxWord value

/-- A word that does not say yes says no. -/
def isYes (value : Text) : Bool := (Text.boolean? value).getD false

/-- The settings that values stand for. -/
def ofEntries (values : Dict Text) : Settings :=
  let value? (key : String) : Option Text := values.get? key.toList
  { style := ((value? "style").bind filled?).getD standard.style
    maxWidth := ((value? "max-width").bind word?).map Profile.clampWidth
    tabWidth := (((value? "tab-width").bind word?).map fun n =>
      max minTabWidth (min n maxTabWidth)).getD standard.tabWidth
    lineNumbers := ((value? "line-numbers").map isYes).getD standard.lineNumbers
    reflowComments := ((value? "reflow-comments").map isYes).getD standard.reflowComments
    rawThreshold := (((value? "raw-threshold").bind word?).map
      (max minRawThreshold)).getD standard.rawThreshold
    presetsDirectory := ((value? "presets-dir").bind filled?).map Path.mk }

/-- The settings of a text. -/
def ofText (t : Text) : Settings := ofEntries (entries t)

/-! ## Writing -/

/-- A line of a settings file. -/
def entryLine (key : String) (value : Text) : Text :=
  key.toList ++ " = ".toList ++ value ++ ['\n']

/-- What a settings file starts with. -/
def header : Text := "# codeprint configuration\n# Generated automatically\n\n".toList

/-- The text of settings.  What has not been chosen and has no standard is left
out. -/
def toText (s : Settings) : Text :=
  header ++ entryLine "style" s.style ++ entryLine "tab-width" (Text.ofNat s.tabWidth)
    ++ entryLine "line-numbers" (Text.ofBool s.lineNumbers)
    ++ entryLine "reflow-comments" (Text.ofBool s.reflowComments)
    ++ entryLine "raw-threshold" (Text.ofNat s.rawThreshold)
    ++ (match s.maxWidth with
      | some n => entryLine "max-width" (Text.ofNat n)
      | none => [])
    ++ (match s.presetsDirectory with
      | some path => entryLine "presets-dir" path.text
      | none => [])

/-! ## Files -/

/-- Where the settings of a user are, who may have no home. -/
def file? (home : Option Path) : Option Path := home.map (·.join ".codeprint.conf".toList)

/-- Where the presets of a user are. -/
def presets? (s : Settings) (home : Option Path) : Option Path :=
  match s.presetsDirectory with
  | some path => some path
  | none => home.map (·.join ".codeprint-presets".toList)

/-- The settings of a file.  A file that cannot be read gives the standard ones. -/
def read (tree : FileTree) (path : Path) : Settings :=
  match tree.read path with
  | .error _ => standard
  | .ok bytes =>
    match Text.decode? bytes with
    | some t => ofText t
    | none => standard

/-- The settings of a user. -/
def load (tree : FileTree) (home : Option Path) : Settings :=
  match file? home with
  | some path => read tree path
  | none => standard

/-- Writes settings to a file. -/
def write (s : Settings) (tree : FileTree) (path : Path) : Except FileError FileTree :=
  tree.write path (Text.encode s.toText)

/-- Writes the settings of a user, who keeps none without a home. -/
def save (s : Settings) (tree : FileTree) (home : Option Path) : Except FileError FileTree :=
  match file? home with
  | some path => s.write tree path
  | none => .ok tree

/-- The options of a page that go by these settings. -/
def pageOptions (s : Settings) : PageOptions where
  tabWidth := s.tabWidth
  lineNumbers := s.lineNumbers
  reflowComments := s.reflowComments

end Settings
end Listing
