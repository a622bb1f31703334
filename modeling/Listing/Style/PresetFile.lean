/-
Preset files: presets in TOML or JSON, under the name of the file that holds them.
-/
import Listing.Failure
import Listing.Json.Reader
import Listing.Outline
import Listing.Style.Presets
import Listing.Text.Utf8
import Listing.Toml.Reader

namespace Listing

/-- The formats a preset can be written in. -/
inductive PresetFormat where
  | toml
  | json
deriving DecidableEq

namespace PresetFormat

/-- The format that the extension of a file stands for, in upper or lower case. -/
def ofPath? (path : Path) : Option PresetFormat :=
  path.extension?.bind fun ext =>
    let ext := Text.asciiLowercase ext
    if ext = "toml".toList then some .toml
    else if ext = "json".toList then some .json
    else none

/-- The value that a text in this format stands for. -/
def read : PresetFormat → Text → Except Failure Json
  | .toml, t =>
    match Toml.ofText? t with
    | some v => .ok v
    | none => .error .notToml
  | .json, t =>
    match Json.ofText? t with
    | some v => .ok v
    | none => .error .notJson

/-- An outline in this format. -/
def write : PresetFormat → Outline → Text
  | .toml, o => o.toToml
  | .json, o => o.toJson

end PresetFormat

/-- An entry for a setting that is asked for. -/
def Outline.entry {α : Type} (name : String) (scalar : α → Scalar) (setting : Option α) :
    List (Text × Scalar) :=
  match setting with
  | some a => [(name.toList, scalar a)]
  | none => []

/-- Overrides as they are written to a file.  A group that asks for nothing is left
out. -/
def Overrides.toOutline (o : Overrides) : Outline where
  entries := Outline.entry "preset" .text o.preset ++ Outline.entry "maxWidth" .number o.maxWidth
  groups :=
    [("colors".toList, o.colours.entries.map fun (key, colour) => (key, Scalar.text colour)),
      ("fontSizes".toList,
        Outline.entry "comment" .number o.fontSizes.comment
          ++ Outline.entry "code" .number o.fontSizes.code),
      ("fonts".toList,
        Outline.entry "comment" .text o.fonts.comment
          ++ Outline.entry "code" .text o.fonts.code),
      ("fontStyles".toList,
        Outline.entry "commentBold" .flag o.fontStyles.commentBold
          ++ Outline.entry "commentItalic" .flag o.fontStyles.commentItalic
          ++ Outline.entry "codeBold" .flag o.fontStyles.codeBold
          ++ Outline.entry "codeItalic" .flag o.fontStyles.codeItalic)].filter
      fun (_, entries) => !entries.isEmpty

namespace PresetFile

/-- The name that a file gives its preset. -/
def name? (path : Path) : Option Text :=
  (path.stem?.map Text.lowercase).filter (!·.isEmpty)

/-- The text of a file. -/
def readText (tree : FileTree) (path : Path) : Except Failure Text :=
  match tree.read path with
  | .error e => .error (.file e)
  | .ok bytes =>
    match Text.decode? bytes with
    | some t => .ok t
    | none => .error (.file .notUtf8)

/-- The value that a file holds, in the format of its extension. -/
def readValue (tree : FileTree) (path : Path) : Except Failure Json :=
  match PresetFormat.ofPath? path with
  | none => .error (.unknownFormat path)
  | some format =>
    match readText tree path with
    | .error e => .error e
    | .ok t => format.read t

/-- The name and the overrides of a preset file. -/
def read (tree : FileTree) (path : Path) : Except Failure (Text × Overrides) :=
  match name? path with
  | none => .error (.invalidPreset path .noName)
  | some name =>
    match readValue tree path with
    | .error e => .error e
    | .ok v =>
      if v.isObject then .ok (name, Overrides.ofJson v)
      else .error (.invalidPreset path .noTable)

/-- The preset files of a directory, in the order of their names. -/
def inDirectory (tree : FileTree) (directory : Path) : List Path :=
  ((tree.fileNames directory).map directory.join).filter fun path =>
    (PresetFormat.ofPath? path).isSome

/-- Writes overrides to a file in the format of its extension, and makes the
directory for it.  What was made of the directory stays when the file cannot be
written. -/
def write (tree : FileTree) (path : Path) (o : Overrides) : FileTree × Except Failure Unit :=
  match PresetFormat.ofPath? path with
  | none => (tree, .error (.unknownFormat path))
  | some format =>
    match tree.createDirectory path.parent with
    | (prepared, .error e) => (prepared, .error (.file e))
    | (prepared, .ok ()) =>
      match prepared.write path (Text.encode (format.write o.toOutline)) with
      | .error e => (prepared, .error (.file e))
      | .ok written => (written, .ok ())

end PresetFile

namespace Presets

/-- Stores the preset of a file, and gives the name that the file has for it. -/
def loadFile (presets : Presets) (tree : FileTree) (path : Path) :
    Except Failure (Text × Presets) :=
  match PresetFile.read tree path with
  | .error e => .error e
  | .ok (name, o) => .ok (name, presets.register name o)

/-- Stores the presets of files up to the first that fails. -/
def loadFiles (presets : Presets) (tree : FileTree) :
    List Path → Presets × Except Failure (List Text)
  | [] => (presets, .ok [])
  | path :: rest =>
    match presets.loadFile tree path with
    | .error e => (presets, .error e)
    | .ok (name, presets) =>
      let (presets, names) := loadFiles presets tree rest
      (presets, names.map (name :: ·))

/-- Stores the presets of a directory.  What is no directory holds none. -/
def loadDirectory (presets : Presets) (tree : FileTree) (directory : Path) :
    Presets × Except Failure (List Text) :=
  if tree.isDirectory directory then
    presets.loadFiles tree (PresetFile.inDirectory tree directory)
  else (presets, .ok [])

/-- Writes a preset to a file. -/
def saveFile (presets : Presets) (tree : FileTree) (name : Text) (path : Path) :
    FileTree × Except Failure Unit :=
  match presets.lookup name with
  | none => (tree, .error (.unknownStyle name))
  | some o => PresetFile.write tree path o

end Presets
end Listing
