/-
The command: from arguments, files and a home directory to a page.

What the command does is a function of these.  Its outcome says what is printed,
and what the files are afterwards.
-/
import Listing.Command.Usage
import Listing.Grammar.Table
import Listing.Settings
import Listing.Style.Spec

namespace Listing
namespace Command

/-- What a command leaves behind. -/
structure Outcome where
  exitCode : Nat
  /-- The text on standard output. -/
  output : Text
  /-- The text on standard error. -/
  messages : Text
  files : FileTree

/-- The profile with a width that was asked for. -/
def withWidth (profile : Profile) : Option Nat → Profile
  | some n => { profile with maxWidth := Profile.clampWidth n }
  | none => profile

/-! ## Saving a style -/

/-- A name that a file can have without leading anywhere else. -/
def isPresetName (name : Text) : Bool :=
  !name.isEmpty && name.all fun c => c != '/' && c != '\\' && c != '.'

/-- The file of a preset. -/
def presetPath (directory : Path) (name : Text) : Path :=
  directory.join (Text.lowercase name ++ ".toml".toList)

/-- The style to save under a name: the spec has to be usable as it stands. -/
def styleToSave (presets : Presets) (name spec : Text) (width : Option Nat) :
    Except Failure Profile :=
  if isPresetName name then
    match StyleSpec.resolveText presets spec with
    | .error e => .error e
    | .ok profile => .ok (withWidth profile width)
  else .error (.invalidName name)

/-- Saves a style as a preset, and gives a note of it. -/
def saveStyle (files : FileTree) (presets : Presets) (directory : Path) (name spec : Text)
    (width : Option Nat) : FileTree × Except Failure Text :=
  let name := Text.trim name
  match styleToSave presets name spec width with
  | .error e => (files, .error e)
  | .ok profile =>
    let path := presetPath directory name
    match PresetFile.write files path (Overrides.ofProfile profile) with
    | (files, .error e) => (files, .error e)
    | (files, .ok ()) =>
      (files, .ok ("Saved style ".toList ++ name ++ " to ".toList ++ path.text ++ ['\n']))

/-! ## Setting a page -/

/-- What a page is set with. -/
structure Setup where
  settings : Settings
  presets : Presets
  /-- The style as it was given. -/
  spec : Text
  width : Option Nat

/-- The language of a file: the one that was asked for, or the one its name tells. -/
def language (a : Arguments) (path : Path) : Text :=
  match a.language with
  | some id => id
  | none => (LanguageTable.standard.detect? path).getD "text".toList

def title (path : Path) : Text := path.fileName?.getD path.text

def pageOptions (settings : Settings) (a : Arguments) (path : Path) : PageOptions :=
  { settings.pageOptions with
    lineNumbers := settings.lineNumbers || a.lineNumbers
    reflowComments := settings.reflowComments && !a.noReflow
    title := some (title path) }

/-- The document of a file.  One that is too large is set without highlighting. -/
def document (setup : Setup) (a : Arguments) (path : Path) (bytes : ByteArray) : Text :=
  let source := Text.decodeLossy bytes.toList
  if setup.settings.rawThreshold < bytes.size then Page.renderPlain source (title path)
  else
    (Page.render (LanguageTable.standard.lookup (language a path))
      (withWidth (setup.presets.profile setup.spec) setup.width)
      (pageOptions setup.settings a path) source).document

/-- The document that is asked for. -/
def inputDocument (setup : Setup) (files : FileTree) (a : Arguments) : Except Failure Text :=
  match a.file with
  | none => .error .noInput
  | some path =>
    match files.read path with
    | .error e => .error (.file e)
    | .ok bytes => .ok (document setup a path bytes)

/-! ## Outcomes -/

def printed (files : FileTree) (output : Text) : Outcome := ⟨0, output, [], files⟩

/-- A failure, after a note of what was done before. -/
def failed (files : FileTree) (note : Text) (failure : Failure) : Outcome :=
  ⟨1, [], note ++ "Error: ".toList ++ failure.message ++ ['\n'], files⟩

/-- Sets the page and puts it where it was asked for. -/
def setPage (setup : Setup) (files : FileTree) (note : Text) (a : Arguments) : Outcome :=
  match inputDocument setup files a with
  | .error e => failed files note e
  | .ok document =>
    match a.output with
    | none => ⟨0, document, note, files⟩
    | some path =>
      match files.write path (Text.encode document) with
      | .error e => failed files note (.file e)
      | .ok files => ⟨0, [], note, files⟩

/-- The presets that a directory adds to the standard ones.  A file that fails ends
the loading and nothing else. -/
def loadPresets (files : FileTree) : Option Path → Presets
  | some directory => (Presets.standard.loadDirectory files directory).1
  | none => Presets.standard

def listText (items : List Text) : Text := items.flatMap (· ++ ['\n'])

/-- Carries out arguments. -/
def run (home : Option Path) (files : FileTree) (a : Arguments) : Outcome :=
  let settings := Settings.load files home
  let directory := settings.presets? home
  let presets := loadPresets files directory
  let setup : Setup :=
    { settings, presets
      spec := a.style.getD settings.style
      width := a.width.or settings.maxWidth }
  if a.listLanguages then printed files (listText LanguageTable.standard.ids)
  else if a.listStyles then printed files (listText presets.names)
  else
    match a.saveStyle with
    | none => setPage setup files [] a
    | some name =>
      match directory with
      | none => failed files [] .noPresetsDirectory
      | some directory =>
        match saveStyle files presets directory name setup.spec setup.width with
        | (files, .error e) => failed files [] e
        | (files, .ok note) =>
          if a.file.isNone then ⟨0, [], note, files⟩ else setPage setup files note a

/-- Carries out a command line. -/
def execute (home : Option Path) (files : FileTree) (texts : List Text) : Outcome :=
  match Arguments.read texts with
  | .ok a => run home files a
  | .error .help => printed files help
  | .error .version => printed files version
  | .error (.usage e) => ⟨2, [], e.report, files⟩

end Command
end Listing
