/-
Failures: everything that can keep a file or a style from being used.

Each cause is kept as it arose.  Its wording is in one place, so that nothing
depends on what a message says.
-/
import Listing.Base64
import Listing.FileTree
import Listing.Text.Quoted

namespace Listing

/-- Why a file holds no preset although it could be read. -/
inductive PresetFault where
  /-- The file has no name that a preset could take. -/
  | noName
  /-- The file holds a value other than a table. -/
  | noTable
deriving DecidableEq

/-- Why something could not be done. -/
inductive Failure where
  | file (error : FileError)
  /-- A text that is not JSON. -/
  | notJson
  /-- A text that is not TOML. -/
  | notToml
  | notBase64 (fault : Base64.Fault)
  | invalidPreset (path : Path) (fault : PresetFault)
  /-- A preset file whose extension names no format. -/
  | unknownFormat (path : Path)
  | unknownStyle (name : Text)
  /-- A style given in JSON that is not an object. -/
  | notObject
  | noPresetsDirectory
  | noInput
  /-- A name under which no preset can be saved. -/
  | invalidName (name : Text)
deriving DecidableEq

def PresetFault.message : PresetFault → Text
  | .noName => "file name is not a valid preset name".toList
  | .noTable => "expected a table of style fields".toList

/-- The wording of a failure. -/
def Failure.message : Failure → Text
  | .file error => "I/O error: ".toList ++ error.message
  | .notJson => "Invalid JSON".toList
  | .notToml => "Invalid TOML".toList
  | .notBase64 fault => "Invalid base64 style: ".toList ++ fault.message
  | .invalidPreset path fault =>
    "Invalid preset file ".toList ++ path.text ++ ": ".toList ++ fault.message
  | .unknownFormat path =>
    "Unsupported preset format: ".toList ++ path.text ++ " (expected .toml or .json)".toList
  | .unknownStyle name => "Unknown style: ".toList ++ name
  | .notObject => "style overrides must be a JSON object".toList
  | .noPresetsDirectory => "no presets directory (set HOME or presets-dir)".toList
  | .noInput => "no input file (see --help)".toList
  | .invalidName name => "invalid preset name: ".toList ++ Text.quote name

end Listing
