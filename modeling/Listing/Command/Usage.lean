/-
What the command line says about itself.
-/
import Listing.Command.Arguments

namespace Listing
namespace Command

def version : Text := "codeprint 0.1.0\n".toList

def usageLine : Text := "Usage: codeprint [OPTIONS] [FILE]\n".toList

/-- The name of a value, in a list of options. -/
def Parameter.valueName : Parameter → Text
  | .language => "ID".toList
  | .style => "SPEC".toList
  | .width => "COLUMNS".toList
  | .output => "PATH".toList
  | .saveStyle => "NAME".toList

/-- What an option is for. -/
def Switch.purpose : Switch → Text
  | .flag .lineNumbers => "Number output lines".toList
  | .flag .noReflow => "Keep comments as written instead of reflowing them".toList
  | .flag .listLanguages => "List known languages and exit".toList
  | .flag .listStyles => "List style presets and exit".toList
  | .flag .verbose => "Verbose logging".toList
  | .flag .help => "Print help".toList
  | .flag .version => "Print version".toList
  | .parameter .language =>
    "Language id (detected from the file extension if omitted)".toList
  | .parameter .style => "Style preset name, inline JSON, or base64-encoded JSON".toList
  | .parameter .width => "Page width in columns (40 to 200)".toList
  | .parameter .output => "Write HTML here instead of stdout".toList
  | .parameter .saveStyle => "Save the resolved style as a custom preset".toList

/-- An option with the name of its value. -/
def Switch.form (s : Switch) : Text :=
  "--".toList ++ s.long ++
    match s with
    | .flag _ => []
    | .parameter p => " <".toList ++ p.valueName ++ ['>']

/-- Columns from the start of a line of help to the purpose of an option. -/
def purposeColumn : Nat := 27

/-- A line of help. -/
def Switch.helpLine (s : Switch) : Text :=
  let start := (match s.short? with
    | some letter => "  -".toList ++ [letter] ++ ", ".toList
    | none => "      ".toList) ++ s.form
  start ++ List.replicate (purposeColumn - start.length) ' ' ++ s.purpose ++ ['\n']

def help : Text :=
  "Render source files as styled, reflowed HTML pages\n\n".toList ++ usageLine
    ++ "\nArguments:\n  [FILE]  Source file to render\n\nOptions:\n".toList
    ++ Switch.all.flatMap Switch.helpLine

/-- The wording of an error. -/
def UsageError.message : UsageError → Text
  | .unknownOption text => "unexpected argument '".toList ++ text ++ "' found".toList
  | .unexpectedArgument text => "unexpected argument '".toList ++ text ++ "' found".toList
  | .unexpectedValue s => "unexpected value for '".toList ++ s.form ++ "' found".toList
  | .missingValue s =>
    "a value is required for '".toList ++ s.form ++ "' but none was supplied".toList
  | .invalidValue s value =>
    "invalid value '".toList ++ value ++ "' for '".toList ++ s.form ++ ['\'']
  | .repeated s =>
    "the argument '".toList ++ s.form ++ "' cannot be used multiple times".toList
  | .emptyFile => "a value is required for '[FILE]' but none was supplied".toList

/-- What is printed on an error. -/
def UsageError.report (e : UsageError) : Text :=
  "error: ".toList ++ e.message ++ "\n\n".toList ++ usageLine
    ++ "\nFor more information, try '--help'.\n".toList

end Command
end Listing
