/-
The arguments of the command line.

Arguments are read one after another, and the first that is wrong settles the
matter, as does the first that asks for help or for the version.
-/
import Listing.Path

namespace Listing
namespace Command

/-- Options without a value. -/
inductive Flag where
  | lineNumbers
  | noReflow
  | listLanguages
  | listStyles
  | verbose
  | help
  | version
deriving DecidableEq

/-- Options with a value. -/
inductive Parameter where
  | language
  | style
  | width
  | output
  | saveStyle
deriving DecidableEq

/-- An option. -/
inductive Switch where
  | flag (f : Flag)
  | parameter (p : Parameter)
deriving DecidableEq

namespace Switch

/-- The name behind two dashes. -/
def long : Switch → Text
  | .flag .lineNumbers => "line-numbers".toList
  | .flag .noReflow => "no-reflow".toList
  | .flag .listLanguages => "list-languages".toList
  | .flag .listStyles => "list-styles".toList
  | .flag .verbose => "verbose".toList
  | .flag .help => "help".toList
  | .flag .version => "version".toList
  | .parameter .language => "lang".toList
  | .parameter .style => "style".toList
  | .parameter .width => "width".toList
  | .parameter .output => "output".toList
  | .parameter .saveStyle => "save-style".toList

/-- The letter behind one dash. -/
def short? : Switch → Option Char
  | .flag .verbose => some 'v'
  | .flag .help => some 'h'
  | .flag .version => some 'V'
  | .parameter .language => some 'l'
  | .parameter .style => some 's'
  | .parameter .width => some 'w'
  | .parameter .output => some 'o'
  | _ => none

def all : List Switch :=
  [.parameter .language, .parameter .style, .parameter .width, .parameter .output,
    .flag .lineNumbers, .flag .noReflow, .parameter .saveStyle, .flag .listLanguages,
    .flag .listStyles, .flag .verbose, .flag .help, .flag .version]

def ofLong? (name : Text) : Option Switch := all.find? fun s => s.long = name

def ofShort? (letter : Char) : Option Switch := all.find? fun s => s.short? = some letter

/-- No two options share a name. -/
theorem ofLong?_long (s : Switch) : ofLong? s.long = some s := by
  cases s with
  | flag f => cases f <;> decide
  | parameter p => cases p <;> decide

end Switch

/-- What is wrong with a command line. -/
inductive UsageError where
  | unknownOption (text : Text)
  | unexpectedArgument (text : Text)
  /-- A value for an option that takes none. -/
  | unexpectedValue (option : Switch)
  | missingValue (option : Switch)
  | invalidValue (option : Switch) (value : Text)
  | repeated (option : Switch)
  /-- A file with an empty name. -/
  | emptyFile
deriving DecidableEq

/-- Why a command line is not carried out. -/
inductive Stop where
  | usage (error : UsageError)
  | help
  | version
deriving DecidableEq

/-- What a command line asks for. -/
structure Arguments where
  /-- The source file. -/
  file : Option Path := none
  language : Option Text := none
  style : Option Text := none
  width : Option Nat := none
  output : Option Path := none
  /-- The name to save the style under. -/
  saveStyle : Option Text := none
  lineNumbers : Bool := false
  noReflow : Bool := false
  listLanguages : Bool := false
  listStyles : Bool := false
  verbose : Bool := false
deriving DecidableEq

namespace Arguments

/-- Sets a flag that is not set yet. -/
def raise (a : Arguments) (f : Flag) : Except Stop Arguments :=
  let once (seen : Bool) (next : Arguments) : Except Stop Arguments :=
    if seen then .error (.usage (.repeated (.flag f))) else .ok next
  match f with
  | .lineNumbers => once a.lineNumbers { a with lineNumbers := true }
  | .noReflow => once a.noReflow { a with noReflow := true }
  | .listLanguages => once a.listLanguages { a with listLanguages := true }
  | .listStyles => once a.listStyles { a with listStyles := true }
  | .verbose => once a.verbose { a with verbose := true }
  | .help => .error .help
  | .version => .error .version

/-- Gives a parameter a value, which it may not have yet. -/
def assign (a : Arguments) (p : Parameter) (value : Text) : Except Stop Arguments :=
  let once (seen : Bool) (next : Option Arguments) : Except Stop Arguments :=
    match next with
    | none => .error (.usage (.invalidValue (.parameter p) value))
    | some next => if seen then .error (.usage (.repeated (.parameter p))) else .ok next
  match p with
  | .language => once a.language.isSome (some { a with language := some value })
  | .style => once a.style.isSome (some { a with style := some value })
  | .width =>
    once a.width.isSome
      ((Text.natural? Text.maxWord value).map fun n => { a with width := some n })
  | .output =>
    once a.output.isSome
      (if value.isEmpty then none else some { a with output := some ⟨value⟩ })
  | .saveStyle => once a.saveStyle.isSome (some { a with saveStyle := some value })

/-- Takes an argument that is no option.  There is room for one. -/
def place (a : Arguments) (text : Text) : Except Stop Arguments :=
  match a.file with
  | some _ => .error (.usage (.unexpectedArgument text))
  | none =>
    if text.isEmpty then .error (.usage .emptyFile) else .ok { a with file := some ⟨text⟩ }

end Arguments

/-- How far the reading of a command line has come. -/
structure Reading where
  arguments : Arguments := {}
  /-- The parameter that the next argument is the value of. -/
  pending : Option Parameter := none
  /-- Nothing that follows is an option. -/
  ended : Bool := false

namespace Reading

/-- Takes a parameter, with its value or in wait for it. -/
def parameter (r : Reading) (p : Parameter) (value : Option Text) : Except Stop Reading :=
  match value with
  | none => .ok { r with pending := some p }
  | some value =>
    match r.arguments.assign p value with
    | .error e => .error e
    | .ok a => .ok { r with arguments := a }

def flag (r : Reading) (f : Flag) : Except Stop Reading :=
  match r.arguments.raise f with
  | .error e => .error e
  | .ok a => .ok { r with arguments := a }

/-- Takes an option behind two dashes, with what follows its equals sign. -/
def longOption (r : Reading) (text : Text) : Except Stop Reading :=
  let (name, value) := match Text.splitAt? '=' text with
    | some (name, value) => (name, some value)
    | none => (text, none)
  match Switch.ofLong? name, value with
  | none, _ => .error (.usage (.unknownOption ('-' :: '-' :: text)))
  | some (.flag f), some _ => .error (.usage (.unexpectedValue (.flag f)))
  | some (.flag f), none => r.flag f
  | some (.parameter p), value => r.parameter p value

/-- The value that follows a letter in the same argument, with or without an equals
sign between them. -/
def attached? : Text → Option Text
  | [] => none
  | '=' :: value => some value
  | value => some value

/-- Takes the letters behind one dash.  The first that wants a value has all that
follows it. -/
def shortOptions (r : Reading) : Text → Except Stop Reading
  | [] => .ok r
  | letter :: rest =>
    match Switch.ofShort? letter with
    | none => .error (.usage (.unknownOption ['-', letter]))
    | some (.parameter p) => r.parameter p (attached? rest)
    | some (.flag f) =>
      match r.flag f with
      | .error e => .error e
      | .ok r => shortOptions r rest

/-- An argument that starts with a dash and is more than that. -/
def isOption : Text → Bool
  | '-' :: _ :: _ => true
  | _ => false

/-- Takes an argument that is not a value. -/
def fresh (r : Reading) (text : Text) : Except Stop Reading :=
  match text with
  | ['-', '-'] => .ok { r with ended := true }
  | '-' :: '-' :: body => r.longOption body
  | '-' :: letter :: letters => r.shortOptions (letter :: letters)
  | _ =>
    match r.arguments.place text with
    | .error e => .error e
    | .ok a => .ok { r with arguments := a }

/-- Takes the next argument. -/
def step (r : Reading) (text : Text) : Except Stop Reading :=
  if r.ended then
    match r.arguments.place text with
    | .error e => .error e
    | .ok a => .ok { r with arguments := a }
  else
    match r.pending with
    | none => r.fresh text
    | some p =>
      if isOption text then .error (.usage (.missingValue (.parameter p)))
      else { r with pending := none }.parameter p (some text)

/-- The arguments, once there are no more to come. -/
def finish (r : Reading) : Except Stop Arguments :=
  match r.pending with
  | some p => .error (.usage (.missingValue (.parameter p)))
  | none => .ok r.arguments

end Reading

namespace Arguments

/-- Takes arguments one after another. -/
def readFrom (r : Reading) : List Text → Except Stop Arguments
  | [] => r.finish
  | text :: rest =>
    match r.step text with
    | .error e => .error e
    | .ok r => readFrom r rest

/-- Reads a command line. -/
def read (texts : List Text) : Except Stop Arguments := readFrom {} texts

end Arguments
end Command
end Listing
