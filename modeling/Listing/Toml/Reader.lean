/-
Reading TOML documents.

A document is a root section and the sections under its headers.  Sections are
added to the tree of tables one after the other, and each table remembers how it
came about, since that decides who may add to it: a table that a header defines is
closed to other headers and to dotted keys, one that a dotted key made is open to
dotted keys, one that only lies on the way to another may still get a header, and
one in braces is closed to all.

Keys stay in the order in which they came, because the first key of a table decides
what the table stands for.
-/
import Listing.Toml.Scalar

namespace Listing
namespace Toml

/-- How a table came about. -/
inductive Origin where
  /-- A header, or the document itself. -/
  | defined
  /-- It lies on the way to a table with a header. -/
  | implied
  /-- A dotted key. -/
  | dotted
  /-- Braces around all its assignments. -/
  | inline
deriving DecidableEq

/-- What stands under a key. -/
inductive Item where
  | value (v : Json)
  | array (items : List Item)
  | table (origin : Origin) (entries : List (Text × Item))
  /-- An array of tables: the last one, and those before it from the last back. -/
  | tables (last : List (Text × Item)) (before : List (List (Text × Item)))

abbrev Entries := List (Text × Item)

/-- The entries with another item under a key that is there. -/
def replace (entries : Entries) (key : Text) (item : Item) : Entries :=
  entries.map fun e => if e.1 = key then (key, item) else e

/-- Puts an item under a dotted key.  The key has to be new, and every table on the
way one that dotted keys made, or one that is only passed through. -/
def insertDotted (key : Text) (item : Item) : List Text → Entries → Option Entries
  | [], entries =>
    match entries.lookup key with
    | some _ => none
    | none => some (entries ++ [(key, item)])
  | step :: path, entries =>
    match entries.lookup step with
    | none => do
      let inner ← insertDotted key item path []
      return entries ++ [(step, .table .dotted inner)]
    | some (.table .dotted inner) => do
      let inner ← insertDotted key item path inner
      return replace entries step (.table .dotted inner)
    | some (.table .implied inner) =>
      if path.isEmpty then none
      else do
        let inner ← insertDotted key item path inner
        return replace entries step (.table .implied inner)
    | some (.tables last before) =>
      if path.isEmpty then none
      else do
        let inner ← insertDotted key item path last
        return replace entries step (.tables inner before)
    | some _ => none

/-- A key with its path and its value. -/
structure Assignment where
  path : List Text
  key : Text
  item : Item

/-- Puts all assignments of a section into a table. -/
def insertAll (entries : Entries) : List Assignment → Option Entries
  | [] => some entries
  | a :: rest => do
    let entries ← insertDotted a.key a.item a.path entries
    insertAll entries rest

/-- Changes the table at the end of a path.  Tables on the way that are missing are
made; of an array of tables the last one is meant. -/
def updateAt (change : Entries → Option Entries) : List Text → Entries → Option Entries
  | [], entries => change entries
  | step :: path, entries =>
    match entries.lookup step with
    | none => do
      let inner ← updateAt change path []
      return entries ++ [(step, .table .implied inner)]
    | some (.table origin inner) =>
      if origin = .inline then none
      else do
        let inner ← updateAt change path inner
        return replace entries step (.table origin inner)
    | some (.tables last before) => do
      let inner ← updateAt change path last
      return replace entries step (.tables inner before)
    | some _ => none

/-- A header with the assignments under it. -/
structure Section where
  /-- The header adds a table to an array of tables. -/
  isArray : Bool
  path : List Text
  key : Text
  assignments : List Assignment

/-- Adds the table of a section to the table it belongs in.  A table that was only
passed through moves behind the others when its header comes. -/
def Section.addTo (s : Section) (parent : Entries) : Option Entries :=
  match s.isArray, parent.lookup s.key with
  | true, none => do
    let table ← insertAll [] s.assignments
    return parent ++ [(s.key, .tables table [])]
  | true, some (.tables last before) => do
    let table ← insertAll [] s.assignments
    return replace parent s.key (.tables table (last :: before))
  | false, none => do
    let table ← insertAll [] s.assignments
    return parent ++ [(s.key, .table .defined table)]
  | false, some (.table .implied inner) => do
    let table ← insertAll inner s.assignments
    return parent.filter (·.1 != s.key) ++ [(s.key, .table .defined table)]
  | _, _ => none

/-- Adds sections in turn. -/
def addSections (root : Entries) : List Section → Option Entries
  | [] => some root
  | s :: rest => do
    let root ← updateAt s.addTo s.path root
    addSections root rest

mutual

/-- The value of an item, if every table in it that has to be a date is one. -/
def Item.toJson? : Item → Option Json
  | .value v => some v
  | .array items => (itemsToJson? items).map .array
  | .table _ entries => tableToJson? entries
  | .tables last before =>
    match tableToJson? last, tablesToJson? before with
    | some v, some vs => some (.array (vs.reverse ++ [v]))
    | _, _ => none

/-- The value of a table.  One whose first key is the name of dates stands for the
date in the text under it, and nothing else in it counts. -/
def tableToJson? : List (Text × Item) → Option Json
  | [] => some (.object [])
  | (key, item) :: rest =>
    if key = dateField then
      match item with
      | .value (.text t) => (dateTime? t).map DateTime.toJson
      | _ => none
    else
      match item.toJson?, entriesToJson? rest with
      | some v, some fields => some (Json.ofFields ((key, v) :: fields))
      | _, _ => none

def entriesToJson? : List (Text × Item) → Option (List (Text × Json))
  | [] => some []
  | (key, item) :: rest =>
    match item.toJson?, entriesToJson? rest with
    | some v, some fields => some ((key, v) :: fields)
    | _, _ => none

def itemsToJson? : List Item → Option (List Json)
  | [] => some []
  | item :: rest =>
    match item.toJson?, itemsToJson? rest with
    | some v, some vs => some (v :: vs)
    | _, _ => none

def tablesToJson? : List (List (Text × Item)) → Option (List Json)
  | [] => some []
  | entries :: rest =>
    match tableToJson? entries, tablesToJson? rest with
    | some v, some vs => some (v :: vs)
    | _, _ => none

end

/-! ## Keys and values -/

def isBareKeyChar (c : Char) : Bool := c.isAlphanum || c == '_' || c == '-'

/-- One part of a key: bare, or in quotes on one line.  `fuel` is at least the
length of the text. -/
def simpleKey? (fuel : Nat) (t : Text) : Option (Text × Text) :=
  match t with
  | '"' :: r => basicBody? fuel r
  | '\'' :: r => literalBody? r
  | _ =>
    let bare := t.takeWhile isBareKeyChar
    if bare.isEmpty then none else some (bare, t.dropWhile isBareKeyChar)

/-- The parts of a dotted key, of which there are at most `count`, and the text
after it. -/
def keyParts? (fuel : Nat) : Nat → Text → Option (List Text × Text)
  | 0, _ => none
  | count + 1, t =>
    match simpleKey? fuel (skipSpace t) with
    | none => none
    | some (part, rest) =>
      match skipSpace rest with
      | '.' :: rest => (keyParts? fuel count rest).map fun (parts, rest) => (part :: parts, rest)
      | rest => some ([part], rest)

/-- The deepest nesting of arrays and inline tables, and the most parts of a key. -/
def maxDepth : Nat := 79

/-- A dotted key as its path and its last part. -/
def key? (fuel : Nat) (t : Text) : Option (List Text × Text × Text) :=
  match keyParts? fuel maxDepth t with
  | none => none
  | some (parts, rest) => parts.getLast?.map fun key => (parts.dropLast, key, rest)

/-- Skips what may stand between the items of an array: white space, line endings
and comments, of which one may be open already. -/
def skipLoose (inComment : Bool) : Text → Text
  | [] => []
  | c :: r =>
    if inComment && isPlain c then skipLoose true r
    else if isSpace c || c = '\n' then skipLoose false r
    else if c = '#' then skipLoose true r
    else match c, r with
      | '\r', '\n' :: r => skipLoose false r
      | _, _ => c :: r

def loose (t : Text) : Text := skipLoose false t

/-- Reads an item and returns the text after it. -/
abbrev Reader := Text → Option (Item × Text)

/-- The items of an array after its opening bracket; the last may have a comma. -/
def items? (read : Reader) : Nat → Text → Option (List Item × Text)
  | 0, _ => none
  | fuel + 1, t =>
    match loose t with
    | ']' :: rest => some ([], rest)
    | t =>
      match read t with
      | none => none
      | some (v, rest) =>
        match loose rest with
        | ',' :: rest => (items? read fuel rest).map fun (vs, rest) => (v :: vs, rest)
        | ']' :: rest => some ([v], rest)
        | _ => none

/-- An assignment and the text after its value. -/
def assignment? (fuel : Nat) (read : Reader) (t : Text) : Option (Assignment × Text) := do
  let (path, key, rest) ← key? fuel t
  let rest ← Text.after? ['='] (skipSpace rest)
  let (v, rest) ← read (skipSpace rest)
  return (⟨path, key, v⟩, rest)

/-- The assignments of an inline table from its first one on.  There are fewer of
them than `count`. -/
def inlineAssignments? (fuel : Nat) (read : Reader) :
    Nat → Text → Option (List Assignment × Text)
  | 0, _ => none
  | count + 1, t =>
    match assignment? fuel read t with
    | none => none
    | some (a, rest) =>
      match skipSpace rest with
      | ',' :: rest =>
        (inlineAssignments? fuel read count rest).map fun (as, rest) => (a :: as, rest)
      | '}' :: rest => some ([a], rest)
      | _ => none

/-- Reads a value, with `depth` levels of nesting left.  `fuel` is at least the
length of the text. -/
def valueAt (fuel : Nat) : Nat → Reader
  | depth, t =>
    match t with
    | [] => none
    | c :: r =>
      if c = '"' || c = '\'' then (string? fuel t).map fun (s, rest) => (.value (.text s), rest)
      else if c = '[' then
        match depth with
        | 0 => none
        | depth + 1 =>
          (items? (valueAt fuel depth) fuel r).map fun (vs, rest) => (.array vs, rest)
      else if c = '{' then
        match depth with
        | 0 => none
        | depth + 1 =>
          match skipSpace r with
          | '}' :: rest => some (.table .inline [], rest)
          | _ => do
            let (as, rest) ← inlineAssignments? fuel (valueAt fuel depth) fuel r
            let entries ← insertAll [] as
            return (.table .inline entries, rest)
      else
        let (first, rest) := run t
        (runValue? first).map fun v => (.value v, rest)

/-! ## Documents -/

/-- The text after the end of a line, with white space and a comment before it. -/
def lineEnd? (t : Text) : Option Text :=
  let rest := match skipSpace t with
    | '#' :: r => r.dropWhile isPlain
    | t => t
  if rest.isEmpty then some [] else newline? rest

/-- A header and the text after it: whether it is one of an array, and its key. -/
def header? (fuel : Nat) (t : Text) : Option (Bool × List Text × Text × Text) :=
  match t with
  | '[' :: '[' :: r => do
    let (path, key, rest) ← key? fuel r
    let rest ← Text.after? "]]".toList (skipSpace rest)
    return (true, path, key, rest)
  | '[' :: r => do
    let (path, key, rest) ← key? fuel r
    let rest ← Text.after? [']'] (skipSpace rest)
    return (false, path, key, rest)
  | _ => none

/-- The assignments up to the next header, and the sections from there on.  There
are fewer of both than `count`. -/
def statements? (fuel : Nat) : Nat → Text → Option (List Assignment × List Section)
  | 0, _ => none
  | count + 1, t =>
    match loose t with
    | [] => some ([], [])
    | '[' :: r => do
      let (isArray, path, key, rest) ← header? fuel ('[' :: r)
      let rest ← lineEnd? rest
      let (assignments, sections) ← statements? fuel count rest
      return ([], ⟨isArray, path, key, assignments⟩ :: sections)
    | t => do
      let (a, rest) ← assignment? fuel (valueAt fuel maxDepth) t
      let rest ← lineEnd? rest
      let (assignments, sections) ← statements? fuel count rest
      return (a :: assignments, sections)

/-- Reads a document.  A byte order mark in front of it does not count. -/
def ofText? (t : Text) : Option Json := do
  let t := match t with
    | '\uFEFF' :: r => r
    | t => t
  let fuel := t.length + 1
  let (assignments, sections) ← statements? fuel fuel t
  let root ← insertAll [] assignments
  let root ← addSections root sections
  tableToJson? root

end Toml
end Listing
