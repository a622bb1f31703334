/-
A tree of files.

Paths lead on from one directory of the tree, or from its root if they are absolute.
Every operation gives the error that a file system gives, so that the order of
checks shows in it.
-/
import Listing.Dict
import Listing.Path

namespace Listing

/-- Why a file could not be used. -/
inductive FileError where
  | notFound
  | isDirectory
  | notDirectory
  | exists
  | nameTooLong
  /-- The path holds the character that ends paths. -/
  | endInside
  | notUtf8
deriving DecidableEq

/-- The wording of an error. -/
def FileError.message : FileError → Text
  | .notFound => "No such file or directory (os error 2)".toList
  | .isDirectory => "Is a directory (os error 21)".toList
  | .notDirectory => "Not a directory (os error 20)".toList
  | .exists => "File exists (os error 17)".toList
  | .nameTooLong => "File name too long (os error 36)".toList
  | .endInside => "file name contained an unexpected NUL byte".toList
  | .notUtf8 => "stream did not contain valid UTF-8".toList

/-- What stands at a place of the tree. -/
inductive Node where
  | file (bytes : ByteArray)
  | directory (entries : List (Text × Node))

/-- A place in the tree: the names on the way to it.  Two dots stand only at the
front, for places above the directory that paths start from. -/
abbrev Location := List Text

/-- What is in the directory that paths start from.  The directories above it and
the root count as entries of it, under names that no file can have. -/
structure FileTree where
  entries : List (Text × Node)

namespace FileTree

def empty : FileTree := ⟨[]⟩

/-- The place that absolute paths start from.  No name has a slash in it, so it is
apart from all others. -/
def root : Location := [['/']]

/-- The directory that paths start from, or one above it. -/
def isAbove (place : Location) : Bool := place.all (· == "..".toList)

/-- What the names of a place lead to from some entries on. -/
def find? : List (Text × Node) → Location → Option Node
  | entries, [] => some (.directory entries)
  | entries, name :: rest =>
    match entries.lookup name with
    | none => none
    | some (.directory inner) => find? inner rest
    | some (.file bytes) => if rest.isEmpty then some (.file bytes) else none

/-- What stands at a place.  The root, the directory that paths start from and those
above it are always there. -/
def node? (tree : FileTree) (place : Location) : Option Node :=
  match find? tree.entries place with
  | some node => some node
  | none => if place = root || isAbove place then some (.directory []) else none

/-- The entries with a node under a name, instead of what was there. -/
def setEntry (name : Text) (node : Node) : List (Text × Node) → List (Text × Node)
  | [] => [(name, node)]
  | (other, old) :: rest =>
    if name = other then (name, node) :: rest else (other, old) :: setEntry name node rest

theorem lookup_setEntry_self (name : Text) (node : Node) (entries : List (Text × Node)) :
    (setEntry name node entries).lookup name = some node := by
  induction entries with
  | nil => simp [setEntry]
  | cons head rest ih =>
    obtain ⟨other, old⟩ := head
    rw [setEntry]
    split
    · simp
    · rename_i hne
      rw [List.lookup_cons, beq_false_of_ne hne, ih]

/-- The entries with a node at a place below them.  Directories on the way to it that
are missing are made. -/
def insertAt (node : Node) : Location → List (Text × Node) → List (Text × Node)
  | [], entries => entries
  | [name], entries => setEntry name node entries
  | name :: next :: rest, entries =>
    let inner := match entries.lookup name with
      | some (.directory inner) => inner
      | _ => []
    setEntry name (.directory (insertAt node (next :: rest) inner)) entries

theorem find?_insertAt_self (node : Node) {place : Location} (h : place ≠ [])
    (entries : List (Text × Node)) : find? (insertAt node place entries) place = some node := by
  induction place generalizing entries with
  | nil => exact absurd rfl h
  | cons name rest ih =>
    cases rest with
    | nil =>
      unfold find?
      rw [insertAt, lookup_setEntry_self]
      cases node <;> rfl
    | cons next rest =>
      unfold find?
      rw [insertAt, lookup_setEntry_self]
      exact ih (List.cons_ne_nil next rest) _

/-- Puts something at a place, instead of what was there. -/
def put (tree : FileTree) (place : Location) (node : Node) : FileTree :=
  ⟨insertAt node place tree.entries⟩

theorem node?_put_self (tree : FileTree) {place : Location} (node : Node) (h : place ≠ []) :
    (tree.put place node).node? place = some node := by
  rw [node?, put, find?_insertAt_self node h]

/-- The place one level up.  The root has none above it. -/
def up (place : Location) : Location :=
  if place = root then root
  else if isAbove place then place ++ ["..".toList]
  else place.dropLast

/-- The most bytes that one name may have. -/
def maxNameBytes : Nat := 255

/-- The most bytes that a path may have. -/
def maxPathBytes : Nat := 4095

/-- Why a path leads nowhere, whatever the files are. -/
def refusal? (path : Path) : Option FileError :=
  if path.text.isEmpty then some .notFound
  else if path.text.contains '\x00' then some .endInside
  else if maxPathBytes < Text.byteLength path.text then some .nameTooLong
  else none

/-- A name that no file or directory can have. -/
def isTooLong (name : Text) : Bool := maxNameBytes < Text.byteLength name

/-- Follows names from a place.  All but the last have to lead to directories. -/
def follow (tree : FileTree) : Location → List Text → Except FileError Location
  | place, [] => .ok place
  | place, name :: rest =>
    match tree.node? place with
    | none => .error .notFound
    | some (.file _) => .error .notDirectory
    | some (.directory _) =>
      if isTooLong name then .error .nameTooLong
      else follow tree (if name = "..".toList then up place else place ++ [name]) rest

/-- Follows names that all have to lead to directories. -/
def enter (tree : FileTree) (place : Location) (names : List Text) :
    Except FileError Location :=
  match tree.follow place names with
  | .error e => .error e
  | .ok place =>
    match tree.node? place with
    | none => .error .notFound
    | some (.file _) => .error .notDirectory
    | some (.directory _) => .ok place

def start (path : Path) : Location := if path.isAbsolute then root else []

/-- The place a path leads to; there need not be anything. -/
def locate (tree : FileTree) (path : Path) : Except FileError Location :=
  match refusal? path with
  | some e => .error e
  | none => tree.follow (start path) path.parts

/-- What stands where a path leads. -/
def at? (tree : FileTree) (path : Path) : Option Node :=
  match tree.locate path with
  | .ok place => tree.node? place
  | .error _ => none

def isDirectory (tree : FileTree) (path : Path) : Bool :=
  match tree.at? path with
  | some (.directory _) => true
  | _ => false

/-- The content of a file. -/
def read (tree : FileTree) (path : Path) : Except FileError ByteArray :=
  match tree.locate path with
  | .error e => .error e
  | .ok place =>
    match tree.node? place with
    | none => .error .notFound
    | some (.directory _) => .error .isDirectory
    | some (.file bytes) => if path.namesDirectory then .error .notDirectory else .ok bytes

/-- Writes a file into a directory that is there.  A path that ends in dots names a
directory, and one that ends in a slash is taken for one before its last name is
looked at. -/
def write (tree : FileTree) (path : Path) (bytes : ByteArray) : Except FileError FileTree :=
  match refusal? path, path.target? with
  | some e, _ => .error e
  | none, none =>
    match tree.enter (start path) path.parts with
    | .error e => .error e
    | .ok _ => .error .isDirectory
  | none, some (names, last) =>
    match tree.enter (start path) names with
    | .error e => .error e
    | .ok place =>
      if path.namesDirectory then .error .isDirectory
      else if isTooLong last then .error .nameTooLong
      else match tree.node? (place ++ [last]) with
        | some (.directory _) => .error .isDirectory
        | _ => .ok (tree.put (place ++ [last]) (.file bytes))

/-- Makes the directories on the way from a place that are missing.  Those that were
made stay when a later one cannot be.  A file in the way is found where it stands, or
else, once a directory was `made`, when its own turn comes. -/
def makeDirectories (tree : FileTree) (made : Bool) (place : Location) :
    List Text → FileTree × Except FileError Unit
  | [] => (tree, .ok ())
  | name :: rest =>
    if isTooLong name then (tree, .error .nameTooLong)
    else if name = "..".toList then makeDirectories tree made (up place) rest
    else match tree.node? (place ++ [name]) with
      | some (.directory _) => makeDirectories tree made (place ++ [name]) rest
      | some (.file _) =>
        (tree, .error (if made || rest.isEmpty then .exists else .notDirectory))
      | none =>
        makeDirectories (tree.put (place ++ [name]) (.directory [])) true (place ++ [name]) rest

/-- Makes a directory and those above it.  One that is there is no error, and one
with a dot after it has to be there. -/
def createDirectory (tree : FileTree) (path : Path) : FileTree × Except FileError Unit :=
  if path.parts.isEmpty then (tree, .ok ())
  else match refusal? path with
    | some e => (tree, .error e)
    | none =>
      if path.endsInDot then
        let (tree, made) := tree.makeDirectories false (start path) path.parts.dropLast
        match made, tree.enter (start path) path.parts with
        | .error e, _ => (tree, .error e)
        | .ok (), .error e => (tree, .error e)
        | .ok (), .ok _ => (tree, .ok ())
      else tree.makeDirectories false (start path) path.parts

/-- The names of the files in a directory, in increasing order. -/
def fileNames (tree : FileTree) (directory : Path) : List Text :=
  match tree.at? directory with
  | some (.directory entries) =>
    Dict.sortUnique (entries.filterMap fun (name, node) =>
      match node with
      | .file _ => some name
      | .directory _ => none)
  | _ => []

mutual

/-- Everything from a place on, a directory before what is in it. -/
def nodesFrom (place : Location) : Node → List (Location × Node)
  | .file bytes => [(place, .file bytes)]
  | .directory entries => (place, .directory []) :: nodesIn place entries

def nodesIn (place : Location) : List (Text × Node) → List (Location × Node)
  | [] => []
  | (name, node) :: rest => nodesFrom (place ++ [name]) node ++ nodesIn place rest

end

/-- A place holds a file with the same content, or a directory like this one. -/
def holds (tree : FileTree) (place : Location) (node : Node) : Bool :=
  match tree.node? place, node with
  | some (.file old), .file bytes => old.toList == bytes.toList
  | some (.directory _), .directory _ => true
  | _, _ => false

/-- What is in the new tree and not in the old one. -/
def changes (old new : FileTree) : List (Location × Node) :=
  (nodesIn [] new.entries).filter fun (place, node) => !old.holds place node

/-- A path that leads to a place. -/
def pathTo (place : Location) : Path :=
  match place with
  | ['/'] :: names => ⟨'/' :: Text.join ['/'] names⟩
  | names => ⟨Text.join ['/'] names⟩

end FileTree
end Listing
