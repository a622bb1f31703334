/-
Paths of files, written with slashes.

A path is kept as it was written, since that is how messages show it.  Its parts
are read off when they are needed: repeated slashes and single dots count for
nothing, except that a path may be nothing but a dot.
-/
import Listing.Text.Basic

namespace Listing

/-- A path as it was written. -/
structure Path where
  text : Text
deriving DecidableEq

namespace Path

/-- The texts between the slashes. -/
def pieces (p : Path) : List Text := p.text.splitOn '/'

def isAbsolute (p : Path) : Bool := p.text.head? == some '/'

/-- A text between slashes that names nothing. -/
def isIdle (piece : Text) : Bool := piece.isEmpty || piece == ['.']

/-- The names on the way, with two dots for the way up. -/
def parts (p : Path) : List Text := p.pieces.filter (!isIdle ·)

/-- The last name on the way, unless it leads up. -/
def fileName? (p : Path) : Option Text :=
  match p.parts.getLast? with
  | none => none
  | some name => if name = "..".toList then none else some name

/-- A name cut at its last dot, if that is not its first character. -/
def splitName (name : Text) : Text × Option Text :=
  match Text.splitAt? '.' name.reverse with
  | some (_, []) => (name, none)
  | some (ext, stem) => (stem.reverse, some ext.reverse)
  | none => (name, none)

/-- What follows the last dot of the file name. -/
def extension? (p : Path) : Option Text := p.fileName?.bind fun name => (splitName name).2

/-- The file name up to its last dot. -/
def stem? (p : Path) : Option Text := p.fileName?.map fun name => (splitName name).1

/-- The path of `name` in the directory of this path. -/
def join (p : Path) (name : Text) : Path :=
  if p.text.isEmpty || p.text.getLast? == some '/' then ⟨p.text ++ name⟩
  else ⟨p.text ++ '/' :: name⟩

/-- The path of the directory that this path lies in, as far as it was written. -/
def parent (p : Path) : Path :=
  let above := ((p.pieces.reverse.dropWhile isIdle).drop 1).dropWhile isIdle
  if above.isEmpty && p.isAbsolute then ⟨['/']⟩ else ⟨Text.join ['/'] above.reverse⟩

/-- The path of some of the first parts. -/
def ofParts (p : Path) (parts : List Text) : Path :=
  ⟨(if p.isAbsolute then ['/'] else []) ++ Text.join ['/'] parts⟩

/-- The paths on the way to this one, from its first part on. -/
def stages (p : Path) : List Path :=
  (List.range p.parts.length).map fun n => p.ofParts (p.parts.take (n + 1))

/-- The path ends in a slash or a dot, so it can only name a directory. -/
def namesDirectory (p : Path) : Bool :=
  match p.pieces.getLast? with
  | some last => isIdle last
  | none => false

/-- The path goes on past its last name to a single dot, so it passes through what
that name stands for. -/
def endsInDot (p : Path) : Bool :=
  (p.pieces.filter (!·.isEmpty)).getLast? == some ['.']

/-- The names on the way and the last one, if the path ends in a name and not in dots. -/
def target? (p : Path) : Option (List Text × Text) :=
  if p.endsInDot then none else p.fileName?.map fun name => (p.parts.dropLast, name)

end Path
end Listing
