/-
The program: the command on the files that there are.

The files that the command can come across are looked at beforehand, and what it
changes is written back afterwards.
-/
import Listing.Command.Run

namespace Listing
namespace Program

open Command

/-- What stands where a path leads. -/
def nodeAt? (path : Path) : IO (Option Node) := do
  try
    let real ← IO.FS.realPath (String.ofList path.text)
    if ← real.isDir then return some (.directory [])
    return some (.file (← IO.FS.readBinFile real))
  catch _ => return none

/-- The names in a directory. -/
def namesIn (path : Path) : IO (List Text) := do
  try
    let real ← IO.FS.realPath (String.ofList path.text)
    return (← real.readDir).toList.map fun entry => entry.fileName.toList
  catch _ => return []

/-- The tree with what is on the way to a path. -/
def look (tree : FileTree) (path : Path) : IO FileTree :=
  path.stages.foldlM (fun tree stage => do
    match tree.locate stage, ← nodeAt? stage with
    | .ok place, some node =>
      return if tree.holds place node then tree else tree.put place node
    | _, _ => return tree) tree

/-- The tree with a directory and what is in it. -/
def lookInside (tree : FileTree) (directory : Path) : IO FileTree := do
  (← namesIn directory).foldlM (fun tree name => look tree (directory.join name))
    (← look tree directory)

/-- The files that a command line is about. -/
def pathsOf (texts : List Text) : List Path :=
  match Arguments.read texts with
  | .ok a => a.file.toList ++ a.output.toList
  | .error _ => []

/-- The files that a command can come across. -/
def observe (home : Option Path) (texts : List Text) : IO FileTree := do
  let tree ← (Settings.file? home).toList.foldlM look FileTree.empty
  let tree ← ((Settings.load tree home).presets? home).toList.foldlM lookInside tree
  (pathsOf texts).foldlM look tree

/-- Writes what has changed. -/
def store (place : Location) (node : Node) : IO Unit :=
  let path := String.ofList (FileTree.pathTo place).text
  match node with
  | .directory _ => IO.FS.createDirAll path
  | .file bytes => IO.FS.writeBinFile path bytes

/-- Carries out a command line and returns its exit code. -/
def run (texts : List Text) : IO UInt32 := do
  let home := (← IO.getEnv "HOME").map fun home => Path.mk home.toList
  let tree ← observe home texts
  let outcome := execute home tree texts
  for (place, node) in tree.changes outcome.files do
    store place node
  (← IO.getStderr).putStr (String.ofList outcome.messages)
  (← IO.getStdout).putStr (String.ofList outcome.output)
  return UInt32.ofNat outcome.exitCode

end Program
end Listing

/-- The program. -/
def main (args : List String) : IO UInt32 := do
  try
    Listing.Program.run (args.map String.toList)
  catch e =>
    (← IO.getStderr).putStr ("Error: I/O error: " ++ e.toString ++ "\n")
    return 1
