import Graphwright.CommandLine

/-!
# The program

Takes a picture of the files that the arguments mention, runs the command line on it, and brings the
files that changed back to the disk.
-/
namespace Graphwright.Main

open CommandLine

/-- What an argument may mention as a path: itself, or the value that it carries. -/
def mentioned (argument : String) : List String :=
  let cs := argument.toList
  let values := [cs, cs.drop 2, (cs.dropWhile (· != '=')).drop 1]
  (values.filter (!·.isEmpty)).map String.ofList

/-- The components of a path before the first one that is a pattern. -/
def fixedComponents (path : String) : List String :=
  (Files.Path.components path).takeWhile fun c => !Files.Pattern.hasMeaning c.toList

/-- The names from the root along some components. -/
def follow (names : List String) : List String → List String
  | [] => names
  | "." :: rest => follow names rest
  | ".." :: rest => follow names.dropLast rest
  | c :: rest => follow (names ++ [c]) rest

/-- How deep directories are read. -/
def maxDepth : Nat := 64

/-- Reads a file, or a directory with all below it; a file that is no text is read as empty. -/
def readTree : (depth : Nat) → String → IO FileTree
  | 0, _ => return .directory []
  | depth + 1, path => do
    let real ← IO.FS.realPath path
    if ← real.isDir then
      let mut entries := []
      for e in ← real.readDir do
        try
          entries := entries ++ [(e.fileName, ← readTree depth (path ++ "/" ++ e.fileName))]
        catch _ => pure ()
      return .directory entries
    else
      try
        return .file (← IO.FS.readFile real)
      catch _ => return .file ""

/-- The path with some names from the root. -/
def pathOf (names : List String) : String := "/" ++ "/".intercalate names

/-- The files that arguments mention. -/
def picture (arguments : List String) : IO Files := do
  let here := follow [] (Files.Path.components (← IO.currentDir).toString)
  let mut fs : Files := ⟨.put (.directory []) here (.directory []), here⟩
  for path in arguments.flatMap mentioned do
    let start := if Files.Path.isAbsolute path then [] else here
    let names := follow start (fixedComponents path)
    try
      fs := fs.putAt names (← readTree maxDepth (pathOf names))
    catch _ => pure ()
  return fs

/-- Writes the files that are new or changed. -/
def bringBack (before after : Files) : IO PUnit := do
  let old := before.root.filesUnder ['/']
  for (path, text) in after.root.filesUnder ['/'] do
    if old.lookup path != some text then
      IO.FS.createDirAll (Files.Path.parent path)
      IO.FS.writeFile path text

end Graphwright.Main

open Graphwright in
/-- Runs the command line on the files of the system. -/
def main (arguments : List String) : IO UInt32 := do
  let before ← Main.picture arguments
  let outcome := CommandLine.run before arguments
  for w in outcome.warnings do
    IO.eprintln ("WARNING: " ++ w.message)
  for line in outcome.lines.dropLast do
    IO.println line
  Main.bringBack before outcome.files
  for line in outcome.lines.getLast?.toList do
    IO.println line
  for line in outcome.reports do
    IO.eprintln line
  let usage := "Usage: graphwright (generate | client | resolvers) -s SCHEMA -o OUTPUT [OPTIONS]"
  match outcome.ending with
  | .help => IO.println usage
  | .usage => IO.eprintln usage
  | .broken e => IO.eprintln ("Failure: " ++ e.message)
  | _ => pure ()
  return outcome.ending.code.toUInt32
