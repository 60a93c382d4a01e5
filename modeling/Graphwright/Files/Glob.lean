import Graphwright.Files.Pattern
import Graphwright.Files.Tree

/-!
# Paths that follow a pattern

Every part of a pattern between slashes is matched against the names in the directories before it.
Two stars stand for any number of directories, and at the end also for the files in them. Names that
begin with a dot are found only by patterns that do.
-/
namespace Graphwright.Files

/-- The name begins with a dot. -/
def isHidden (name : List Char) : Bool := name.head? = some '.'

/-- Two stars. -/
def isDeep (pattern : List Char) : Bool := pattern = ['*', '*']

/-- The names in a directory, or only those of directories; the empty path is the current
directory. -/
def namesIn (fs : Files) (directory : List Char) (directoriesOnly : Bool) : List (List Char) :=
  let path := if directory.isEmpty then "." else String.ofList directory
  let names := (fs.list path).map String.toList
  if directoriesOnly then
    names.filter fun n => fs.isDirectory (String.ofList (Path.join directory n))
  else names

/-- The paths below a directory, relative to it. The fuel bounds their depth. -/
def below (fs : Files) (directoriesOnly : Bool) : (fuel : Nat) → List Char → List (List Char)
  | 0, _ => []
  | fuel + 1, directory =>
    ((fs.namesIn directory directoriesOnly).filter (!isHidden ·)).flatMap fun n =>
      n :: (below fs directoriesOnly fuel (Path.join directory n)).map (Path.join n)

mutual

def FileTree.depth : FileTree → Nat
  | .file _ => 0
  | .directory entries => depthIn entries + 1

def FileTree.depthIn : List (String × FileTree) → Nat
  | [] => 0
  | (_, t) :: rest => max (depth t) (depthIn rest)

end

/-- The names that follow the last part of a pattern in one directory. -/
def globIn (fs : Files) (directory pattern : List Char) (directoriesOnly : Bool) :
    List (List Char) :=
  if isDeep pattern then
    (if directory.isEmpty || fs.isDirectory (String.ofList directory) then [[]] else []) ++
      fs.below directoriesOnly (FileTree.depth fs.root) directory
  else if Pattern.hasMeaning pattern then
    let names := fs.namesIn directory directoriesOnly
    (if isHidden pattern then names else names.filter (!isHidden ·)).filter
      (Pattern.isMatch pattern)
  else if pattern.isEmpty then
    if fs.isDirectory (String.ofList directory) then [[]] else []
  else if fs.exists (String.ofList (Path.join directory pattern)) then [pattern]
  else []

/-- The paths that follow a pattern, or only those of directories. -/
def globFrom (fs : Files) : (fuel : Nat) → (directoriesOnly : Bool) → List Char → List (List Char)
  | 0, _, _ => []
  | fuel + 1, directoriesOnly, pattern =>
    let (directory, name) := Path.split pattern
    if !Pattern.hasMeaning pattern then
      if name.isEmpty then if fs.isDirectory (String.ofList directory) then [pattern] else []
      else if fs.exists (String.ofList pattern) then [pattern]
      else []
    else if directory.isEmpty then fs.globIn [] name directoriesOnly
    else
      let directories :=
        if directory ≠ pattern && Pattern.hasMeaning directory then globFrom fs fuel true directory
        else [directory]
      directories.flatMap fun d => (fs.globIn d name directoriesOnly).map (Path.join d)

/-- The paths that follow a pattern. The current directory itself has no path. -/
def glob (fs : Files) (pattern : String) : List String :=
  let found := fs.globFrom (pattern.length + 1) false pattern.toList
  let found := if isDeep (pattern.toList.take 2) && found.head? = some [] then found.drop 1
    else found
  found.map String.ofList

end Graphwright.Files
