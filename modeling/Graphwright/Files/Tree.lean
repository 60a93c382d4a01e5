import Graphwright.Files.Path
import Graphwright.Text.Quoted

/-!
# Files

A tree of files and directories with a current directory, and what can be read from it and written
to it. Names in a directory are different; paths are walked name by name, so every directory on the
way has to exist.
-/
namespace Graphwright

inductive FileFault where
  | missing
  | isDirectory
  | notDirectory
  | exists
  deriving Repr, DecidableEq

namespace FileFault

/-- The number and the words by which systems report a fault. -/
def description : FileFault → String
  | missing => "[Errno 2] No such file or directory"
  | isDirectory => "[Errno 21] Is a directory"
  | notDirectory => "[Errno 20] Not a directory"
  | «exists» => "[Errno 17] File exists"

def message (f : FileFault) (path : String) : String := f.description ++ ": " ++ Text.quoted path

end FileFault

/-- A file, or a directory with its entries. -/
inductive FileTree where
  | file (text : String)
  | directory (entries : List (String × FileTree))
  deriving Inhabited

namespace FileTree

def isDirectory : FileTree → Bool
  | directory _ => true
  | file _ => false

/-- The names in a directory; a file has none. -/
def names : FileTree → List String
  | directory entries => entries.map (·.1)
  | file _ => []

/-- Sets an entry: an old one keeps its place. -/
def setEntry (entries : List (String × FileTree)) (name : String) (t : FileTree) :
    List (String × FileTree) :=
  if entries.any (·.1 == name) then entries.map fun e => if e.1 == name then (name, t) else e
  else entries ++ [(name, t)]

/-- Puts a tree under some names, with directories on the way. -/
def put (new : FileTree) : List String → FileTree → FileTree
  | [], _ => new
  | name :: rest, t =>
    let entries := match t with
      | directory entries => entries
      | file _ => []
    directory (setEntry entries name (put new rest ((entries.lookup name).getD (directory []))))

mutual

/-- The files of a tree with their names joined to a path. -/
def filesUnder (path : List Char) : FileTree → List (String × String)
  | file text => [(String.ofList path, text)]
  | directory entries => filesIn path entries

/-- The files of some entries of the directory with a path. -/
def filesIn (path : List Char) : List (String × FileTree) → List (String × String)
  | [] => []
  | (name, t) :: rest => filesUnder (Files.Path.join path name.toList) t ++ filesIn path rest

end

end FileTree

/-- A tree of files and the names that lead to the current directory. -/
structure Files where
  root : FileTree
  here : List String := []
  deriving Inhabited

namespace Files

/-- A place in a tree: what is there, and the directories above it with the names taken in them,
latest first. -/
structure Place where
  node : FileTree
  above : List (String × FileTree) := []

/-- The names that lead from the root to a place. -/
def Place.names (p : Place) : List String := (p.above.map (·.1)).reverse

/-- Walks along the components of a path. The root is its own parent. -/
def walk (p : Place) : List String → Except FileFault Place
  | [] => .ok p
  | c :: rest =>
    match p.node with
    | .file _ => .error .notDirectory
    | .directory entries =>
      if c = "." then walk p rest
      else if c = ".." then
        match p.above with
        | [] => walk p rest
        | (_, parent) :: above => walk ⟨parent, above⟩ rest
      else
        match entries.lookup c with
        | none => .error .missing
        | some t => walk ⟨t, (c, p.node) :: p.above⟩ rest

def find (fs : Files) (path : String) : Except FileFault Place :=
  if path.isEmpty then .error .missing
  else
    let names := Path.components path
    walk ⟨fs.root, []⟩ (if Path.isAbsolute path then names else fs.here ++ names)

def «exists» (fs : Files) (path : String) : Bool := (fs.find path).isOk

def isDirectory (fs : Files) (path : String) : Bool :=
  match fs.find path with
  | .ok p => p.node.isDirectory
  | .error _ => false

/-- The text of a file as it is stored. -/
def stored (fs : Files) (path : String) : Except FileFault String := do
  match (← fs.find path).node with
  | .file text => return text
  | .directory _ => throw .isDirectory

/-- The text of a file with unified line ends. -/
def read (fs : Files) (path : String) : Except FileFault String :=
  (fs.stored path).map (Text.onChars Text.unifyLineEnds)

/-- The names in a directory; there are none in anything else. -/
def list (fs : Files) (path : String) : List String :=
  match fs.find path with
  | .ok p => p.node.names
  | .error _ => []

/-- Puts a tree at some names from the root. -/
def putAt (fs : Files) (names : List String) (t : FileTree) : Files :=
  { fs with root := .put t names fs.root }

/-- Puts a tree at a path that leads nowhere, into a directory that exists. -/
def create (fs : Files) (path : String) (t : FileTree) : Except FileFault Files := do
  let above ← fs.find (Path.parent path)
  if above.node.isDirectory then return fs.putAt (above.names ++ [Path.lastName path]) t
  else throw .notDirectory

def makeDirectory (fs : Files) (path : String) : Except FileFault Files :=
  match fs.find path with
  | .ok _ => .error .exists
  | .error .missing => fs.create path (.directory [])
  | .error fault => .error fault

def write (fs : Files) (path text : String) : Except FileFault Files :=
  match fs.find path with
  | .ok p => if p.node.isDirectory then .error .isDirectory else .ok (fs.putAt p.names (.file text))
  | .error .missing => fs.create path (.file text)
  | .error fault => .error fault

/-- What changes have made of files, and the fault that ended them, if one did. What was changed
before a fault stays changed. -/
structure Changed where
  files : Files
  fault? : Option FileFault := none

def ensureDirectory (fs : Files) (path : String) : Changed :=
  match fs.makeDirectory path with
  | .ok fs => { files := fs }
  | .error fault => { files := fs, fault? := if fs.isDirectory path then none else some fault }

/-- Makes the directory with some names, latest first, unless there is one already. Where it cannot
be made because the one around it is missing, that one is made first. -/
def ensureDirectories (root : List Char) (fs : Files) : List (List Char) → Changed
  | [] => fs.ensureDirectory (Path.ofNames root [])
  | name :: outer =>
    let path := Path.ofNames root (name :: outer).reverse
    match fs.makeDirectory path with
    | .error .missing =>
      let around := ensureDirectories root fs outer
      if around.fault?.isSome then around else around.files.ensureDirectory path
    | _ => fs.ensureDirectory path

/-- Writes a file, with the directories that it lies in. -/
def save (fs : Files) (path text : String) : Changed :=
  let around := fs.ensureDirectories (Path.root path.toList)
    (Path.normalNames path.toList).dropLast.reverse
  if around.fault?.isSome then around
  else
    match around.files.write (Path.normal path) text with
    | .ok fs => { files := fs }
    | .error fault => { files := around.files, fault? := some fault }

end Files

end Graphwright
