import Graphwright.Text.Lines

/-!
# Paths

Paths as texts with slashes: their components, the directory and the last name, joining, and the
usual form without empty components and dots.
-/
namespace Graphwright.Files.Path

/-- The directory part of a path and its last name. The directory keeps its slashes only if it has
nothing else. -/
def split (path : List Char) : List Char × List Char :=
  let name := (path.reverse.takeWhile (· != '/')).reverse
  let head := path.take (path.length - name.length)
  (if head.all (· == '/') then head else (head.reverse.dropWhile (· == '/')).reverse, name)

/-- A path inside a directory; an absolute one stays as it is. -/
def join (directory path : List Char) : List Char :=
  if path.head? = some '/' then path
  else if directory.isEmpty || directory.getLast? = some '/' then directory ++ path
  else directory ++ '/' :: path

def isAbsolute (path : String) : Bool := path.toList.head? = some '/'

/-- The components to walk along a path. Slashes at the end stand for the directory itself. -/
def components (path : String) : List String :=
  let names := Text.fields '/' path.toList
  let walked := (names.filter (!·.isEmpty)).map String.ofList
  if names.getLast? = some [] && !walked.isEmpty then walked ++ ["."] else walked

/-- The slashes that an absolute path begins with in its usual form: two of them are kept, any other
number is one. -/
def root (path : List Char) : List Char :=
  match path.takeWhile (· == '/') with
  | [] => []
  | ['/', '/'] => ['/', '/']
  | _ => ['/']

def normalNames (path : List Char) : List (List Char) :=
  (Text.fields '/' path).filter fun c => c ≠ [] && c ≠ ['.']

/-- A path of some names in its usual form; a path without any is a dot. -/
def ofNames (root : List Char) (names : List (List Char)) : String :=
  let path := root ++ Text.joinWith ['/'] names
  if path.isEmpty then "." else String.ofList path

def normal (path : String) : String := ofNames (root path.toList) (normalNames path.toList)

/-- The path of the directory that a path is in. -/
def parent (path : String) : String := ofNames (root path.toList) (normalNames path.toList).dropLast

def lastName (path : String) : String := String.ofList ((normalNames path.toList).getLastD [])

end Graphwright.Files.Path
