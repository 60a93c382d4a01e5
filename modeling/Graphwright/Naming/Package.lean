import Graphwright.Naming.Identifier
import Graphwright.Text.Quoted

/-!
# Packages and modules

The package of a generated module follows from the path it is written to: the directories of the
normalised path, without a leading `src`, each made an identifier. Relative module names are
resolved against a package.
-/
namespace Graphwright.Naming

/-- Why no package or module name can be given. -/
inductive PackageFault where
  | blankPath
  | directoryPath (path : String)
  | leavesRoot (path : String)
  | noPackage (module namespaceName : String)
  | beyondTopLevel (module namespaceName : String)
  deriving Repr, DecidableEq

def PackageFault.message : PackageFault → String
  | blankPath => "Output path is empty; cannot derive a package name"
  | directoryPath path =>
    "Output path " ++ Text.quoted path ++ " names a directory, not a file"
  | leavesRoot path =>
    "Output path " ++ Text.quoted path ++ " leaves its root directory; cannot derive a package name"
  | noPackage module package =>
    "Cannot resolve module " ++ Text.quoted module ++ " relative to " ++ Text.quoted package ++
      ": no package specified for " ++ Text.quoted module ++ " (required for relative module names)"
  | beyondTopLevel module package =>
    "Cannot resolve module " ++ Text.quoted module ++ " relative to " ++ Text.quoted package ++
      ": attempted relative import beyond top-level package"

def defaultPackage : String := "generated"

/-- One step of normalisation on the components so far, latest first: empty components and `.` are
dropped, and `..` cancels an ordinary component before it; at the root of an absolute path it is
dropped. -/
def normalStep (absolute : Bool) (done : List (List Char)) (comp : List Char) : List (List Char) :=
  if comp = [] ∨ comp = ['.'] then done
  else if comp ≠ ['.', '.'] then comp :: done
  else match done with
    | [] => if absolute then [] else [comp]
    | last :: before => if last = ['.', '.'] then comp :: done else before

/-- The components of a path with slashes, normalised. -/
def normalComponents (path : List Char) : List (List Char) :=
  let absolute := path.head? == some '/'
  ((Text.fields '/' path).foldl (normalStep absolute) []).reverse

/-- A directory name as one segment of a package name. -/
def packageSegment (segment : String) : String :=
  safeIdentifier (Text.onChars wordChars segment)

/-- The package of the module written to a path. -/
def packageOf (outputPath : String) : Except PackageFault String :=
  if outputPath.toList.all Text.isBlank then .error .blankPath
  else
    let path := outputPath.toList.map fun c => if c = '\\' then '/' else c
    if path.getLast? == some '/' then .error (.directoryPath outputPath)
    else
      let segments := (normalComponents path).dropLast
      if ['.', '.'] ∈ segments then .error (.leavesRoot outputPath)
      else
        let segments := match segments with
          | ['s', 'r', 'c'] :: rest => rest
          | _ => segments
        if segments.isEmpty then .ok defaultPackage
        else .ok (".".intercalate (segments.map fun s => packageSegment (String.ofList s)))

/-- A module name without leading dots is absolute. One dot stands for the package, every further
dot for the package around it. -/
def resolveModule (module package : String) : Except PackageFault String :=
  let level := (module.toList.takeWhile (· == '.')).length
  if level = 0 then .ok module
  else if package.isEmpty then .error (.noPackage module package)
  else
    let parts := Text.fields '.' package.toList
    if parts.length < level then .error (.beyondTopLevel module package)
    else
      let base := Text.joinWith ['.'] (parts.take (parts.length - (level - 1)))
      let name := module.toList.drop level
      .ok (String.ofList (if name.isEmpty then base else base ++ '.' :: name))

end Graphwright.Naming
