import Graphwright.Files.Load
import Graphwright.Generator

/-!
# The command line

Commands, their options, and what a command does to a tree of files: it reads a schema, documents
and options, and writes one module if everything went well. A failure leaves the files as they were;
only where the module itself cannot be written, directories may have been made for it. The text of
the help is left out.
-/
namespace Graphwright.CommandLine

/-! ## Options of commands -/

inductive Flag where
  | schema
  | output
  | config
  | header
  | documents
  | plugin
  | verbose
  | help
  deriving Repr, DecidableEq

namespace Flag

def long : Flag → String
  | schema => "schema"
  | output => "output"
  | config => "config"
  | header => "header"
  | documents => "documents"
  | plugin => "plugin"
  | verbose => "verbose"
  | help => "help"

/-- The letter of an option, if it has one. -/
def short? : Flag → Option Char
  | schema => some 's'
  | output => some 'o'
  | config => some 'c'
  | header => none
  | documents => some 'd'
  | plugin => some 'p'
  | verbose => some 'v'
  | help => none

def takesValue (f : Flag) : Bool := f ≠ verbose && f ≠ help

end Flag

inductive Command where
  | generate
  | client
  | resolvers
  deriving Repr, DecidableEq

namespace Command

def name : Command → String
  | generate => "generate"
  | client => "client"
  | resolvers => "resolvers"

def ofName? (n : String) : Option Command := [generate, client, resolvers].find? (·.name == n)

def flags (c : Command) : List Flag :=
  [.schema, .output, .config, .header, .verbose, .help] ++
    match c with
    | generate => [.documents, .plugin]
    | client => [.documents]
    | resolvers => []

/-- The options that a command cannot do without. -/
def required (c : Command) : List Flag :=
  [.schema, .output] ++
    match c with
    | generate => [.plugin]
    | client => [.documents]
    | resolvers => []

def flag? (c : Command) (p : Flag → Bool) : Option Flag := c.flags.find? p

end Command

/-- Reads the letters of an argument: every option without a value may be followed by another
letter, and what follows one with a value is its value. Answers the values and the remaining
arguments. -/
def letters (c : Command) : List Char → List String → Option (List (Flag × String) × List String)
  | [], rest => some ([], rest)
  | l :: more, rest =>
    match c.flag? fun f => f.short? == some l with
    | none => none
    | some f =>
      if f.takesValue then
        if more.isEmpty then
          match rest with
          | v :: rest => some ([(f, v)], rest)
          | [] => none
        else some ([(f, String.ofList more)], rest)
      else (letters c more rest).map fun (found, rest) => ((f, "") :: found, rest)

def longOption (c : Command) (body : List Char) (rest : List String) :
    Option (List (Flag × String) × List String) :=
  let name := String.ofList (body.takeWhile (· != '='))
  let value? := if body.contains '=' then some (String.ofList ((body.dropWhile (· != '=')).drop 1))
    else none
  match c.flag? fun f => f.long == name with
  | none => none
  | some f =>
    if f.takesValue then
      match value?, rest with
      | some v, _ => some ([(f, v)], rest)
      | none, v :: rest => some ([(f, v)], rest)
      | none, [] => none
    else if value?.isSome then none
    else some ([(f, "")], rest)

/-- The values of the options in the arguments of a command, in order, and the arguments that belong
to no option. -/
def values (c : Command) : (fuel : Nat) → List String → Option (List (Flag × String) × List String)
  | _, [] => some ([], [])
  | 0, _ => none
  | fuel + 1, a :: rest =>
    let read := match a.toList with
      | '-' :: '-' :: [] => some ([], rest, [])
      | '-' :: '-' :: body => (longOption c body rest).map fun (found, rest) => (found, [], rest)
      | '-' :: l :: more => (letters c (l :: more) rest).map fun (found, rest) => (found, [], rest)
      | _ => some ([], [a], rest)
    match read with
    | none => none
    | some (found, others, rest) =>
      (values c fuel rest).map fun (more, later) => (found ++ more, others ++ later)

structure Request where
  schema : String
  output : String
  config? : Option String
  header? : Option String
  documents : List String
  generators : List Generator
  verbose : Bool

def last? (vs : List (Flag × String)) (f : Flag) : Option String :=
  (vs.reverse.find? (·.1 == f)).map (·.2)

def allOf (vs : List (Flag × String)) (f : Flag) : List String :=
  (vs.filter (·.1 == f)).map (·.2)

/-- The request that a command and the values of its options make; none if a value is missing or
cannot be used: the schema and the file of options have to exist, and the output is no directory. -/
def request? (fs : Files) (c : Command) (vs : List (Flag × String)) : Option Request := do
  if !c.required.all fun f => vs.any (·.1 == f) then none
  let schema ← last? vs .schema
  let output ← last? vs .output
  let config? := last? vs .config
  let generators ← match c with
    | .generate => (allOf vs .plugin).mapM Generator.ofName?
    | .client => some Generator.clientSet
    | .resolvers => some [.resolvers]
  if !fs.exists schema || fs.isDirectory output then none
  if config?.any fun path => !fs.exists path || fs.isDirectory path then none
  return {
    schema, output, config?, generators
    header? := (last? vs .header).filter (· ≠ "")
    documents := allOf vs .documents
    verbose := vs.any (·.1 == .verbose) }

inductive Asked where
  | help
  | run (r : Request)

/-- What some arguments ask for, if they can be understood. Where help is asked for, nothing else
counts. -/
def asked? (fs : Files) (arguments : List String) : Option Asked :=
  let arguments := match arguments with
    | "--" :: rest => rest
    | _ => arguments
  match arguments with
  | [] => none
  | name :: rest => do
    let c ← Command.ofName? name
    let (vs, others) ← values c rest.length rest
    if vs.any (·.1 == .help) then return .help
    if !others.isEmpty then none
    return .run (← request? fs c vs)

/-! ## Running -/

/-- How a run ended. -/
inductive Ending where
  | success
  /-- Help was asked for. -/
  | help
  /-- The arguments ask for nothing that could be done. -/
  | usage
  /-- The run failed and said why. -/
  | reported (e : Error)
  /-- The run broke off. -/
  | broken (e : Error)

def Ending.code : Ending → Nat
  | success | help => 0
  | usage => 2
  | reported _ | broken _ => 1

/-- A run: how it ended, the lines it printed on the way, what it warned of, and the files after
it. -/
structure Outcome where
  ending : Ending
  lines : List String := []
  warnings : List Warning := []
  files : Files

/-- A failure of the generation that is reported. -/
def isReported : Error → Bool
  | .document .truncated | .blankDescription | .longInteger => false
  | _ => true

/-- The line that a failure is reported by; the report of a syntax error has several lines. -/
def report : Error → String
  | .document (.grammar e) => "Error: " ++ e.report
  | e => "Error: " ++ e.message

/-- The lines by which a run tells how it failed. -/
def Outcome.reports (o : Outcome) : List String :=
  match o.ending with
  | .reported e => [report e]
  | _ => []

/-- The lines that tell what is going to be done. -/
def introduction (r : Request) : List String :=
  if r.verbose then
    ["Schema: " ++ r.schema, "Plugins: " ++ ", ".intercalate (r.generators.map (·.name)),
      "Output: " ++ Files.Path.normal r.output]
  else []

structure Input where
  schema : Schema
  documents : List Files.Loaded

def load (fs : Files) (r : Request) : Except Error Input := do
  let schema ← fs.loadSchema r.schema
  let documents ← fs.loadDocuments r.documents
  return { schema, documents }

def summary (r : Request) (i : Input) : List String :=
  if r.verbose then
    ["  Types: " ++ Json.intText i.schema.typeNames.length,
      "  Documents: " ++ Json.intText i.documents.length]
  else []

def moduleText (fs : Files) (r : Request) (i : Input) : Run String :=
  let options := match r.config? with
    | some path => fs.loadOptions path
    | none => .ok {}
  generate (r.generators.map (·.name)) i.schema
    (Document.concat (i.documents.map (·.document))) options
    r.output (r.header?.toList.map Hook.header)

/-- The end of a run that failed before anything was written. -/
def failed (fs : Files) (lines : List String) (warnings : List Warning) (e : Error) : Outcome :=
  { ending := if isReported e then .reported e else .broken e, lines, warnings, files := fs }

def perform (fs : Files) (r : Request) : Outcome :=
  let lines := introduction r ++ ["Parsing schema..."]
  match load fs r with
  | .error e => failed fs lines [] e
  | .ok i =>
    let lines := lines ++ summary r i ++ ["Generating code..."]
    match (moduleText fs r i).run [] with
    | .error e warnings => failed fs lines warnings e
    | .ok text warnings =>
      let saved := fs.save r.output text
      match saved.fault? with
      | some fault =>
        { ending := .broken (.file r.output fault), lines, warnings, files := saved.files }
      | none =>
        { ending := .success, warnings, files := saved.files
          lines := lines ++ ["Done! Generated " ++ Files.Path.normal r.output] }

/-- Runs the command line with some arguments on some files. -/
def run (fs : Files) (arguments : List String) : Outcome :=
  match asked? fs arguments with
  | none => { ending := .usage, files := fs }
  | some .help => { ending := .help, files := fs }
  | some (.run r) => perform fs r

end Graphwright.CommandLine
