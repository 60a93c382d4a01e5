import Graphwright.Module.Import

/-!
# Parts of a generated module

A part is what one generator contributes to a module: a header, imports, fragments in order, and
blocks that come after them. `assemble` lays the parts out in fixed order and never reorders or
drops a nonempty fragment; `combine` joins several parts under one merged import block.
-/
namespace Graphwright.Module

/-- Sections of a module are two blank lines apart. -/
def sectionSeparator : String := "\n\n\n"

inductive Layout where
  /-- All fragments inside one enclosing declaration. -/
  | wrapped
  /-- Fragments side by side. -/
  | plain
  deriving Repr, DecidableEq

def nonempty (texts : List String) : List String := texts.filter (· ≠ "")

/-- The fragments as sections: one by one, or together inside the enclosing declaration. -/
def bodySections (body : List String) (wrap? : Option (String → String)) : List String :=
  match wrap? with
  | some wrap => [wrap ("\n\n".intercalate (nonempty body))]
  | none => nonempty body

/-- The text of a module: header, imports, fragments, further blocks. -/
def assemble (header? : Option String) (imports body extras : List String)
    (wrap? : Option (String → String)) : String :=
  let head := nonempty header?.toList
  let importSection := if imports.isEmpty then [] else ["\n".intercalate imports]
  let sections := head ++ importSection ++ bodySections body wrap? ++ nonempty extras
  sectionSeparator.intercalate (sections.map (Text.strip (· == '\n'))) ++ "\n"

/-- What one generator produced. -/
structure Part where
  header? : Option String := none
  imports : Registry := {}
  body : List String := []
  extras : List String := []
  wrap? : Option (String → String) := none

namespace Part

def layout (p : Part) : Layout := if p.wrap?.isSome then .wrapped else .plain

def render (p : Part) : String := assemble p.header? p.imports.texts p.body p.extras p.wrap?

/-- Several parts as one: the first nonempty header, one merged registry that separates typing
imports if the first part does, the fragments of each part in its own layout, and then all further
blocks. -/
def join (first : Part) (parts : List Part) : Part where
  header? := (parts.filterMap fun p => p.header?.filter (· ≠ "")).head?
  imports := parts.foldl (fun r p => r.merge p.imports) ⟨first.imports.separateTyping, []⟩
  body := parts.flatMap fun p => bodySections p.body p.wrap?
  extras := parts.flatMap (·.extras)

/-- The text of a module made of several parts; without any it is empty. -/
def combine : List Part → String
  | [] => ""
  | first :: rest => (join first (first :: rest)).render

end Part

end Graphwright.Module
