import Graphwright.Json.Basic

/-!
# Hooks

Hooks transform the text of a module before it is checked and written, one after another in the
order in which they were added.
-/
namespace Graphwright

/-- A transformation of the text of a module, given the path it will be written to. -/
structure Hook where
  apply : (path content : String) → String

namespace Hook

/-- Puts a text before a module, with an empty line between them. Line feeds at the end of the text
do not count. -/
def header (text : String) : Hook :=
  let kept := (text.toList.reverse.dropWhile (· == '\n')).reverse
  ⟨fun _ content => String.ofList kept ++ "\n\n" ++ content⟩

def run (hooks : List Hook) (path content : String) : String :=
  hooks.foldl (fun content h => h.apply path content) content

/-- What is said of a value that is no hook. -/
def refusal (v : Json) : String := v.shown ++ " has no post_generate(filename, content) method"

theorem run_append (hs ks : List Hook) (path content : String) :
    run (hs ++ ks) path content = run ks path (run hs path content) := by
  simp [run]

end Hook

end Graphwright
