import Graphwright.Document.Syntax

/-!
# Fragments in use

The fragments that selections spread, and those that they reach through the spreads of fragments. A
search visits a fragment once, so it ends also where fragments spread each other; the measure is the
number of fragments that are not yet visited.
-/
namespace Graphwright.Document

mutual

/-- The names spread in a selection, in order, with repetitions. -/
def Selection.spreads : Selection → List String
  | .field _ _ _ _ sub? => spreadsBelow sub?
  | .spread fragment _ => [fragment]
  | .inline _ _ sub => spreadsIn sub

/-- The names spread below a field, in order, with repetitions. -/
def spreadsBelow : Option (List Selection) → List String
  | none => []
  | some sub => spreadsIn sub

/-- The names spread in selections, in order, with repetitions. -/
def spreadsIn : List Selection → List String
  | [] => []
  | s :: rest => s.spreads ++ spreadsIn rest

end

/-- The names spread in selections, each once, in order of first use. -/
def spreads (ss : List Selection) : List String := (spreadsIn ss).eraseDups

/-- The names spread in a definition, each once, in order of first use. -/
def Definition.spreads : Definition → List String
  | .operation o => Document.spreads o.selections
  | .fragment f => Document.spreads f.selections
  | _ => []

/-- The fragments of a document by name; of two with one name the later counts. -/
def fragmentsOf (d : Document) : List (String × Fragment) :=
  d.definitions.reverse.filterMap fun
    | .fragment f => some (f.name, f)
    | _ => none

def unvisited (fragments : List (String × Fragment)) (visited : List String) :
    List (String × Fragment) :=
  fragments.filter (!visited.contains ·.1)

theorem unvisited_concat (fragments : List (String × Fragment)) (visited : List String)
    (name : String) :
    unvisited fragments (visited ++ [name]) =
      (unvisited fragments visited).filter (·.1 != name) := by
  simp only [unvisited, List.filter_filter]
  apply List.filter_congr
  intro p _
  by_cases hp : p.1 = name <;> simp [hp]

theorem exists_mem_of_lookup {fragments : List (String × Fragment)} {name : String}
    (h : (fragments.lookup name).isSome) : ∃ p ∈ fragments, p.1 = name := by
  induction fragments with
  | nil => simp at h
  | cons p rest ih =>
    by_cases hp : p.1 = name
    · exact ⟨p, by simp, hp⟩
    · have hne : (name == p.1) = false := by simpa using fun h => hp h.symm
      rw [List.lookup_cons, hne] at h
      obtain ⟨q, hq, hn⟩ := ih h
      exact ⟨q, List.mem_cons_of_mem _ hq, hn⟩

/-- Visiting a fragment leaves fewer that are not visited. -/
theorem length_unvisited_lt {fragments : List (String × Fragment)} {visited : List String}
    {name : String} (h : (fragments.lookup name).isSome) (hv : name ∉ visited) :
    (unvisited fragments (visited ++ [name])).length < (unvisited fragments visited).length := by
  obtain ⟨p, hp, rfl⟩ := exists_mem_of_lookup h
  rw [unvisited_concat]
  exact List.length_filter_lt_length_iff_exists.mpr ⟨p, by simp [unvisited, hp, hv], by simp⟩

/-- The fragments reached from the pending names, depth first, after those visited before; a name
without a fragment fails. -/
def reachableFrom (fragments : List (String × Fragment)) (visited : List String) :
    List String → Except String (List String)
  | [] => .ok visited
  | name :: pending =>
    if _hv : name ∈ visited then reachableFrom fragments visited pending
    else
      match _h : fragments.lookup name with
      | none => .error name
      | some f => reachableFrom fragments (visited ++ [name]) (spreads f.selections ++ pending)
termination_by pending => ((unvisited fragments visited).length, pending.length)
decreasing_by
  · exact Prod.Lex.right _ (Nat.lt_succ_self _)
  · exact Prod.Lex.left _ _ (length_unvisited_lt (by simp [_h]) _hv)

/-- The fragments that selections reach through spreads, in order of first use, or the name of one
that does not exist. -/
def reachable (fragments : List (String × Fragment)) (ss : List Selection) :
    Except String (List Fragment) :=
  do
  let names ← reachableFrom fragments [] (spreads ss)
  return names.filterMap fun name => fragments.lookup name

end Graphwright.Document
