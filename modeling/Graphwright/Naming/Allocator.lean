/-!
# Fresh names

An allocator hands out names that are unique within one module: the first request for a name gets it
unchanged, later ones get the least free number from two on behind it. The search is bounded by the
number of used names, because the candidates are pairwise different.
-/
namespace Graphwright.Naming

/-- The names in use, latest first. -/
structure Allocator where
  used : List String := []
  deriving Repr

namespace Allocator

def reserve (a : Allocator) (name : String) : Allocator :=
  if name ∈ a.used then a else ⟨name :: a.used⟩

def reserveAll (a : Allocator) (names : List String) : Allocator := names.foldl reserve a

def numbered (name : String) (k : Nat) : String :=
  name ++ String.ofList (Nat.toDigits 10 k)

/-- The name itself if it is free, or else the name with the least free number from two on. -/
def fresh (a : Allocator) (name : String) : String :=
  if name ∈ a.used then
    let numbers := List.range' 2 (a.used.length + 1)
    match numbers.find? fun k => numbered name k ∉ a.used with
    | some k => numbered name k
    | none => numbered name (a.used.length + 3)
  else name

/-- Hands out a fresh name and marks it as used. -/
def allocate (a : Allocator) (name : String) : String × Allocator :=
  let chosen := a.fresh name
  (chosen, ⟨chosen :: a.used⟩)

theorem mem_used_reserve {a : Allocator} {name x : String} :
    x ∈ (a.reserve name).used ↔ x = name ∨ x ∈ a.used := by
  unfold reserve
  split
  · constructor
    · exact Or.inr
    · rintro (rfl | h) <;> assumption
  · simp

theorem mem_used_allocate {a : Allocator} {name x : String} :
    x ∈ (a.allocate name).2.used ↔ x = a.fresh name ∨ x ∈ a.used := by
  simp [allocate]

end Allocator

end Graphwright.Naming
