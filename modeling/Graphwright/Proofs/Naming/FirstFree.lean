import Graphwright.Proofs.Naming.Fresh
import Mathlib.Data.Nat.Find

/-!
# The first free name

An allocator tries a name, and as long as what it tries is in use, the name with the next number
from two on. `attempt name n` is what it tries after `n` rounds. No bound stops the search; it ends
because the attempts are pairwise different (`tried_injective`) and only finitely many names are in
use: after at most as many rounds as there are such names, a free one is tried
(`exists_free_attempt`).

* `allocate_first_free`: after any calls, a request gets the attempt at which the search ends, that
  is the name itself if it is free and otherwise the least free number behind it. This name and no
  other comes into use, so it is none of those that were reserved or handed out before.
-/
namespace Graphwright.Naming.Allocator

/-! ## Attempts -/

/-- What is tried, and the number that comes next. -/
structure Attempt where
  tried : String
  next : Nat

/-- The attempt after a number of rounds, each of which found that what was tried is in use. -/
def attempt (name : String) : Nat → Attempt
  | 0 => ⟨name, 2⟩
  | n + 1 =>
    let before := attempt name n
    ⟨numbered name before.next, before.next + 1⟩

theorem attempt_next (name : String) (n : Nat) : (attempt name n).next = n + 2 := by
  induction n with
  | zero => rfl
  | succ n ih => simp only [attempt, ih]

@[simp] theorem tried_zero (name : String) : (attempt name 0).tried = name := rfl

@[simp] theorem tried_succ (name : String) (n : Nat) :
    (attempt name (n + 1)).tried = numbered name (n + 2) := by
  simp only [attempt, attempt_next]

theorem numbered_ne (name : String) (k : Nat) : numbered name k ≠ name := by
  intro h
  have hlength := congrArg String.length h
  have hpos : 0 < (Nat.toDigits 10 k).length := Nat.length_toDigits_pos
  rw [numbered, String.length_append, String.length_ofList] at hlength
  omega

theorem tried_injective (name : String) : Function.Injective fun n => (attempt name n).tried := by
  intro m n h
  cases m with
  | zero =>
    cases n with
    | zero => rfl
    | succ n => exact absurd h.symm (by simpa using numbered_ne name (n + 2))
  | succ m =>
    cases n with
    | zero => exact absurd h (by simpa using numbered_ne name (m + 2))
    | succ n =>
      have hnumbers : numbered name (m + 2) = numbered name (n + 2) := by simpa using h
      have := numbered_injective name hnumbers
      omega

/-- The search ends, after at most as many rounds as there are names in use. -/
theorem exists_free_attempt (used : List String) (name : String) :
    ∃ n ≤ used.length, (attempt name n).tried ∉ used ∧ ∀ m < n, (attempt name m).tried ∈ used := by
  have hexists : ∃ n, (attempt name n).tried ∉ used := by
    by_cases h : name ∈ used
    · obtain ⟨k, hk, hfree⟩ := exists_free used name
      obtain ⟨n, rfl⟩ : ∃ n, k = n + 2 := ⟨k - 2, by have := (List.mem_range'_1.mp hk).1; omega⟩
      exact ⟨n + 1, by rwa [tried_succ]⟩
    · exact ⟨0, h⟩
  obtain ⟨n, hfree, hbefore⟩ : ∃ n, (attempt name n).tried ∉ used ∧
      ∀ m < n, (attempt name m).tried ∈ used :=
    ⟨Nat.find hexists, Nat.find_spec hexists, fun _ hm => not_not.mp (Nat.find_min hexists hm)⟩
  refine ⟨n, ?_, hfree, hbefore⟩
  -- the attempts that failed are different names in use
  have hnodup : ((List.range n).map fun m => (attempt name m).tried).Nodup :=
    List.nodup_range.map (tried_injective name)
  have hsub : ((List.range n).map fun m => (attempt name m).tried) ⊆ used := by
    intro x hx
    obtain ⟨m, hm, rfl⟩ := List.mem_map.mp hx
    exact hbefore m (List.mem_range.mp hm)
  simpa using (hnodup.subperm hsub).length_le

/-- What is handed out is the attempt at which the search ends. -/
theorem fresh_eq_tried {a : Allocator} {name : String} {n : Nat}
    (hfree : (attempt name n).tried ∉ a.used) (hbefore : ∀ m < n, (attempt name m).tried ∈ a.used) :
    a.fresh name = (attempt name n).tried := by
  cases n with
  | zero => exact if_neg hfree
  | succ n =>
    have hused : name ∈ a.used := hbefore 0 n.succ_pos
    obtain ⟨k, hk, hfresh, hkfree, hleast⟩ := exists_numbered_fresh hused
    obtain ⟨l, rfl⟩ : ∃ l, k = l + 2 := ⟨k - 2, by omega⟩
    rw [hfresh, tried_succ]
    rw [tried_succ] at hfree
    have hle : l ≤ n := by
      by_contra h
      exact hfree (hleast (n + 2) (by omega) (by omega))
    have hge : n ≤ l := by
      by_contra h
      exact hkfree (by simpa using hbefore (l + 1) (by omega))
    rw [Nat.le_antisymm hle hge]

/-! ## Calls -/

inductive Call where
  | reserve (name : String)
  | allocate (name : String)

/-- Calls one after another: the names that they reserve or hand out, and the allocator after
them. -/
def serve (a : Allocator) : List Call → List String × Allocator
  | [] => ([], a)
  | .reserve name :: rest =>
    let later := (a.reserve name).serve rest
    (name :: later.1, later.2)
  | .allocate name :: rest =>
    let given := a.allocate name
    let later := given.2.serve rest
    (given.1 :: later.1, later.2)

/-- In use is what was in use before and what the calls have taken. -/
theorem mem_used_serve {a : Allocator} {calls : List Call} {x : String} :
    x ∈ (a.serve calls).2.used ↔ x ∈ (a.serve calls).1 ∨ x ∈ a.used := by
  induction calls generalizing a with
  | nil => simp [serve]
  | cons call rest ih =>
    cases call with
    | reserve name =>
      simp only [serve, ih, mem_used_reserve, List.mem_cons]
      tauto
    | allocate name =>
      have hgiven : (a.allocate name).1 = a.fresh name := rfl
      simp only [serve, ih, mem_used_allocate, hgiven, List.mem_cons]
      tauto

/-- **First free name.** Let an allocator start with any reserved names and serve any calls. The
search for a name ends after at most as many rounds as there are names in use; what it ends with is
handed out. This is the name itself if it is free, or else the name with the least free number from
two on. It comes into use, and nothing else does; neither was it reserved nor handed out before. -/
theorem allocate_first_free (reserved : List String) (calls : List Call) (name : String) :
    let run := (reserveAll {} reserved).serve calls
    let a := run.2
    let given := (a.allocate name).1
    (∃ n ≤ a.used.length, given = (attempt name n).tried ∧ (attempt name n).tried ∉ a.used ∧
      ∀ m < n, (attempt name m).tried ∈ a.used) ∧
    (name ∉ a.used → given = name) ∧
    (name ∈ a.used → ∃ k, 2 ≤ k ∧ given = numbered name k ∧ numbered name k ∉ a.used ∧
      ∀ l, 2 ≤ l → l < k → numbered name l ∈ a.used) ∧
    (∀ x, x ∈ (a.allocate name).2.used ↔ x = given ∨ x ∈ a.used) ∧
    given ∉ reserved ∧ given ∉ run.1 := by
  intro run a given
  have hnew : given ∉ a.used := fresh_not_mem_used a name
  refine ⟨?_, fun hfree => if_neg hfree, exists_numbered_fresh, fun x => mem_used_allocate, ?_, ?_⟩
  · obtain ⟨n, hn, hfree, hbefore⟩ := exists_free_attempt a.used name
    exact ⟨n, hn, fresh_eq_tried hfree hbefore, hfree, hbefore⟩
  · exact fun h => hnew (mem_used_serve.mpr (.inr (mem_used_reserveAll.mpr (.inl h))))
  · exact fun h => hnew (mem_used_serve.mpr (.inl h))

/-- Numbers that are reserved or were asked for as names are passed over. -/
example : ((reserveAll {} ["User3"]).serve
    [.allocate "User", .allocate "User2", .reserve "User4", .allocate "User"]).1 =
      ["User", "User2", "User4", "User5"] := by decide

end Graphwright.Naming.Allocator
