import Graphwright.Naming.Allocator
import Mathlib.Data.List.Nodup
import Mathlib.Data.List.Perm.Subperm

/-!
# Freshness

The candidates for a name are pairwise different, so the bounded search of an allocator always finds
one that is not in use (`exists_numbered_fresh`), and what it hands out is new
(`fresh_not_mem_used`) and the name that was asked for, but for digits behind it (`extends_fresh`).

`Hands a names b` sums up a run of requests that leads from the names in use in `a` to those in `b`:
the names handed out are pairwise different, none of them was in use, and only they have been added.
Runs compose (`Hands.append`), so whoever only ever asks an allocator for names inherits that they
differ. A list of requests is such a run (`Hands.allocateAll`).
-/
namespace Graphwright.Naming.Allocator

/-! ## The search -/

theorem numbered_injective (name : String) : Function.Injective (numbered name) := by
  intro k l h
  have hdigits : Nat.toDigits 10 k = Nat.toDigits 10 l :=
    String.ofList_injective ((String.append_right_inj name).mp h)
  calc
    k = Nat.ofDigitChars 10 (Nat.toDigits 10 k) 0 := Nat.ofDigitChars_ten_toDigits.symm
    _ = Nat.ofDigitChars 10 (Nat.toDigits 10 l) 0 := by rw [hdigits]
    _ = l := Nat.ofDigitChars_ten_toDigits

/-- Some of the numbers that are tried are free: there is one more of them than names in use. -/
theorem exists_free (used : List String) (name : String) :
    ∃ k ∈ List.range' 2 (used.length + 1), numbered name k ∉ used := by
  by_contra h
  push Not at h
  have hsub : (List.range' 2 (used.length + 1)).map (numbered name) ⊆ used := by
    intro x hx
    obtain ⟨k, hk, rfl⟩ := List.mem_map.mp hx
    exact h k hk
  have hnodup := (List.nodup_range' (s := 2) (n := used.length + 1)).map (numbered_injective name)
  have hle := (hnodup.subperm hsub).length_le
  rw [List.length_map, List.length_range'] at hle
  omega

/-- A name in use gets the least number from two on that makes it new. -/
theorem exists_numbered_fresh {a : Allocator} {name : String} (h : name ∈ a.used) :
    ∃ k, 2 ≤ k ∧ a.fresh name = numbered name k ∧ numbered name k ∉ a.used ∧
      ∀ l, 2 ≤ l → l < k → numbered name l ∈ a.used := by
  unfold fresh
  rw [if_pos h]
  simp only
  split
  · rename_i k hk
    obtain ⟨hfree, hmem, hleast⟩ := List.find?_range'_eq_some.mp hk
    refine ⟨k, (List.mem_range'_1.mp hmem).1, rfl, of_decide_eq_true hfree, fun l hl hlt => ?_⟩
    simpa using hleast l hl hlt
  · rename_i hnone
    obtain ⟨k, hk, hfree⟩ := exists_free a.used name
    exact absurd (decide_eq_true hfree) (List.find?_eq_none.mp hnone k hk)

theorem fresh_not_mem_used (a : Allocator) (name : String) : a.fresh name ∉ a.used := by
  by_cases h : name ∈ a.used
  · obtain ⟨k, -, hk, hfree, -⟩ := exists_numbered_fresh h
    rw [hk]
    exact hfree
  · unfold fresh
    rwa [if_neg h]

/-- The name as it is, or with digits behind it. -/
def Extends (name n : String) : Prop :=
  ∃ digits : List Char, (∀ c ∈ digits, c.isDigit) ∧ n.toList = name.toList ++ digits

/-- A fresh name is the one that was asked for, perhaps with a number behind it. -/
theorem extends_fresh (a : Allocator) (name : String) : Extends name (a.fresh name) := by
  by_cases h : name ∈ a.used
  · obtain ⟨k, -, hk, -, -⟩ := exists_numbered_fresh h
    refine ⟨Nat.toDigits 10 k,
      fun c hc => Nat.isDigit_of_mem_toDigits (by decide) (by decide) hc, ?_⟩
    rw [hk, numbered, String.toList_append, String.toList_ofList]
  · refine ⟨[], by simp, ?_⟩
    rw [fresh, if_neg h, List.append_nil]

theorem mem_used_reserveAll {a : Allocator} {names : List String} {x : String} :
    x ∈ (a.reserveAll names).used ↔ x ∈ names ∨ x ∈ a.used := by
  unfold reserveAll
  induction names generalizing a with
  | nil => simp
  | cons name rest ih =>
    rw [List.foldl_cons, ih, mem_used_reserve, List.mem_cons]
    tauto

/-! ## Runs of requests -/

/-- Hands out fresh names one after another. -/
def allocateAll (a : Allocator) : List String → List String × Allocator
  | [] => ([], a)
  | name :: rest =>
    let first := a.allocate name
    let more := first.2.allocateAll rest
    (first.1 :: more.1, more.2)

/-- From `a` to `b` these names were handed out, and no others came into use. -/
structure Hands (a : Allocator) (names : List String) (b : Allocator) : Prop where
  nodup : names.Nodup
  unused : ∀ n ∈ names, n ∉ a.used
  used : ∀ x, x ∈ b.used ↔ x ∈ names ∨ x ∈ a.used

namespace Hands

variable {a b c : Allocator} {names more : List String}

theorem refl (a : Allocator) : Hands a [] a :=
  ⟨List.nodup_nil, by simp, by simp⟩

theorem allocate (a : Allocator) (name : String) :
    Hands a [(a.allocate name).1] (a.allocate name).2 where
  nodup := List.nodup_singleton _
  unused n hn := by
    rw [List.mem_singleton.mp hn]
    exact fresh_not_mem_used a name
  used x := by
    rw [mem_used_allocate, List.mem_singleton]
    rfl

/-- Names that are handed out later differ from the earlier ones, which are in use by then. -/
theorem append (h : Hands a names b) (h' : Hands b more c) : Hands a (names ++ more) c where
  nodup := by
    refine List.nodup_append.mpr ⟨h.nodup, h'.nodup, fun n hn m hm heq => ?_⟩
    exact h'.unused m hm ((h.used m).mpr (.inl (heq ▸ hn)))
  unused n hn := by
    rcases List.mem_append.mp hn with hn | hn
    · exact h.unused n hn
    · exact fun ha => h'.unused n hn ((h.used n).mpr (.inr ha))
  used x := by
    rw [h'.used, h.used, List.mem_append]
    tauto

theorem allocateAll (a : Allocator) (requests : List String) :
    Hands a (a.allocateAll requests).1 (a.allocateAll requests).2 := by
  induction requests generalizing a with
  | nil => exact refl a
  | cons name rest ih => exact (Hands.allocate a name).append (ih (a.allocate name).2)

theorem perm (h : Hands a names b) (hp : names.Perm more) : Hands a more b where
  nodup := hp.nodup_iff.mp h.nodup
  unused n hn := h.unused n (hp.mem_iff.mpr hn)
  used x := by rw [h.used, hp.mem_iff]

/-- What was reserved at first is not handed out. -/
theorem not_mem_of_reserved {reserved : List String} (h : Hands (reserveAll {} reserved) names b) :
    ∀ n ∈ names, n ∉ reserved :=
  fun n hn hr => h.unused n hn (mem_used_reserveAll.mpr (.inl hr))

end Hands

end Graphwright.Naming.Allocator
