import Graphwright.Module.Part
import Mathlib.Data.List.Nodup

/-!
# Merged registries

Merging adds the imports of registries one by one, and what comes of it is a matter of all these
imports in order (`foldl_merge`): of those with one symbol and module the first is kept, with its
alias, and it is needed when the module runs if any of them is (`joint`).
-/
namespace Graphwright.Module

namespace Registry

/-! ## The first import of each key -/

/-- The imports that are the first with their symbol and module. -/
def firsts : List Import → List Import
  | [] => []
  | i :: rest => i :: (firsts rest).filter (·.key ≠ i.key)

theorem mem_of_mem_firsts {is : List Import} {i : Import} (h : i ∈ firsts is) : i ∈ is := by
  induction is with
  | nil => exact h
  | cons j rest ih =>
    rcases List.mem_cons.mp h with rfl | h
    · exact List.mem_cons_self
    · exact List.mem_cons_of_mem _ (ih (List.mem_of_mem_filter h))

theorem exists_firsts {is : List Import} {i : Import} (h : i ∈ is) :
    ∃ j ∈ firsts is, j.key = i.key := by
  induction is with
  | nil => cases h
  | cons j rest ih =>
    by_cases hkey : i.key = j.key
    · exact ⟨j, List.mem_cons_self, hkey.symm⟩
    · obtain ⟨k, hk, hki⟩ := ih ((List.mem_cons.mp h).resolve_left fun h => hkey (h ▸ rfl))
      refine ⟨k, List.mem_cons_of_mem _ (List.mem_filter.mpr ⟨hk, ?_⟩), hki⟩
      simpa [hki] using hkey

theorem nodup_firsts (is : List Import) : ((firsts is).map (·.key)).Nodup := by
  induction is with
  | nil => exact List.nodup_nil
  | cons i rest ih =>
    refine List.nodup_cons.mpr ⟨fun h => ?_, ih.sublist (List.filter_sublist.map _)⟩
    obtain ⟨j, hj, hkey⟩ := List.mem_map.mp h
    exact of_decide_eq_true (List.mem_filter.mp hj).2 hkey

/-- A further import is a first one if its key is new. -/
theorem firsts_concat (is : List Import) (i : Import) :
    firsts (is ++ [i]) = if ∃ j ∈ is, j.key = i.key then firsts is else firsts is ++ [i] := by
  induction is with
  | nil => simp [firsts]
  | cons j rest ih =>
    rw [List.cons_append, firsts, ih, firsts]
    by_cases hj : j.key = i.key
    · have hpos : ∃ k ∈ j :: rest, k.key = i.key := ⟨j, List.mem_cons_self, hj⟩
      simp only [if_pos hpos]
      split
      · rfl
      · rw [List.filter_append, List.filter_cons_of_neg (by simp [hj]), List.filter_nil,
          List.append_nil]
    · have hiff : (∃ k ∈ j :: rest, k.key = i.key) ↔ ∃ k ∈ rest, k.key = i.key := by simp [hj]
      simp only [hiff]
      split
      · rfl
      · rw [List.filter_append, List.filter_cons_of_pos (by simpa using Ne.symm hj),
          List.filter_nil, List.cons_append]

/-! ## All imports as one list -/

/-- When a symbol of a module is needed, by some imports. -/
def kindOf (is : List Import) (key : String × String) : ImportKind :=
  if ∃ i ∈ is, i.key = key ∧ i.kind = .runtime then .runtime else .typing

/-- The imports of several registries as those of one. -/
def joint (is : List Import) : List Import :=
  (firsts is).map fun i => { i with kind := kindOf is i.key }

theorem exists_joint {is : List Import} {i : Import} (h : i ∈ is) :
    ∃ k ∈ joint is, k.key = i.key ∧ (i.kind = .runtime → k.kind = .runtime) := by
  obtain ⟨j, hj, hkey⟩ := exists_firsts h
  exact ⟨_, List.mem_map_of_mem hj, hkey, fun hkind => if_pos ⟨i, h, hkey.symm, hkind⟩⟩

theorem exists_of_mem_joint {is : List Import} {k : Import} (h : k ∈ joint is) :
    ∃ i ∈ is, k.key = i.key ∧ k.asName? = i.asName? := by
  obtain ⟨j, hj, rfl⟩ := List.mem_map.mp h
  exact ⟨j, mem_of_mem_firsts hj, rfl, rfl⟩

theorem nodup_joint (is : List Import) : ((joint is).map (·.key)).Nodup := by
  have hkeys : (joint is).map (·.key) = (firsts is).map (·.key) := by
    simp [joint, Import.key, Function.comp_def]
  exact hkeys ▸ nodup_firsts is

theorem eq_of_key_joint {is : List Import} {k l : Import} (hk : k ∈ joint is) (hl : l ∈ joint is)
    (h : k.key = l.key) : k = l :=
  List.inj_on_of_nodup_map (nodup_joint is) hk hl h

theorem kindOf_concat (is : List Import) (i : Import) (key : String × String) :
    kindOf (is ++ [i]) key = if i.key = key ∧ i.kind = .runtime then .runtime
      else kindOf is key := by
  have hiff : (∃ j ∈ is ++ [i], j.key = key ∧ j.kind = .runtime) ↔
      (i.key = key ∧ i.kind = .runtime) ∨ ∃ j ∈ is, j.key = key ∧ j.kind = .runtime := by
    simp only [List.mem_append, List.mem_singleton]
    grind
  unfold kindOf
  simp only [hiff]
  by_cases h : i.key = key ∧ i.kind = .runtime
  · rw [if_pos h, if_pos (.inl h)]
  · simp only [h, false_or, if_false]

/-- An import with a new key is added behind the others. -/
theorem joint_concat_new {is : List Import} {i : Import} (h : ¬ ∃ j ∈ is, j.key = i.key) :
    joint (is ++ [i]) = joint is ++ [i] := by
  have hold : (firsts is).map (fun j => { j with kind := kindOf (is ++ [i]) j.key }) =
      joint is := by
    refine List.map_congr_left fun j hj => ?_
    rw [kindOf_concat, if_neg fun hi => h ⟨j, mem_of_mem_firsts hj, hi.1.symm⟩]
  have hkind : kindOf (is ++ [i]) i.key = i.kind := by
    rw [kindOf_concat]
    cases hi : i.kind with
    | runtime => exact if_pos ⟨rfl, rfl⟩
    | typing => rw [if_neg (by simp), kindOf, if_neg fun ⟨j, hj, hji, _⟩ => h ⟨j, hj, hji⟩]
  rw [joint, firsts_concat, if_neg h, List.map_append, hold, List.map_singleton, hkind]

/-- An import with a known key may only make it needed when the module runs. -/
theorem joint_concat_known {is : List Import} {i : Import} (h : ∃ j ∈ is, j.key = i.key) :
    joint (is ++ [i]) = (joint is).map fun old =>
      if old.key = i.key ∧ i.kind = .runtime then { old with kind := .runtime } else old := by
  rw [joint, firsts_concat, if_pos h, joint, List.map_map]
  refine List.map_congr_left fun j _ => ?_
  rw [kindOf_concat, Function.comp_apply]
  by_cases hi : i.key = j.key ∧ i.kind = .runtime
  · rw [if_pos hi]
    exact (if_pos ⟨hi.1.symm, hi.2⟩).symm
  · rw [if_neg hi]
    exact (if_neg fun hj => hi ⟨hj.1.symm, hj.2⟩).symm

theorem exists_key_joint {is : List Import} {key : String × String} :
    (∃ k ∈ joint is, k.key = key) ↔ ∃ j ∈ is, j.key = key := by
  constructor
  · rintro ⟨k, hk, rfl⟩
    obtain ⟨j, hj, hkj, -⟩ := exists_of_mem_joint hk
    exact ⟨j, hj, hkj.symm⟩
  · rintro ⟨j, hj, rfl⟩
    obtain ⟨k, hk, hkj, -⟩ := exists_joint hj
    exact ⟨k, hk, hkj⟩

/-- **Step.** Absorbing an import is adding it to the list. -/
theorem absorb_joint (separate : Bool) (is : List Import) (i : Import) :
    absorb ⟨separate, joint is⟩ i = ⟨separate, joint (is ++ [i])⟩ := by
  unfold absorb
  cases hget : get? ⟨separate, joint is⟩ i.symbol i.source with
  | none =>
    have hnew : ¬ ∃ k ∈ joint is, k.key = i.key := by
      rintro ⟨k, hk, hkey⟩
      exact List.find?_eq_none.mp hget k hk (decide_eq_true hkey)
    have hany : ¬ (joint is).any (fun k => k.key = i.key) := by simpa using hnew
    rw [joint_concat_new fun h => hnew (exists_key_joint.mpr h)]
    exact if_neg hany
  | some old =>
    have hkey := List.find?_some (p := fun k : Import => k.key = (i.symbol, i.source)) hget
    have hknown : ∃ k ∈ joint is, k.key = i.key :=
      ⟨old, List.mem_of_find?_eq_some hget, of_decide_eq_true hkey⟩
    rw [joint_concat_known (exists_key_joint.mp hknown)]
    by_cases hkind : i.kind = .runtime
    · simp only [hkind, and_true, if_true]
    · simp only [hkind, and_false, if_false, List.map_id']

/-- **Run.** Absorbing imports one after another is adding them to the list. -/
theorem foldl_absorb (separate : Bool) (is more : List Import) :
    more.foldl absorb ⟨separate, joint is⟩ = ⟨separate, joint (is ++ more)⟩ := by
  induction more generalizing is with
  | nil => rw [List.foldl_nil, List.append_nil]
  | cons i rest ih =>
    rw [List.foldl_cons, absorb_joint, ih, List.append_assoc, List.singleton_append]

/-- **Merging.** Registries merged in order hold the imports of all of them as those of one. -/
theorem foldl_merge (separate : Bool) (rs : List Registry) (is : List Import) :
    rs.foldl merge ⟨separate, joint is⟩ = ⟨separate, joint (is ++ rs.flatMap (·.imports))⟩ := by
  induction rs generalizing is with
  | nil => rw [List.foldl_nil, List.flatMap_nil, List.append_nil]
  | cons r rest ih =>
    rw [List.foldl_cons, merge, foldl_absorb, ih, List.flatMap_cons, List.append_assoc]

end Registry

theorem Part.imports_join (first : Part) (parts : List Part) :
    (Part.join first parts).imports =
      ⟨first.imports.separateTyping, Registry.joint (parts.flatMap (·.imports.imports))⟩ := by
  have h := Registry.foldl_merge first.imports.separateTyping (parts.map (·.imports)) []
  rwa [List.foldl_map, List.flatMap_map, List.nil_append] at h

end Graphwright.Module
