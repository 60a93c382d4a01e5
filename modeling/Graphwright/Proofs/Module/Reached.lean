import Graphwright.Proofs.Module.Merging
import Mathlib.Data.List.Induction

/-!
# Registries that calls lead to

A registry comes about by calls: it starts empty, imports are recorded one by one, and other
registries are merged into it. Whatever the calls, it has one import for each symbol and module.

* `keys_joint`, `get?_joint`: the keys of merged imports, and what they have for a key.
* `joint_append_of_subset`: imports that are there already change nothing.
* `Reached.nodup`: each call keeps the keys of a registry apart.
* `merged_keeps_needs`: what comes of merging several registries in order. Keys and names are those
  of first occurrences; what is needed when the module runs does not depend on the order, and
  merging a registry again changes nothing.
-/
namespace Graphwright.Module

namespace Registry

/-! ## What merged imports hold -/

/-- The keys of first imports are all keys, in order of first occurrence. -/
theorem keys_firsts (is : List Import) : (firsts is).map (·.key) = (is.map (·.key)).eraseDups := by
  induction is using List.reverseRecOn with
  | nil => rfl
  | append_singleton is i ih =>
    rw [firsts_concat, List.map_append, List.eraseDups_append, ← ih]
    by_cases h : ∃ j ∈ is, j.key = i.key
    · simp [h, List.removeAll]
    · simp [h, List.removeAll, List.eraseDups_cons]

theorem keys_joint (is : List Import) : (joint is).map (·.key) = (is.map (·.key)).eraseDups := by
  rw [← keys_firsts, joint, List.map_map]
  rfl

/-- The first import with a key is found among the first ones. -/
theorem find?_firsts (is : List Import) (key : String × String) :
    (firsts is).find? (fun i => i.key = key) = is.find? (fun i => i.key = key) := by
  induction is with
  | nil => rfl
  | cons i rest ih =>
    rw [firsts]
    by_cases h : i.key = key
    · rw [List.find?_cons_of_pos (by simpa using h), List.find?_cons_of_pos (by simpa using h)]
    · rw [List.find?_cons_of_neg (by simpa using h), List.find?_cons_of_neg (by simpa using h),
        List.find?_filter, ← ih]
      congr 1
      funext j
      by_cases hj : j.key = key
      · simp [hj, Ne.symm h]
      · simp [hj]

theorem of_find?_key {is : List Import} {key : String × String} {i : Import}
    (h : is.find? (fun i => i.key = key) = some i) : i ∈ is ∧ i.key = key :=
  ⟨List.mem_of_find?_eq_some h, by simpa using List.find?_some h⟩

/-- Merged imports have for a key what the first import with it says, but for when it is needed. -/
theorem get?_joint (separate : Bool) (is : List Import) (symbol source : String) :
    get? ⟨separate, joint is⟩ symbol source =
      (is.find? fun i => i.key = (symbol, source)).map
        fun i => { i with kind := kindOf is (symbol, source) } := by
  rw [← find?_firsts, get?, joint, List.find?_map]
  refine Option.map_congr fun i hi => ?_
  have hkey : i.key = (symbol, source) := (of_find?_key hi).2
  simp only [hkey]

theorem kindOf_eq_runtime {is : List Import} {key : String × String} :
    kindOf is key = .runtime ↔ ∃ i ∈ is, i.key = key ∧ i.kind = .runtime := by
  unfold kindOf
  split <;> simp_all

/-- When merged imports need a key is a matter of what they hold, in whatever order. -/
theorem map_kind_get?_joint (separate : Bool) (is : List Import) (symbol source : String) :
    (get? ⟨separate, joint is⟩ symbol source).map (·.kind) =
      if ∃ i ∈ is, i.key = (symbol, source) then some (kindOf is (symbol, source)) else none := by
  rw [get?_joint, Option.map_map]
  cases hfind : is.find? fun i => i.key = (symbol, source) with
  | none => exact (if_neg (by simpa using hfind)).symm
  | some i => exact (if_pos ⟨i, of_find?_key hfind⟩).symm

theorem kindOf_congr {is is' : List Import} (h : ∀ i, i ∈ is ↔ i ∈ is') (key : String × String) :
    kindOf is key = kindOf is' key := by
  simp only [kindOf, h]

/-- Imports with keys of their own are merged already. -/
theorem joint_of_nodup {is : List Import} (h : (is.map (·.key)).Nodup) : joint is = is := by
  have hkind : ∀ i ∈ is, kindOf is i.key = i.kind := fun i hi => by
    cases hk : i.kind with
    | runtime => exact kindOf_eq_runtime.mpr ⟨i, hi, rfl, hk⟩
    | typing =>
      refine if_neg fun ⟨j, hj, hkey, hkind⟩ => ?_
      rw [List.inj_on_of_nodup_map h hj hi hkey, hk] at hkind
      cases hkind
  have hfirsts : ∀ {is : List Import}, (is.map (·.key)).Nodup → firsts is = is := fun {is} h => by
    induction is with
    | nil => rfl
    | cons i rest ih =>
      obtain ⟨hi, hrest⟩ := List.nodup_cons.mp h
      rw [firsts, ih hrest, List.filter_eq_self.mpr fun j hj => ?_]
      exact decide_eq_true fun hkey => hi (List.mem_map.mpr ⟨j, hj, hkey⟩)
  calc
    joint is = is.map fun i => { i with kind := kindOf is i.key } := by rw [joint, hfirsts h]
    _ = is.map id := List.map_congr_left fun i hi => by rw [hkind i hi]; rfl
    _ = is := List.map_id is

theorem joint_append_of_subset {is more : List Import} (h : more ⊆ is) :
    joint (is ++ more) = joint is := by
  induction more using List.reverseRecOn with
  | nil => rw [List.append_nil]
  | append_singleton more i ih =>
    have hi : i ∈ is := h (by simp)
    rw [← List.append_assoc, joint_concat_known ⟨i, List.mem_append_left _ hi, rfl⟩,
      ih fun j hj => h (List.mem_append_left _ hj)]
    refine (List.map_congr_left fun old hold => ?_).trans (List.map_id _)
    split
    · rename_i hknown
      -- the known import is needed when the module runs, because this one is
      obtain ⟨j, -, rfl⟩ := List.mem_map.mp hold
      have hruntime : kindOf is j.key = .runtime :=
        kindOf_eq_runtime.mpr ⟨i, hi, hknown.1.symm, hknown.2⟩
      simp only [hruntime, id_eq]
    · rfl

/-! ## Calls -/

/-- A registry that calls lead to, from an empty one on. -/
inductive Reached : Registry → Prop where
  | empty (separate : Bool) : Reached ⟨separate, []⟩
  | record {r : Registry} (h : Reached r) (i : Import) : Reached (r.record i).2
  | recordModule {r : Registry} (h : Reached r) (source : String) (asName? : Option String)
      (kind : ImportKind) : Reached (r.recordModule source asName? kind).2
  | recordAll {r : Registry} (h : Reached r) (pairs : List (String × String)) (kind : ImportKind) :
      Reached (r.recordAll pairs kind)
  | merge {r other : Registry} (h : Reached r) (hother : Reached other) : Reached (r.merge other)

/-- **Step.** Recording keeps keys apart. -/
theorem nodup_record {r : Registry} (h : (r.imports.map (·.key)).Nodup) (i : Import) :
    ((r.record i).2.imports.map (·.key)).Nodup := by
  unfold record
  split
  · exact h
  · rename_i hnone
    have hnew : ∀ j ∈ r.imports, j.key ≠ i.key := by
      simpa [get?, Import.key] using hnone
    have hany : ¬ r.imports.any (·.key = i.key) := by simpa using hnew
    rw [insert, if_neg hany, List.map_append, List.nodup_append]
    refine ⟨h, List.nodup_singleton _, ?_⟩
    simpa using hnew

theorem nodup_recordAll {r : Registry} (h : (r.imports.map (·.key)).Nodup)
    (pairs : List (String × String)) (kind : ImportKind) :
    ((r.recordAll pairs kind).imports.map (·.key)).Nodup := by
  unfold recordAll
  induction pairs generalizing r with
  | nil => exact h
  | cons p rest ih => exact ih (nodup_record h _)

/-- Merging into a registry whose keys are apart is adding to a list. -/
theorem merge_of_nodup {r : Registry} (h : (r.imports.map (·.key)).Nodup) (other : Registry) :
    r.merge other = ⟨r.separateTyping, joint (r.imports ++ other.imports)⟩ := by
  have hr : r = ⟨r.separateTyping, joint r.imports⟩ := by rw [joint_of_nodup h]
  rw [merge, hr, foldl_absorb, joint_of_nodup h]

/-- **Run.** Whatever the calls, a registry has one import for each key. -/
theorem Reached.nodup {r : Registry} (h : Reached r) : (r.imports.map (·.key)).Nodup := by
  induction h with
  | empty => exact List.nodup_nil
  | record _ i ih => exact nodup_record ih i
  | recordModule _ source asName? kind ih => exact nodup_record ih _
  | recordAll _ pairs kind ih => exact nodup_recordAll ih pairs kind
  | merge _ _ ih _ =>
    rw [merge_of_nodup ih]
    exact nodup_joint _

theorem Reached.get?_eq_some {r : Registry} (h : Reached r) {symbol source : String} {i : Import} :
    r.get? symbol source = some i ↔ i ∈ r.imports ∧ i.key = (symbol, source) := by
  constructor
  · exact of_find?_key
  · rintro ⟨hi, hkey⟩
    cases hget : r.get? symbol source with
    | none => exact absurd (decide_eq_true hkey) (List.find?_eq_none.mp hget i hi)
    | some j =>
      obtain ⟨hj, hjkey⟩ := of_find?_key hget
      exact congrArg some (List.inj_on_of_nodup_map h.nodup hj hi (hjkey.trans hkey.symm))

/-! ## Merging several registries -/

/-- An import of some registry is what this registry answers for its key. -/
theorem exists_runtime_iff {rs : List Registry} (h : ∀ r ∈ rs, Reached r) {symbol source : String} :
    (∃ j ∈ rs.flatMap (·.imports), j.key = (symbol, source) ∧ j.kind = .runtime) ↔
      ∃ r ∈ rs, ∃ j, r.get? symbol source = some j ∧ j.kind = .runtime := by
  constructor
  · rintro ⟨j, hj, hkey, hkind⟩
    obtain ⟨r, hr, hjr⟩ := List.mem_flatMap.mp hj
    exact ⟨r, hr, j, (h r hr).get?_eq_some.mpr ⟨hjr, hkey⟩, hkind⟩
  · rintro ⟨r, hr, j, hget, hkind⟩
    obtain ⟨hjr, hkey⟩ := (h r hr).get?_eq_some.mp hget
    exact ⟨j, List.mem_flatMap.mpr ⟨r, hr, hjr⟩, hkey, hkind⟩

/-- **Merging.** Let registries be merged in order into an empty one. The outcome has their keys in
order of first occurrence, each with the name of its first import, and each is needed when the
module runs if any of the registries needs it then. So what it needs does not depend on the order of
the registries, and merging one of them again changes nothing. -/
theorem merged_keeps_needs (separate : Bool) (rs : List Registry) (h : ∀ r ∈ rs, Reached r) :
    let merged := rs.foldl merge ⟨separate, []⟩
    merged.imports.map (·.key) = (rs.flatMap fun r => r.imports.map (·.key)).eraseDups ∧
      (∀ symbol source, (merged.get? symbol source).map (·.asName?) =
        (rs.findSome? (·.get? symbol source)).map (·.asName?)) ∧
      (∀ symbol source i, merged.get? symbol source = some i →
        (i.kind = .runtime ↔ ∃ r ∈ rs, ∃ j, r.get? symbol source = some j ∧ j.kind = .runtime)) ∧
      (∀ (separate' : Bool) (rs' : List Registry), rs'.Perm rs → ∀ symbol source,
        ((rs'.foldl merge ⟨separate', []⟩).get? symbol source).map (·.kind) =
          (merged.get? symbol source).map (·.kind)) ∧
      ∀ r ∈ rs, merged.merge r = merged := by
  intro merged
  have hmerged : ∀ (separate : Bool) (rs : List Registry),
      rs.foldl merge ⟨separate, []⟩ = ⟨separate, joint (rs.flatMap (·.imports))⟩ :=
    fun separate rs => foldl_merge separate rs []
  let all := rs.flatMap (·.imports)
  have hall : merged = ⟨separate, joint all⟩ := hmerged separate rs
  refine ⟨?_, fun symbol source => ?_, fun symbol source i hi => ?_,
    fun separate' rs' hperm symbol source => ?_, fun r hr => ?_⟩
  · rw [hall, ← List.map_flatMap]
    exact keys_joint all
  · rw [hall, get?_joint, List.find?_flatMap, Option.map_map]
    rfl
  · rw [hall, get?_joint] at hi
    obtain ⟨-, -, rfl⟩ := Option.map_eq_some_iff.mp hi
    exact kindOf_eq_runtime.trans (exists_runtime_iff h)
  · have hmem : ∀ i, i ∈ rs'.flatMap (·.imports) ↔ i ∈ all :=
      fun i => (hperm.flatMap_right _).mem_iff
    rw [hall, hmerged, map_kind_get?_joint, map_kind_get?_joint, kindOf_congr hmem]
    simp only [hmem]
  · rw [hall, merge, foldl_absorb, joint_append_of_subset]
    exact fun i hi => List.mem_flatMap.mpr ⟨r, hr, hi⟩

/-- Two parts that need one symbol under different names, the second of them when the module
runs. -/
def differingParts : List Registry :=
  [((Registry.mk false []).record ⟨"X", "m", .typing, some "A"⟩).2,
    (((Registry.mk true []).recordAll [("Y", "m")] .typing).record
      ⟨"X", "m", .runtime, some "B"⟩).2]

theorem merged_keeps_needs_differingParts :
    (∀ r ∈ differingParts, Reached r) ∧
      (differingParts.foldl merge ⟨false, []⟩).imports =
        [⟨"X", "m", .runtime, some "A"⟩, ⟨"Y", "m", .typing, none⟩] ∧
      ∀ symbol source, ((differingParts.reverse.foldl merge ⟨false, []⟩).get? symbol source).map
        (·.kind) = ((differingParts.foldl merge ⟨false, []⟩).get? symbol source).map (·.kind) := by
  have hreached : ∀ r ∈ differingParts, Reached r := by
    intro r hr
    rcases List.mem_pair.mp hr with rfl | rfl
    · exact .record (.empty false) _
    · exact .record (.recordAll (.empty true) _ _) _
  obtain ⟨-, -, -, horder, -⟩ := merged_keeps_needs false differingParts hreached
  exact ⟨hreached, by decide, horder false _ (List.reverse_perm _)⟩

end Registry

end Graphwright.Module
