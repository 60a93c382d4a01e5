import Graphwright.Proofs.Lists
import Graphwright.Proofs.Response.Survey

/-!
# Joining fields

`merge` joins the fields with one name at the top of a forest, and then those below them, unless
there is nothing to join them with. Three things may become of the fields below a key: they stay as
they are, they are joined in turn, or they are dropped because the first field with that key is a
leaf (`childrenAt_merge`). By induction on the path:

* `follows_merge`: what joining leaves of a forest follows it.
* `distinct_merge`: joint fields have distinct keys at each path, if this holds within each field.
-/
namespace Graphwright.Response

/-! ## Joining fields -/

/-- Induction along the fields that joining leaves. -/
theorem merge_induction {P : List Field → Prop} (nil : P [])
    (cons : ∀ f rest, P (Field.unnamed f.name rest) → P (f :: rest)) : ∀ fs, P fs
  | [] => nil
  | f :: rest => cons f rest (merge_induction nil cons (Field.unnamed f.name rest))
termination_by fs => fs.length
decreasing_by exact Nat.lt_succ_of_le (List.length_filter_le _ _)

/-- A field joined with later ones that have its name. -/
def Field.join (f : Field) (same : List Field) : Field :=
  .mk f.name f.type?
    (f.children?.map fun own =>
      if same.any (·.children?.isSome) then merge (own ++ Field.childrenOf same) else own)
    (f.conditional && same.all (·.conditional))

namespace Field

@[simp] theorem name_join (f : Field) (same : List Field) : (f.join same).name = f.name := rfl

@[simp] theorem conditional_join (f : Field) (same : List Field) :
    (f.join same).conditional = (f.conditional && same.all (·.conditional)) := rfl

theorem children?_join (f : Field) (same : List Field) :
    (f.join same).children? = f.children?.map fun own =>
    if same.any (·.children?.isSome) then merge (own ++ childrenOf same) else own := rfl

theorem childrenOf_eq_nil {fs : List Field} (h : fs.any (·.children?.isSome) = false) :
    childrenOf fs = [] := by
  rw [List.any_eq_false] at h
  refine List.flatMap_eq_nil_iff.mpr fun f hf => ?_
  rw [Option.not_isSome_iff_eq_none.mp (h f hf), Option.getD_none]

end Field

/-- The first field is joined with those that have its name, and the others among each other. -/
theorem merge_cons_eq (f : Field) (rest : List Field) :
    merge (f :: rest) = f.join (Field.named f.name rest) :: merge (Field.unnamed f.name rest) := by
  obtain ⟨name, type?, children?, conditional⟩ := f
  rw [merge.eq_def]
  cases children? with
  | none => rfl
  | some own =>
    have hjoined (b : Bool) :
        (if b then some (merge (own ++ Field.childrenOf (Field.named name rest))) else some own) =
        some (if b then merge (own ++ Field.childrenOf (Field.named name rest)) else own) :=
      (apply_ite some _ _ _).symm
    exact congrArg (fun joined? => Field.mk name type? joined? _ :: _) (hjoined _)

/-- What joining makes of a field and those that come later. -/
structure Joint (f : Field) (rest : List Field) (g : Field) : Prop where
  name : g.name = f.name
  type : g.type? = f.type?
  conditional : g.conditional = (f.conditional && (Field.named f.name rest).all (·.conditional))
  leaf : f.children? = none → g.children? = none
  node : ∀ own, f.children? = some own →
    g.children? = some (merge (own ++ Field.childrenOf (Field.named f.name rest))) ∨
    g.children? = some own ∧ Field.childrenOf (Field.named f.name rest) = []

theorem merge_cons (f : Field) (rest : List Field) :
    ∃ g, Joint f rest g ∧ merge (f :: rest) = g :: merge (Field.unnamed f.name rest) := by
  refine ⟨f.join (Field.named f.name rest), ⟨rfl, rfl, rfl, fun hleaf => ?_, fun own hown => ?_⟩,
    merge_cons_eq f rest⟩
  · rw [Field.children?_join, hleaf, Option.map_none]
  · rw [Field.children?_join, hown, Option.map_some]
    split_ifs with hany
    · exact .inl rfl
    · exact .inr ⟨rfl, Field.childrenOf_eq_nil (Bool.not_eq_true _ ▸ hany)⟩

theorem Joint.isSome {f g : Field} {rest : List Field} (h : Joint f rest g) :
    g.children?.isSome = f.children?.isSome := by
  cases hc : f.children? with
  | none => rw [h.leaf hc]
  | some own =>
    rcases h.node own hc with hj | ⟨hj, -⟩
    · rw [hj]; rfl
    · rw [hj]

theorem keysOf_findings (fs : List Field) :
    keysOf (fs.map (·.finding)) = (fs.map (·.name)).eraseDups := by
  simp [keysOf, Field.finding, Function.comp_def]

theorem names_merge (fs : List Field) : (merge fs).map (·.name) = (fs.map (·.name)).eraseDups := by
  induction fs using merge_induction with
  | nil => rw [merge]; rfl
  | cons f rest ih =>
    obtain ⟨g, hj, hm⟩ := merge_cons f rest
    rw [hm, List.map_cons, List.map_cons, List.eraseDups_cons, ih, hj.name, Field.unnamed,
      List.filter_map]
    rfl

theorem nodup_names_merge (fs : List Field) : ((merge fs).map (·.name)).Nodup :=
  names_merge fs ▸ nodup_eraseDups _

theorem mem_of_mem_unnamed {name : String} {f : Field} {fs : List Field}
    (h : f ∈ Field.unnamed name fs) : f ∈ fs := (List.mem_filter.mp h).1

/-- What is left after joining comes from what was there before. -/
theorem covers_merge (fs : List Field) :
    Covers ((merge fs).map (·.finding)) (fs.map (·.finding)) := by
  induction fs using merge_induction with
  | nil => rw [merge]; exact .refl _
  | cons f rest ih =>
    obtain ⟨g, hj, hm⟩ := merge_cons f rest
    have hmem : ∀ h ∈ Field.unnamed f.name rest, h.finding ∈ (f :: rest).map (·.finding) :=
      fun h hh => List.mem_map_of_mem (List.mem_cons_of_mem _ (mem_of_mem_unnamed hh))
    rw [hm, List.map_cons]
    intro e he
    rcases List.mem_cons.mp he with rfl | he
    · refine ⟨⟨f.finding, by simp, hj.name.symm, hj.type.symm, hj.isSome.symm⟩, ?_⟩
      -- the joint field is certain only if the first or another one with its name is
      by_cases hc : g.conditional = true
      · exact ⟨f.finding, by simp, hj.name.symm, fun hf => absurd (hc.symm.trans hf) (by decide)⟩
      · rw [hj.conditional, Bool.not_eq_true, Bool.and_eq_false_iff, List.all_eq_false] at hc
        rcases hc with hf | ⟨h, hh, hc⟩
        · exact ⟨f.finding, by simp, hj.name.symm, fun _ => hf⟩
        · obtain ⟨hh, hn⟩ := List.mem_filter.mp hh
          exact ⟨h.finding, List.mem_map_of_mem (List.mem_cons_of_mem _ hh),
            (eq_of_beq hn).trans hj.name.symm, fun _ => Bool.eq_false_iff.mpr hc⟩
    · obtain ⟨⟨d, hd, hr⟩, d', hd', hb⟩ := ih e he
      obtain ⟨h, hh, rfl⟩ := List.mem_map.mp hd
      obtain ⟨h', hh', rfl⟩ := List.mem_map.mp hd'
      exact ⟨⟨_, hmem h hh, hr⟩, _, hmem h' hh', hb⟩

theorem keeps_merge (fs : List Field) :
    Keeps ((merge fs).map (·.finding)) (fs.map (·.finding)) := by
  constructor
  · rw [keysOf_findings, keysOf_findings, names_merge]
    exact eraseDups_of_nodup (nodup_eraseDups _)
  induction fs using merge_induction with
  | nil => simp
  | cons f rest ih =>
    obtain ⟨g, hj, hm⟩ := merge_cons f rest
    rw [hm]
    intro e he
    obtain ⟨h, hh, rfl⟩ := List.mem_map.mp he
    by_cases hn : h.name = f.name
    · refine ⟨_, List.mem_map_of_mem List.mem_cons_self, hj.name.trans hn.symm, fun hc => ?_⟩
      refine hj.conditional.trans (Bool.and_eq_false_iff.mpr ?_)
      rcases List.mem_cons.mp hh with rfl | hh
      · exact .inl hc
      · refine .inr (List.all_eq_false.mpr ⟨h, ?_, Bool.eq_false_iff.mp hc⟩)
        exact List.mem_filter.mpr ⟨hh, by simpa using hn⟩
    · rcases List.mem_cons.mp hh with rfl | hh
      · exact absurd rfl hn
      · have hmem : h ∈ Field.unnamed f.name rest := List.mem_filter.mpr ⟨hh, by simpa using hn⟩
        obtain ⟨a, ha, hb⟩ := ih h.finding (List.mem_map_of_mem hmem)
        exact ⟨a, List.mem_cons_of_mem _ ha, hb⟩

theorem named_eq_nil {key : String} {fs : List Field} (h : key ∉ fs.map (·.name)) :
    Field.named key fs = [] := by
  rw [Field.named, List.filter_eq_nil_iff]
  intro f hf hk
  exact h (eq_of_beq hk ▸ List.mem_map_of_mem hf)

theorem childrenAt_cons_of_eq {key : String} {f : Field} (h : f.name = key) (fs : List Field) :
    childrenAt key (f :: fs) = f.children?.getD [] ++ childrenAt key fs := by
  simp [childrenAt, Field.named, Field.childrenOf, h]

theorem childrenAt_cons_of_ne {key : String} {f : Field} (h : f.name ≠ key) (fs : List Field) :
    childrenAt key (f :: fs) = childrenAt key fs := by
  simp [childrenAt, Field.named, h]

theorem childrenAt_eq_nil {key : String} {fs : List Field} (h : key ∉ fs.map (·.name)) :
    childrenAt key fs = [] := by
  rw [childrenAt, named_eq_nil h]
  rfl

theorem childrenAt_unnamed {key name : String} (h : name ≠ key) (fs : List Field) :
    childrenAt key (Field.unnamed name fs) = childrenAt key fs := by
  rw [childrenAt, Field.named, Field.unnamed, List.filter_filter, childrenAt, Field.named]
  congr 1
  refine List.filter_congr fun f _ => ?_
  by_cases hk : f.name = key
  · simp [hk, Ne.symm h]
  · simp [hk]

/-- What may become of the fields below a key: they stay as they are, they are joined, or they are
dropped for a leaf with that key. -/
theorem childrenAt_merge (key : String) (fs : List Field) :
    (∃ f ∈ fs, f.name = key ∧ f.children? = some (childrenAt key fs) ∧
      childrenAt key (merge fs) = childrenAt key fs) ∨
    childrenAt key (merge fs) = merge (childrenAt key fs) ∨
    childrenAt key (merge fs) = [] ∧ ∃ f ∈ fs, f.name = key ∧ f.children? = none := by
  induction fs using merge_induction with
  | nil =>
    refine .inr (.inl ?_)
    rw [merge]
    simp [childrenAt, Field.named, Field.childrenOf, merge]
  | cons f rest ih =>
    obtain ⟨g, hj, hm⟩ := merge_cons f rest
    rw [hm]
    by_cases hk : f.name = key
    · have hgone : childrenAt key (merge (Field.unnamed f.name rest)) = [] := by
        refine childrenAt_eq_nil ?_
        rw [names_merge, List.mem_eraseDups]
        simp [Field.unnamed, hk]
      rw [childrenAt_cons_of_eq (hj.name.trans hk), childrenAt_cons_of_eq hk, hgone,
        List.append_nil]
      cases hc : f.children? with
      | none => exact .inr (.inr ⟨by rw [hj.leaf hc]; rfl, f, List.mem_cons_self, hk, hc⟩)
      | some own =>
        rcases hj.node own hc with hown | ⟨hown, hnil⟩
        · rw [hown, ← hk]
          exact .inr (.inl rfl)
        · rw [hk] at hnil
          rw [hown, childrenAt, hnil, Option.getD_some, List.append_nil]
          exact .inl ⟨f, List.mem_cons_self, hk, hc, rfl⟩
    · rw [childrenAt_cons_of_ne (hj.name.trans_ne hk), childrenAt_cons_of_ne hk,
        ← childrenAt_unnamed hk rest]
      have hmem : ∀ h ∈ Field.unnamed f.name rest, h ∈ f :: rest := fun h hh =>
        List.mem_cons_of_mem _ (mem_of_mem_unnamed hh)
      rcases ih with ⟨h, hh, heq⟩ | heq | ⟨heq, h, hh, hn⟩
      · exact .inl ⟨h, hmem h hh, heq⟩
      · exact .inr (.inl heq)
      · exact .inr (.inr ⟨heq, h, hmem h hh, hn⟩)

theorem uniform_childrenAt {fs : List Field} (key : String) (h : Uniform (surveyOf fs)) :
    Uniform (surveyOf (childrenAt key fs)) :=
  fun path => h (key :: path)

/-- **Joining.** What joining leaves of a forest follows it. -/
theorem follows_merge (fs : List Field) : Follows (surveyOf (merge fs)) (surveyOf fs) := by
  constructor
  · intro path
    induction path generalizing fs with
    | nil => exact covers_merge fs
    | cons key path ih =>
      simp only [surveyOf, fieldsAt]
      rcases childrenAt_merge key fs with ⟨-, -, -, -, h⟩ | h | ⟨h, -⟩
      · rw [h]
        exact .refl _
      · rw [h]
        exact ih _
      · rw [h, fieldsAt_nil]
        intro e he
        cases he
  · intro hu path
    induction path generalizing fs with
    | nil => exact keeps_merge fs
    | cons key path ih =>
      simp only [surveyOf, fieldsAt]
      rcases childrenAt_merge key fs with ⟨-, -, -, -, h⟩ | h | ⟨h, f, hf, hk, hc⟩
      · rw [h]
        exact .refl _
      · rw [h]
        exact ih _ (uniform_childrenAt key hu)
      · -- a leaf with the key, so all with the key are leaves
        have hnil : childrenAt key fs = [] := by
          rw [childrenAt, Field.childrenOf, List.flatMap_eq_nil_iff]
          intro g hg
          obtain ⟨hg, hn⟩ := List.mem_filter.mp hg
          have h := hu [] f.finding (List.mem_map_of_mem hf) g.finding (List.mem_map_of_mem hg)
            (hk.trans (eq_of_beq hn).symm)
          simp only [Field.finding, hc, Option.isSome_none, Bool.false_eq] at h
          rw [Option.isSome_eq_false_iff, Option.isNone_iff_eq_none] at h
          rw [h, Option.getD_none]
        rw [h, hnil]
        exact .refl _

/-! ## Distinct keys -/

/-- At each path the keys are distinct. -/
def Distinct (fs : List Field) : Prop := ∀ path, ((fieldsAt path fs).map (·.name)).Nodup

/-- Within each field the keys are distinct. -/
def Orderly (fs : List Field) : Prop := ∀ f ∈ fs, ∀ own, f.children? = some own → Distinct own

theorem childrenAt_of_mem {f : Field} {fs : List Field} (hd : (fs.map (·.name)).Nodup)
    (hf : f ∈ fs) : childrenAt f.name fs = f.children?.getD [] := by
  induction fs with
  | nil => cases hf
  | cons g rest ih =>
    rw [List.map_cons, List.nodup_cons] at hd
    rcases List.mem_cons.mp hf with rfl | hf
    · rw [childrenAt_cons_of_eq rfl, childrenAt_eq_nil hd.1, List.append_nil]
    · have hne : g.name ≠ f.name := fun h => hd.1 (h ▸ List.mem_map_of_mem hf)
      rw [childrenAt_cons_of_ne hne, ih hd.2 hf]

theorem Distinct.childrenAt {fs : List Field} (h : Distinct fs) (key : String) :
    Distinct (childrenAt key fs) :=
  fun path => h (key :: path)

theorem Distinct.orderly {fs : List Field} (h : Distinct fs) : Orderly fs := by
  intro f hf own hc
  have hkeys : (fs.map (·.name)).Nodup := h []
  have hbelow := h.childrenAt f.name
  rwa [childrenAt_of_mem hkeys hf, hc, Option.getD_some] at hbelow

theorem orderly_childrenAt {fs : List Field} (key : String) (h : Orderly fs) :
    Orderly (childrenAt key fs) := by
  intro f hf
  obtain ⟨g, hg, hf⟩ := List.mem_flatMap.mp hf
  cases hc : g.children? with
  | none => rw [hc] at hf; cases hf
  | some own =>
    rw [hc] at hf
    exact (h g (List.mem_filter.mp hg).1 own hc).orderly f hf

theorem distinct_merge {fs : List Field} (h : Orderly fs) : Distinct (merge fs) := by
  intro path
  induction path generalizing fs with
  | nil => exact nodup_names_merge fs
  | cons key path ih =>
    rw [fieldsAt]
    rcases childrenAt_merge key fs with ⟨f, hf, -, hc, heq⟩ | heq | ⟨heq, -⟩
    · rw [heq]
      exact h f hf _ hc path
    · rw [heq]
      exact ih (orderly_childrenAt key h)
    · rw [heq, fieldsAt_nil]
      exact .nil

theorem orderly_append {fs gs : List Field} (h : Orderly fs) (h' : Orderly gs) :
    Orderly (fs ++ gs) :=
  fun f hf => (List.mem_append.mp hf).elim (h f) (h' f)

theorem orderly_mark {fs : List Field} (b : Bool) (h : Orderly fs) :
    Orderly (markConditional b fs) := by
  cases b with
  | false => exact h
  | true =>
    intro f hf own hc
    obtain ⟨⟨_, _, _, _⟩, hg, rfl⟩ := List.mem_map.mp hf
    exact h _ hg own hc

end Graphwright.Response
