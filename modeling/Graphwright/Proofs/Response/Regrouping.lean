import Mathlib.Data.List.Induction
import Graphwright.Proofs.Response.Joining

/-!
# Joining in other groups

`merge` takes the fields of a list together. Here is what it makes of lists that are joined in
parts.

* `merge_concat`: one more field is put into what the fields before it are joined to. So joining
  goes field by field along the list (`merge_eq_foldl`).
* `merge_merge_append`: the fields in front may be joined beforehand, whatever they are.
* `merge_append_merge`: those behind may be joined beforehand where those with one name at one path
  all have others below them or none has. Otherwise a leaf among them would hide what is below the
  later ones.
* `merge_append_self`: where keys are distinct, joining a list with itself gives it back.
-/
namespace Graphwright.Response

open Response.Field (named unnamed childrenOf)

/-! ## One field and others with its name -/

theorem merge_nil : merge [] = [] := by
  rw [merge]

namespace Field

/-- A field is its name, its type, what is below it and its condition. -/
theorem eq_of {f g : Field} (hname : f.name = g.name) (htype : f.type? = g.type?)
    (hchildren : f.children? = g.children?) (hconditional : f.conditional = g.conditional) :
    f = g := by
  obtain ⟨_, _, _, _⟩ := f
  obtain ⟨_, _, _, _⟩ := g
  obtain rfl : _ = _ := hname
  obtain rfl : _ = _ := htype
  obtain rfl : _ = _ := hchildren
  obtain rfl : _ = _ := hconditional
  rfl

theorem join_nil (f : Field) : f.join [] = f := by
  refine eq_of rfl rfl ?_ (by simp)
  rw [children?_join]
  exact Option.map_id_fun' ▸ rfl

theorem childrenOf_append (fs gs : List Field) :
    childrenOf (fs ++ gs) = childrenOf fs ++ childrenOf gs :=
  List.flatMap_append

theorem childrenOf_nil : childrenOf [] = [] := rfl

theorem childrenOf_cons (f : Field) (fs : List Field) :
    childrenOf (f :: fs) = f.children?.getD [] ++ childrenOf fs :=
  List.flatMap_cons

/-- A field is joined with others in two steps if what is below them is. -/
theorem join_append_of {f : Field} {same more : List Field}
    (h : ∀ own, f.children? = some own →
      merge (merge (own ++ childrenOf same) ++ childrenOf more) =
        merge (own ++ childrenOf same ++ childrenOf more)) :
    f.join (same ++ more) = (f.join same).join more := by
  refine eq_of rfl rfl ?_ (by simp [Bool.and_assoc])
  rw [children?_join, children?_join, children?_join, Option.map_map]
  refine Option.map_congr fun own hown => ?_
  rw [Function.comp_apply, List.any_append, childrenOf_append, ← List.append_assoc]
  cases hsame : same.any (·.children?.isSome) with
  | false => rw [childrenOf_eq_nil hsame, List.append_nil, Bool.false_or, if_neg Bool.false_ne_true]
  | true =>
    rw [Bool.true_or, if_pos rfl, if_pos rfl, h own hown]
    cases hmore : more.any (·.children?.isSome) with
    | false => rw [childrenOf_eq_nil hmore, List.append_nil, if_neg Bool.false_ne_true]
    | true => rw [if_pos rfl]

/-! ## Names -/

@[simp] theorem named_nil (name : String) : named name [] = [] := rfl

@[simp] theorem unnamed_nil (name : String) : unnamed name [] = [] := rfl

theorem named_append (name : String) (fs gs : List Field) :
    named name (fs ++ gs) = named name fs ++ named name gs :=
  List.filter_append fs gs

theorem unnamed_append (name : String) (fs gs : List Field) :
    unnamed name (fs ++ gs) = unnamed name fs ++ unnamed name gs :=
  List.filter_append fs gs

theorem named_cons_of_eq {name : String} {f : Field} (h : f.name = name) (fs : List Field) :
    named name (f :: fs) = f :: named name fs :=
  List.filter_cons_of_pos (by simpa using h)

theorem named_cons_of_ne {name : String} {f : Field} (h : f.name ≠ name) (fs : List Field) :
    named name (f :: fs) = named name fs :=
  List.filter_cons_of_neg (by simpa using h)

theorem unnamed_cons_of_eq {name : String} {f : Field} (h : f.name = name) (fs : List Field) :
    unnamed name (f :: fs) = unnamed name fs :=
  List.filter_cons_of_neg (by simpa using h)

theorem unnamed_cons_of_ne {name : String} {f : Field} (h : f.name ≠ name) (fs : List Field) :
    unnamed name (f :: fs) = f :: unnamed name fs :=
  List.filter_cons_of_pos (by simpa using h)

theorem unnamed_eq_self {name : String} {fs : List Field} (h : name ∉ fs.map (·.name)) :
    unnamed name fs = fs :=
  List.filter_eq_self.mpr fun f hf => by
    simpa using fun hname : f.name = name => h (hname ▸ List.mem_map_of_mem hf)

end Field

open Response.Field

theorem not_mem_names_merge_unnamed (name : String) (fs : List Field) :
    name ∉ (merge (unnamed name fs)).map (·.name) := by
  rw [names_merge, List.mem_eraseDups]
  simp [unnamed]

/-! ## Those in front -/

/-- The fields in front may be joined beforehand. -/
theorem merge_merge_append : ∀ fs gs : List Field, merge (merge fs ++ gs) = merge (fs ++ gs)
  | [], gs => by rw [merge_nil]
  | f :: rest, gs => by
    have hne := not_mem_names_merge_unnamed f.name rest
    have hrest : merge (merge (unnamed f.name rest) ++ unnamed f.name gs) =
        merge (unnamed f.name rest ++ unnamed f.name gs) := merge_merge_append _ _
    -- what is below the first field is a smaller forest, which is joined in two steps as well
    have hjoin : f.join (named f.name rest ++ named f.name gs) =
        (f.join (named f.name rest)).join (named f.name gs) :=
      join_append_of fun own hown => merge_merge_append (own ++ childrenOf (named f.name rest)) _
    rw [merge_cons_eq, List.cons_append, merge_cons_eq, name_join, named_append, unnamed_append,
      named_eq_nil hne, unnamed_eq_self hne, List.nil_append, hrest, List.cons_append,
      merge_cons_eq, named_append, unnamed_append, hjoin]
termination_by fs gs => sizeAll fs + sizeAll gs
decreasing_by
  · have h := sizeAll_filter_le (·.name != f.name) rest
    have h' := sizeAll_filter_le (·.name != f.name) gs
    simp only [sizeAll, size_eq, unnamed]
    omega
  · have h := sizeAll_childrenOf_le (named f.name rest)
    have h' := sizeAll_childrenOf_le (named f.name gs)
    have h1 := sizeAll_filter_le (·.name == f.name) rest
    have h1' := sizeAll_filter_le (·.name == f.name) gs
    simp only [named] at h h'
    simp only [sizeAll_append, sizeAll, size_eq, hown, sizeOption, named]
    omega

/-- A field is joined with others in two steps. -/
theorem Field.join_append (f : Field) (same more : List Field) :
    f.join (same ++ more) = (f.join same).join more :=
  join_append_of fun own _ => merge_merge_append (own ++ childrenOf same) (childrenOf more)

theorem merge_merge (fs : List Field) : merge (merge fs) = merge fs := by
  have h := merge_merge_append fs []
  rwa [List.append_nil, List.append_nil] at h

/-! ## Field by field -/

/-- Puts a field among others: it is joined with the one that has its name, or comes last. -/
def put : List Field → Field → List Field
  | [], g => [g]
  | f :: fs, g => if f.name = g.name then f.join [g] :: fs else f :: put fs g

/-- **Step.** One more field is put into what those before it are joined to. -/
theorem merge_concat (fs : List Field) (g : Field) : merge (fs ++ [g]) = put (merge fs) g := by
  induction fs using merge_induction with
  | nil =>
    rw [List.nil_append, merge_cons_eq, merge_nil, put, named_nil, unnamed_nil, join_nil, merge_nil]
  | cons f rest ih =>
    rw [List.cons_append, merge_cons_eq, merge_cons_eq, named_append, unnamed_append, put,
      name_join]
    by_cases h : f.name = g.name
    · rw [named_cons_of_eq h.symm, unnamed_cons_of_eq h.symm, named_nil, unnamed_nil,
        List.append_nil, if_pos h, join_append]
    · rw [named_cons_of_ne (Ne.symm h), unnamed_cons_of_ne (Ne.symm h), named_nil, unnamed_nil,
        List.append_nil, if_neg h, ih]

/-- **Run.** Joining is putting in one field after the other. -/
theorem merge_eq_foldl (fs : List Field) : merge fs = fs.foldl put [] := by
  induction fs using List.reverseRecOn with
  | nil => exact merge_nil
  | append_singleton fs g ih => rw [merge_concat, ih, List.foldl_concat]

/-! ## Those behind -/

theorem unnamed_merge (name : String) (fs : List Field) :
    unnamed name (merge fs) = merge (unnamed name fs) := by
  induction fs using merge_induction with
  | nil => rw [merge_nil, unnamed, List.filter_nil, merge_nil]
  | cons f rest ih =>
    rw [merge_cons_eq]
    by_cases h : f.name = name
    · rw [unnamed_cons_of_eq ((name_join f _).trans h), unnamed_cons_of_eq h, ← h,
        unnamed_eq_self (not_mem_names_merge_unnamed f.name rest)]
    · have hnamed : named f.name (unnamed name rest) = named f.name rest := by
        rw [named, unnamed, List.filter_filter]
        refine List.filter_congr fun g _ => ?_
        by_cases hg : g.name = f.name <;> simp [hg, h]
      have hcomm : unnamed name (unnamed f.name rest) = unnamed f.name (unnamed name rest) :=
        List.filter_comm _ _ rest
      rw [unnamed_cons_of_ne ((name_join f _).trans_ne h), unnamed_cons_of_ne h, merge_cons_eq,
        hnamed, ih, hcomm]

theorem named_merge (name : String) (fs : List Field) : named name (merge fs) =
    match named name fs with
    | [] => []
    | f :: same => [f.join same] := by
  induction fs using merge_induction with
  | nil => rw [merge_nil]; rfl
  | cons f rest ih =>
    rw [merge_cons_eq]
    by_cases h : f.name = name
    · rw [named_cons_of_eq ((name_join f _).trans h), named_cons_of_eq h, ← h,
        named_eq_nil (not_mem_names_merge_unnamed f.name rest)]
    · have hnamed : named name (unnamed f.name rest) = named name rest := by
        rw [named, unnamed, List.filter_filter]
        refine List.filter_congr fun g _ => ?_
        by_cases hg : g.name = name
        · simp [hg, Ne.symm h]
        · simp [hg]
      rw [named_cons_of_ne ((name_join f _).trans_ne h), named_cons_of_ne h, ih, hnamed]

theorem uniform_mono {A B : Survey} (h : ∀ path, A path ⊆ B path) (hu : Uniform B) : Uniform A :=
  fun path e he e' he' => hu path e (h path he) e' (h path he')

/-- Forests are uniform if they are so at the top, and below each key. -/
theorem uniform_of_keys {fs : List Field}
    (htop : ∀ f ∈ fs, ∀ g ∈ fs, f.name = g.name → f.children?.isSome = g.children?.isSome)
    (hbelow : ∀ key ∈ fs.map (·.name), Uniform (surveyOf (childrenAt key fs))) :
    Uniform (surveyOf fs) := by
  intro path
  cases path with
  | nil =>
    intro e he e' he' hkey
    obtain ⟨f, hf, rfl⟩ := List.mem_map.mp he
    obtain ⟨g, hg, rfl⟩ := List.mem_map.mp he'
    exact htop f hf g hg hkey
  | cons key path =>
    by_cases hkey : key ∈ fs.map (·.name)
    · exact hbelow key hkey path
    · simp only [surveyOf, fieldsAt, childrenAt_eq_nil hkey, fieldsAt_nil]
      intro e he
      cases he

theorem uniform_of_leaves {fs : List Field} (h : ∀ f ∈ fs, f.children? = none) :
    Uniform (surveyOf fs) := by
  refine uniform_of_keys (fun f hf g hg _ => by rw [h f hf, h g hg]) fun key _ => ?_
  have hnone : childrenAt key fs = [] := childrenOf_eq_nil <| List.any_eq_false.mpr fun f hf => by
    simp [h f (List.mem_of_mem_filter hf)]
  rw [hnone]
  exact fun path e he => by simp [surveyOf, fieldsAt_nil] at he

theorem uniform_unnamed {name : String} {fs : List Field} (h : Uniform (surveyOf fs)) :
    Uniform (surveyOf (unnamed name fs)) := by
  refine uniform_mono (fun path => ?_) h
  cases path with
  | nil => exact List.map_subset _ (List.filter_subset_self fs)
  | cons key path =>
    simp only [surveyOf, fieldsAt]
    by_cases hkey : name = key
    · have hne : key ∉ (unnamed name fs).map (·.name) := by simp [unnamed, hkey]
      rw [childrenAt_eq_nil hne, fieldsAt_nil]
      exact List.nil_subset _
    · rw [childrenAt_unnamed hkey]
      exact List.Subset.refl _

/-- Those behind that have the name of a field may be joined beforehand if what is below them may;
with a leaf in front of them, all have to be leaves. -/
theorem Field.join_concat_of {f g : Field} {front same : List Field}
    (hleaf : g.children? = none → same.any (·.children?.isSome) = false)
    (h : ∀ own below, f.children? = some own → g.children? = some below →
      merge ((own ++ childrenOf front) ++ merge (below ++ childrenOf same)) =
        merge ((own ++ childrenOf front) ++ (below ++ childrenOf same))) :
    f.join (front ++ [g.join same]) = f.join (front ++ g :: same) := by
  refine eq_of rfl rfl ?_ (by simp)
  rw [children?_join, children?_join]
  refine Option.map_congr fun own hown => ?_
  rw [childrenOf_append, childrenOf_append, childrenOf_cons, childrenOf_cons, children?_join,
    childrenOf_nil, List.append_nil, List.any_append, List.any_append, List.any_cons, List.any_cons,
    children?_join]
  cases hbelow : g.children? with
  | none =>
    have hsame := hleaf hbelow
    rw [hsame, childrenOf_eq_nil hsame]
    rfl
  | some below =>
    simp only [Option.map_some, Option.isSome_some, Bool.true_or, Bool.or_true, if_true,
      Option.getD_some, ← List.append_assoc]
    cases hsame : same.any (·.children?.isSome) with
    | false => simp only [childrenOf_eq_nil hsame, List.append_nil, Bool.false_eq_true, if_false]
    | true => rw [if_pos rfl, h own below hown hbelow, List.append_assoc _ below]

/-- The fields behind may be joined beforehand, where those with one name at one path are alike. -/
theorem merge_append_merge :
    ∀ fs gs : List Field, Uniform (surveyOf gs) → merge (fs ++ merge gs) = merge (fs ++ gs)
  | [], gs, _ => merge_merge gs
  | f :: rest, gs, hu => by
    have hothers : merge (unnamed f.name rest ++ merge (unnamed f.name gs)) =
        merge (unnamed f.name rest ++ unnamed f.name gs) :=
      merge_append_merge _ _ (uniform_unnamed hu)
    have hsame : f.join (named f.name rest ++ named f.name (merge gs)) =
        f.join (named f.name rest ++ named f.name gs) := by
      rw [named_merge]
      cases hgs : named f.name gs with
      | nil => rfl
      | cons g same =>
        refine join_concat_of (fun hleaf => ?_) fun own below hown hbelow =>
          merge_append_merge _ _ ?_
        · rw [List.any_eq_false]
          intro k hk
          have hmem {l : Field} (hl : l ∈ g :: same) : l.finding ∈ surveyOf gs [] ∧
              l.name = f.name := by
            obtain ⟨hl, hname⟩ := List.mem_filter.mp (hgs ▸ hl : l ∈ named f.name gs)
            exact ⟨List.mem_map_of_mem hl, eq_of_beq hname⟩
          obtain ⟨hg, hgname⟩ := hmem List.mem_cons_self
          obtain ⟨hk, hkname⟩ := hmem (List.mem_cons_of_mem g hk)
          have halike : k.children?.isSome = g.children?.isSome :=
            hu [] _ hk _ hg (hkname.trans hgname.symm)
          simp [halike, hleaf]
        · have hbelow' := uniform_childrenAt f.name hu
          rwa [childrenAt, hgs, childrenOf_cons, hbelow] at hbelow'
    rw [List.cons_append, merge_cons_eq, named_append, unnamed_append, unnamed_merge,
      hothers, hsame, List.cons_append, merge_cons_eq, named_append, unnamed_append]
termination_by fs gs => sizeAll fs + sizeAll gs
decreasing_by
  · have h := sizeAll_filter_le (·.name != f.name) rest
    have h' := sizeAll_filter_le (·.name != f.name) gs
    simp only [sizeAll, size_eq, unnamed]
    omega
  · have h := sizeAll_childrenOf_le (named f.name rest)
    have h1 := sizeAll_filter_le (·.name == f.name) rest
    have h1' := sizeAll_filter_le (·.name == f.name) gs
    have h' := sizeAll_childrenOf_le same
    rw [show gs.filter (·.name == f.name) = g :: same from hgs] at h1'
    simp only [named] at h
    simp only [sizeAll_append, sizeAll, size_eq, hown, hbelow, sizeOption, named] at h1' ⊢
    omega

/-! ## Twice the same -/

/-- The keys of a forest are distinct at each path if those of the fields are, and within each
field. -/
theorem distinct_iff {fs : List Field} : Distinct fs ↔ (fs.map (·.name)).Nodup ∧ Orderly fs := by
  constructor
  · exact fun h => ⟨h [], h.orderly⟩
  · rintro ⟨hnames, ho⟩ path
    cases path with
    | nil => exact hnames
    | cons key path =>
      rw [fieldsAt]
      by_cases hkey : key ∈ fs.map (·.name)
      · obtain ⟨f, hf, rfl⟩ := List.mem_map.mp hkey
        rw [childrenAt_of_mem hnames hf]
        cases hc : f.children? with
        | none =>
          rw [Option.getD_none, fieldsAt_nil]
          exact .nil
        | some own => exact ho f hf own hc path
      · rw [childrenAt_eq_nil hkey, fieldsAt_nil]
        exact .nil

/-- Joining a list of distinct fields with itself gives it back. -/
theorem merge_append_self : ∀ fs : List Field, Distinct fs → merge (fs ++ fs) = fs
  | [], _ => merge_nil
  | f :: rest, h => by
    obtain ⟨hnames, ho⟩ := distinct_iff.mp h
    obtain ⟨hne, hnodup⟩ := List.nodup_cons.mp hnames
    have hrest : merge (rest ++ rest) = rest :=
      merge_append_self rest
        (distinct_iff.mpr ⟨hnodup, fun g hg => ho g (List.mem_cons_of_mem _ hg)⟩)
    have hjoin : f.join [f] = f := by
      refine eq_of rfl rfl ?_ (by simp)
      cases hc : f.children? with
      | none => rw [children?_join, hc, Option.map_none]
      | some own =>
        rw [children?_join, hc, Option.map_some, if_pos (by simp [hc]), childrenOf_cons, hc,
          Option.getD_some, childrenOf, List.flatMap_nil, List.append_nil,
          merge_append_self own (ho f List.mem_cons_self own hc)]
    rw [List.cons_append, merge_cons_eq, named_append, unnamed_append, named_eq_nil hne,
      unnamed_eq_self hne, named_cons_of_eq rfl, unnamed_cons_of_eq rfl, named_eq_nil hne,
      unnamed_eq_self hne, List.nil_append, hjoin, hrest]
termination_by fs => sizeAll fs
decreasing_by
  · simp only [sizeAll, size_eq]
    omega
  · simp only [sizeAll, size_eq, hc, sizeOption]
    omega

/-! ## Regrouping -/

/-- **Regrouping.** In each of two lists, let fields with one name at one path all have others below
them, or none of them. The lists may then be joined on their own before they are joined to each
other; and where keys are distinct within each field, repeating a list changes nothing. -/
theorem merge_regroups (as bs : List Field) (has : Uniform (surveyOf as))
    (hbs : Uniform (surveyOf bs)) (ho : Orderly as) :
    merge (as ++ bs) = merge (merge as ++ merge bs) ∧ merge (as ++ as) = merge as := by
  have hmerged : ∀ cs, Uniform (surveyOf cs) → merge (as ++ cs) = merge (merge as ++ merge cs) :=
    fun cs hcs => (merge_append_merge as cs hcs).symm.trans (merge_merge_append as (merge cs)).symm
  refine ⟨hmerged bs hbs, ?_⟩
  rw [hmerged as has]
  exact merge_append_self _ (distinct_merge ho)

/-- A field `a` with two fields below it, spread over two fields, the second of which is
conditional. -/
def splitFields : List Field :=
  [.mk "a" none (some [.mk "x" none none false]) false,
    .mk "a" none (some [.mk "y" none none true]) true]

/-- The field `a` once more with one of the fields below it, and another one. -/
def furtherFields : List Field :=
  [.mk "b" none none false, .mk "a" none (some [.mk "y" none none false]) false]

theorem merge_regroups_splitFields :
    (Uniform (surveyOf splitFields) ∧ Uniform (surveyOf furtherFields) ∧ Orderly splitFields) ∧
      merge (splitFields ++ furtherFields) =
        [.mk "a" none (some [.mk "x" none none false, .mk "y" none none false]) false,
          .mk "b" none none false] ∧
      merge (splitFields ++ furtherFields) = merge (merge splitFields ++ merge furtherFields) ∧
      merge (splitFields ++ splitFields) = merge splitFields := by
  have hsplit : Uniform (surveyOf splitFields) := uniform_of_keys (by decide) fun key hkey => by
    obtain rfl : key = "a" := by simpa [splitFields, Field.name] using hkey
    exact uniform_of_leaves (by decide)
  have hfurther : Uniform (surveyOf furtherFields) := uniform_of_keys (by decide) fun key hkey => by
    have hnames : ∀ key ∈ furtherFields.map (·.name), ∀ f ∈ childrenAt key furtherFields,
        f.children? = none := by
      decide
    exact uniform_of_leaves (hnames key hkey)
  have horderly : Orderly splitFields := by
    intro f hf own hown
    have hleaf : ∀ f ∈ splitFields, ∀ g ∈ f.children?.getD [], g.children? = none := by decide
    have hnames : ∀ f ∈ splitFields, ((f.children?.getD []).map (·.name)).Nodup := by decide
    have h := hnames f hf
    have h' := hleaf f hf
    rw [hown] at h h'
    exact distinct_iff.mpr ⟨h, fun g hg own hown => by rw [h' g hg] at hown; cases hown⟩
  refine ⟨⟨hsplit, hfurther, horderly⟩, ?_,
    merge_regroups splitFields furtherFields hsplit hfurther horderly⟩
  simp [splitFields, furtherFields, merge_cons_eq, merge_nil, join, named, unnamed, Field.name,
    Field.type?, children?, Field.conditional, childrenOf]

end Graphwright.Response
