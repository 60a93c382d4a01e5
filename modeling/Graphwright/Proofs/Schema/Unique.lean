import Graphwright.Proofs.Outcome
import Graphwright.Schema.Build
import Mathlib.Data.List.Nodup
import Mathlib.Data.List.Pairwise

/-!
# Names in schemas

The rules see every definition of a document. Those that collect names report each name they have
seen before (`nodup_of_accepts`), so in a document without problems no type is defined twice, and no
member of a type, in the type itself or in an extension. Extensions are merged in by appending
(`Appends`), and so the names are different in the schema as well: `Distinct` sums up what a schema
that has been built inherits from the rules.
-/
namespace Graphwright.Schema

open Document

/-! ## Rules that find nothing -/

/-- The rule has nothing to report. -/
def Rule.Accepts (r : Rule) (vs : List Visit) : Prop := ∀ found ∈ r.reports r.start vs, found = []

theorem length_reports (r : Rule) (s : r.State) (vs : List Visit) :
    (r.reports s vs).length = vs.length := by
  induction vs generalizing s with
  | nil => rfl
  | cons v rest ih => simp [Rule.reports, ih]

theorem length_reportsOf (rules : List Rule) (vs : List Visit) :
    (reportsOf rules vs).length = vs.length := by
  induction rules with
  | nil => exact List.length_map _
  | cons r rest ih =>
    have hcons : reportsOf (r :: rest) vs =
        List.zipWith (· ++ ·) (r.reports r.start vs) (reportsOf rest vs) := rfl
    rw [hcons, List.length_zipWith, length_reports, ih, Nat.min_self]

theorem forall_mem_zipWith_append {α : Type} {xs ys : List (List α)}
    (hlength : xs.length = ys.length) (h : ∀ z ∈ List.zipWith (· ++ ·) xs ys, z = []) :
    (∀ x ∈ xs, x = []) ∧ ∀ y ∈ ys, y = [] := by
  induction xs generalizing ys with
  | nil =>
    obtain rfl := List.length_eq_zero_iff.mp hlength.symm
    simp
  | cons x xs ih =>
    obtain ⟨y, ys, rfl⟩ := List.exists_cons_of_length_eq_add_one hlength.symm
    obtain ⟨hfirst, hrest⟩ := List.forall_mem_cons.mp h
    obtain ⟨hx, hy⟩ := List.append_eq_nil_iff.mp hfirst
    obtain ⟨hxs, hys⟩ := ih (by simpa using hlength) hrest
    exact ⟨List.forall_mem_cons.mpr ⟨hx, hxs⟩, List.forall_mem_cons.mpr ⟨hy, hys⟩⟩

/-- Where nothing is reported, no rule reports anything. -/
theorem accepts_of_reportsOf {rules : List Rule} {vs : List Visit}
    (h : ∀ found ∈ reportsOf rules vs, found = []) : ∀ r ∈ rules, r.Accepts vs := by
  induction rules with
  | nil => nofun
  | cons r rest ih =>
    have hlength : (r.reports r.start vs).length = (reportsOf rest vs).length := by
      rw [length_reports, length_reportsOf]
    obtain ⟨hr, hrest⟩ := forall_mem_zipWith_append hlength h
    exact List.forall_mem_cons.mpr ⟨hr, ih hrest⟩

/-- A schema that can be built is that of the document, and the document has no problems. -/
theorem build_ok {d : Document} {s : Schema} (h : build d = .ok s) :
    problems d = [] ∧ s = ofDocument d := by
  unfold build at h
  dsimp only at h
  split at h
  · rename_i hempty
    obtain ⟨_, -, h⟩ := bind_eq_ok.mp h
    obtain ⟨_, -, h⟩ := bind_eq_ok.mp h
    exact ⟨List.isEmpty_iff.mp hempty, (pure_eq_ok.mp h).symm⟩
  · cases h

theorem accepts_of_build {d : Document} {s : Schema} (h : build d = .ok s) :
    ∀ r ∈ Rule.all d, r.Accepts (visits d) :=
  accepts_of_reportsOf (List.flatten_eq_nil_iff.mp (build_ok h).1)

/-! ## Names that are collected -/

theorem collect_spec {α : Type} [BEq α] [LawfulBEq α] {second : α → Problem} {names seen : List α}
    (h : (Rule.collect seen second names).2 = []) :
    names.Nodup ∧ (∀ n ∈ names, n ∉ seen) ∧ ∀ n, n ∈ (Rule.collect seen second names).1 ↔
    n ∈ names ∨ n ∈ seen := by
  induction names generalizing seen with
  | nil => simp [Rule.collect]
  | cons n rest ih =>
    rw [Rule.collect] at h ⊢
    split at h
    · cases h
    · rename_i hseen
      have hnew : n ∉ seen := by simpa using hseen
      rw [if_neg hseen]
      obtain ⟨hnodup, hfresh, hmem⟩ := ih h
      refine ⟨List.nodup_cons.mpr ⟨fun hn => hfresh n hn List.mem_cons_self, hnodup⟩, ?_,
        fun x => ?_⟩
      · exact List.forall_mem_cons.mpr
          ⟨hnew, fun x hx hs => hfresh x hx (List.mem_cons_of_mem _ hs)⟩
      · rw [hmem, List.mem_cons, List.mem_cons]
        tauto

/-- A rule that collects the names of what it sees reports each name that comes again. -/
theorem nodup_of_accepts {α : Type} [BEq α] [LawfulBEq α]
    {step : List α → Visit → List α × List Problem} (second : α → Problem) (names : Visit → List α)
    (hstep : ∀ seen v, step seen v = Rule.collect seen second (names v)) {vs : List Visit}
    {start seen : List α}
    (h : ∀ found ∈ (Rule.mk (List α) start step).reports seen vs, found = []) :
    (vs.flatMap names).Nodup ∧ ∀ n ∈ vs.flatMap names, n ∉ seen := by
  induction vs generalizing seen with
  | nil => simp
  | cons v rest ih =>
    obtain ⟨hfirst, hrest⟩ := List.forall_mem_cons.mp h
    rw [hstep] at hfirst
    obtain ⟨hnodup, hfresh, hmem⟩ := collect_spec hfirst
    obtain ⟨hrestNodup, hrestFresh⟩ := ih hrest
    simp only [hstep, hmem, not_or] at hrestFresh
    rw [List.flatMap_cons, List.nodup_append']
    refine ⟨⟨hnodup, hrestNodup, fun n hn hn' => (hrestFresh n hn').1 hn⟩,
      List.forall_mem_append.mpr ⟨hfresh, ?_⟩⟩
    exact fun n hn => (hrestFresh n hn).2

theorem definitions_sublist_visits (d : Document) :
    (d.definitions.map .definition).Sublist (visits d) := by
  unfold visits
  induction d.definitions with
  | nil => exact .slnil
  | cons x rest ih =>
    unfold definitionVisits at ih ⊢
    exact .cons_cons _ (ih.trans (List.sublist_append_right _ _))

/-- What is different among all visits is different among the definitions. -/
theorem nodup_definitions {α : Type} {d : Document} (names : Visit → List α)
    (h : ((visits d).flatMap names).Nodup) :
    (d.definitions.flatMap fun x => names (.definition x)).Nodup := by
  obtain ⟨hsingle, hpairs⟩ := List.nodup_flatMap.mp h
  have hsub := definitions_sublist_visits d
  refine List.nodup_flatMap.mpr ⟨fun x hx => hsingle _ (hsub.subset (List.mem_map_of_mem hx)), ?_⟩
  have hdefinitions := hpairs.sublist hsub
  rwa [List.pairwise_map] at hdefinitions

/-! ## Members of types -/

def fieldNames : TypeBody → List String
  | .object _ fields | .interface _ fields => fields.map (·.name)
  | .input fields => fields.map (·.name)
  | _ => []

def valueNames : TypeBody → List String
  | .enum values => values.map (·.name)
  | _ => []

/-- The types of a document and their extensions, with the names of some of their members. -/
def membersOf (names : TypeBody → List String) : Definition → List (String × String)
  | .type _ t => (names t.body).map (t.name, ·)
  | _ => []

/-- What a rule sees of definitions, and of nothing else. -/
def ofDefinition {α : Type} (names : Definition → List α) : Visit → List α
  | .definition x => names x
  | _ => []

/-- What a rule collects from definitions only is different among them. -/
theorem nodup_of_accepts_definitions {α : Type} [BEq α] [LawfulBEq α]
    {step : List α → Visit → List α × List Problem} (second : α → Problem)
    (names : Definition → List α)
    (hstep : ∀ seen x, step seen (.definition x) = Rule.collect seen second (names x))
    (hother : ∀ seen v, (∀ x, v ≠ .definition x) → step seen v = (seen, [])) {d : Document}
    (h : (Rule.mk (List α) [] step).Accepts (visits d)) : (d.definitions.flatMap names).Nodup := by
  refine nodup_definitions (ofDefinition names) (nodup_of_accepts second _ (fun seen v => ?_) h).1
  cases v with
  | definition x => exact hstep seen x
  | _ => exact hother seen _ (by simp)

theorem nodup_fieldNames {d : Document} {s : Schema} (h : build d = .ok s) :
    (d.definitions.flatMap (membersOf fieldNames)).Nodup := by
  have haccepts := accepts_of_build h Rule.uniqueFields (by simp [Rule.all])
  refine nodup_of_accepts_definitions (fun p => .secondField p.1 p.2) _ (fun seen x => ?_)
    (fun seen v hv => ?_) haccepts
  · cases x with
    | type _ t => cases hb : t.body <;> simp [membersOf, fieldNames, fieldsOf, hb]
    | _ => rfl
  · cases v <;> first | rfl | exact absurd rfl (hv _)

theorem nodup_valueNames {d : Document} {s : Schema} (h : build d = .ok s) :
    (d.definitions.flatMap (membersOf valueNames)).Nodup := by
  have haccepts := accepts_of_build h Rule.uniqueEnumValues (by simp [Rule.all])
  refine nodup_of_accepts_definitions (fun p => .secondEnumValue p.1 p.2) _ (fun seen x => ?_)
    (fun seen v hv => ?_) haccepts
  · cases x with
    | type _ t =>
      cases hb : t.body <;> simp [membersOf, valueNames, hb, Rule.collect, Function.comp_def]
    | _ => rfl
  · cases v <;> first | rfl | exact absurd rfl (hv _)

def definedName : Definition → List String
  | .type false t => [t.name]
  | _ => []

theorem nodup_definedTypes {d : Document} {s : Schema} (h : build d = .ok s) :
    (Rule.definedTypes d).Nodup := by
  have haccepts := accepts_of_build h Rule.uniqueTypes (by simp [Rule.all])
  have hnames : Rule.definedTypes d = d.definitions.flatMap definedName := by
    unfold Rule.definedTypes
    rw [List.filterMap_eq_flatMap_toList]
    congr 1
    funext x
    rcases x with _ | _ | _ | ⟨_ | _, _⟩ | _ <;> rfl
  rw [hnames]
  refine nodup_of_accepts_definitions .secondType _ (fun seen x => ?_)
    (fun seen v hv => ?_) haccepts
  · rcases x with _ | _ | _ | ⟨_ | _, _⟩ | _ <;> rfl
  · cases v <;> first | rfl | exact absurd rfl (hv _)

/-! ## Extensions merged in -/

/-- What extensions append to a type: nothing but members of extensions, in order. -/
def Appends (names : TypeBody → List String) : Prop :=
  ∀ t e, (names (extendType t e).body).Sublist (names t.body ++ names e)

theorem appends_fieldNames : Appends fieldNames := by
  intro t e
  unfold extendType
  split <;> rename_i hb <;> simp [fieldNames, hb]

theorem appends_valueNames : Appends valueNames := by
  intro t e
  unfold extendType
  split <;> rename_i hb <;> simp [valueNames, hb]

section Merged

variable {d : Document} {names : TypeBody → List String}

theorem Appends.foldl (h : Appends names) (t : TypeDefinition) (es : List TypeBody) :
    (names (es.foldl extendType t).body).Sublist (names t.body ++ es.flatMap names) := by
  induction es generalizing t with
  | nil => simp
  | cons e rest ih =>
    rw [List.foldl_cons, List.flatMap_cons, ← List.append_assoc]
    exact (ih _).trans ((h t e).append_right _)

theorem name_extendType (t : TypeDefinition) (e : TypeBody) : (extendType t e).name = t.name := by
  unfold extendType
  split <;> rfl

theorem name_foldl_extendType (t : TypeDefinition) (es : List TypeBody) :
    (es.foldl extendType t).name = t.name := by
  induction es generalizing t with
  | nil => rfl
  | cons e rest ih => rw [List.foldl_cons, ih, name_extendType]

/-- A type of a schema is a type of its document with the extensions merged in. -/
theorem exists_of_mem_mergedTypes {t : TypeDefinition} (h : t ∈ mergedTypes d) :
    ∃ base, .type false base ∈ d.definitions ∧
    t = (extensionsOf d base.name).foldl extendType base := by
  obtain ⟨x, hx, hxt⟩ := List.mem_filterMap.mp h
  split at hxt
  · split at hxt
    · cases hxt
    · exact ⟨_, hx, (Option.some.inj hxt).symm⟩
  · cases hxt

theorem mem_extensionsOf {name : String} {e : TypeBody} :
    e ∈ extensionsOf d name ↔ ∃ t, .type true t ∈ d.definitions ∧ t.name = name ∧ t.body = e := by
  unfold extensionsOf
  constructor
  · intro h
    obtain ⟨x, hx, hxe⟩ := List.mem_filterMap.mp h
    split at hxe
    · split at hxe
      · rename_i t hname
        exact ⟨t, hx, hname, Option.some.inj hxe⟩
      · cases hxe
    · cases hxe
  · rintro ⟨t, ht, rfl, rfl⟩
    exact List.mem_filterMap.mpr ⟨_, ht, if_pos rfl⟩

/-- The members of the extensions of one type are different if those of all types are. -/
theorem nodup_extensionsOf (h : (d.definitions.flatMap (membersOf names)).Nodup) (name : String) :
    ((extensionsOf d name).flatMap names).Nodup := by
  unfold extensionsOf
  obtain ⟨ds⟩ := d
  dsimp only at h ⊢
  induction ds with
  | nil => exact .nil
  | cons x rest ih =>
    rw [List.flatMap_cons, List.nodup_append'] at h
    obtain ⟨hfirst, hrest, hdisjoint⟩ := h
    rw [List.filterMap_cons]
    split
    · exact ih hrest
    · rename_i e he
      split at he
      · split at he
        · rename_i t hname
          cases he
          rw [List.flatMap_cons, List.nodup_append']
          refine ⟨hfirst.of_map _, ih hrest, fun n hn hn' => ?_⟩
          obtain ⟨e, he, hne⟩ := List.mem_flatMap.mp hn'
          obtain ⟨t', ht', hname', rfl⟩ := (mem_extensionsOf (d := ⟨rest⟩)).mp he
          refine hdisjoint (List.mem_map_of_mem (f := (t.name, ·)) hn)
            (List.mem_flatMap.mpr ⟨_, ht', ?_⟩)
          rw [hname, ← hname']
          exact List.mem_map_of_mem hne
        · cases he
      · cases he

/-- Members that are different in the document are different in each type of its schema. -/
theorem nodup_of_mem_mergedTypes (hnames : Appends names)
    (h : (d.definitions.flatMap (membersOf names)).Nodup) {t : TypeDefinition}
    (ht : t ∈ mergedTypes d) : (names t.body).Nodup := by
  obtain ⟨base, hbase, rfl⟩ := exists_of_mem_mergedTypes ht
  refine (hnames.foldl base _).nodup
    (List.nodup_append'.mpr ⟨?_, nodup_extensionsOf h _, fun n hn hn' => ?_⟩)
  · exact ((List.nodup_flatMap.mp h).1 _ hbase).of_map _
  · obtain ⟨e, he, hne⟩ := List.mem_flatMap.mp hn'
    obtain ⟨extension, hextension, hname, rfl⟩ := mem_extensionsOf.mp he
    have : Std.Symm (Function.onFun List.Disjoint (membersOf names)) :=
      ⟨fun _ _ hxy n hn hn' => hxy hn' hn⟩
    have hpair := (List.nodup_flatMap.mp h).2.forall hbase hextension (by simp)
    refine hpair (List.mem_map_of_mem (f := (base.name, ·)) hn) ?_
    rw [← hname]
    exact List.mem_map_of_mem hne

/-- The types of a schema have names of types of its document, in order. -/
theorem names_mergedTypes_sublist (d : Document) :
    ((mergedTypes d).map (·.name)).Sublist (Rule.definedTypes d) := by
  unfold mergedTypes Rule.definedTypes
  generalize extensionsOf d = extensions
  induction d.definitions with
  | nil => exact .slnil
  | cons x rest ih =>
    rw [List.filterMap_cons, List.filterMap_cons]
    rcases x with _ | _ | _ | ⟨_ | _, t⟩ | _
    case type.false =>
      dsimp only
      split
      · exact ih.cons _
      · rename_i t' ht'
        split at ht'
        · cases ht'
        · cases ht'
          rw [List.map_cons, name_foldl_extendType]
          exact ih.cons_cons _
    all_goals exact ih

end Merged

/-! ## Arguments -/

theorem nodup_of_repeated {second : String → Problem} {names : List String}
    (h : Rule.repeated second names = []) : names.Nodup := by
  rw [List.nodup_iff_count_le_one]
  intro n
  by_cases hn : n ∈ names
  · have hfilter := List.filter_eq_nil_iff.mp (List.map_eq_nil_iff.mp h) n
      (List.mem_eraseDups.mpr hn)
    simpa using hfilter
  · rw [List.count_eq_zero_of_not_mem hn]
    exact Nat.zero_le _

/-- What a check without state finds right about each of the visits. -/
theorem forall_of_accepts_stateless {check : Visit → List Problem} {vs : List Visit}
    (h : (Rule.stateless check).Accepts vs) : ∀ v ∈ vs, check v = [] := by
  have hreports : ∀ vs : List Visit, (Rule.stateless check).reports ⟨⟩ vs = vs.map check := by
    intro vs
    induction vs with
    | nil => rfl
    | cons v rest ih =>
      rw [List.map_cons, ← ih]
      rfl
  intro v hv
  refine h (check v) ?_
  rw [show (Rule.stateless check).start = ⟨⟩ from rfl, hreports]
  exact List.mem_map_of_mem hv

/-- The fields of a type with an extension are its own or those of the extension. -/
theorem mem_fieldsOf_foldl_extendType {f : FieldDefinition} {t : TypeDefinition}
    {es : List TypeBody} (h : f ∈ fieldsOf (es.foldl extendType t)) :
    f ∈ fieldsOf t ∨ ∃ e ∈ es, f ∈ fieldsOf { name := t.name, body := e } := by
  induction es generalizing t with
  | nil => exact .inl h
  | cons e rest ih =>
    have hstep : f ∈ fieldsOf (extendType t e) →
        f ∈ fieldsOf t ∨ f ∈ fieldsOf { name := t.name, body := e } := by
      unfold extendType
      split
      case h_6 => exact .inl
      all_goals
        rename_i hb
        simp [fieldsOf, hb]
    rcases ih h with h | ⟨e', he', hf⟩
    · exact (hstep h).imp_right fun hf => ⟨e, List.mem_cons_self, hf⟩
    · rw [name_extendType] at hf
      exact .inr ⟨e', List.mem_cons_of_mem _ he', hf⟩

theorem nodup_arguments {d : Document} {s : Schema} (h : build d = .ok s) {t : TypeDefinition}
    (ht : t ∈ mergedTypes d) {f : FieldDefinition} (hf : f ∈ fieldsOf t) :
    (f.arguments.map (·.name)).Nodup := by
  have hcheck := forall_of_accepts_stateless
    (accepts_of_build h Rule.uniqueArgumentDefinitions (by simp [Rule.all]))
  have hdefinition {isExtension : Bool} {t : TypeDefinition}
      (hx : .type isExtension t ∈ d.definitions)
      (hf : f ∈ fieldsOf t) : (f.arguments.map (·.name)).Nodup := by
    have hfound := hcheck _ ((definitions_sublist_visits d).subset (List.mem_map_of_mem hx))
    exact nodup_of_repeated (List.flatMap_eq_nil_iff.mp hfound f hf)
  obtain ⟨base, hbase, rfl⟩ := exists_of_mem_mergedTypes ht
  rcases mem_fieldsOf_foldl_extendType hf with hf | ⟨e, he, hf⟩
  · exact hdefinition hbase hf
  · obtain ⟨extension, hextension, -, rfl⟩ := mem_extensionsOf.mp he
    exact hdefinition hextension hf

/-! ## Schemas -/

/-- The names of the parts of a schema are different where one takes the other's place. -/
structure Distinct (s : Schema) : Prop where
  types : (s.types.map (·.name)).Nodup
  fields : ∀ t ∈ s.types, (fieldNames t.body).Nodup
  values : ∀ t ∈ s.types, (valueNames t.body).Nodup
  arguments : ∀ t ∈ s.types, ∀ f ∈ fieldsOf t, (f.arguments.map (·.name)).Nodup

/-- **Rules.** In a schema that has been built, extensions included, no two types have one name, nor
two fields or values of one type or two arguments of one field. -/
theorem distinct_of_build {d : Document} {s : Schema} (h : build d = .ok s) : s.Distinct := by
  have hs : s.types = mergedTypes d := by
    rw [(build_ok h).2]
    rfl
  refine ⟨?_, ?_, ?_, ?_⟩ <;> rw [hs]
  · exact (names_mergedTypes_sublist d).nodup (nodup_definedTypes h)
  · exact fun t => nodup_of_mem_mergedTypes appends_fieldNames (nodup_fieldNames h)
  · exact fun t => nodup_of_mem_mergedTypes appends_valueNames (nodup_valueNames h)
  · exact fun t ht f => nodup_arguments h ht

theorem Distinct.type?_of_mem {s : Schema} (h : s.Distinct) {t : TypeDefinition}
    (ht : t ∈ s.types) : s.type? t.name = some t := by
  have hsome : (s.types.find? (·.name == t.name)).isSome :=
    List.find?_isSome.mpr ⟨t, ht, beq_self_eq_true _⟩
  obtain ⟨found, hfound⟩ := Option.isSome_iff_exists.mp hsome
  have hname : found.name = t.name := by simpa using List.find?_some hfound
  rw [type?, hfound, List.inj_on_of_nodup_map h.types (List.mem_of_find?_eq_some hfound) ht hname]

end Graphwright.Schema
