import Graphwright.Proofs.Response.Occurrence

/-!
# Models of responses

A block declares the model of an operation or a fragment, and a model for each field below which
there are others. `Model.Nested m path m'` leads from a model to those at the paths of a response.
The members of a model depict the fields of a response, each by its key and by whether it may be
absent.

* `nested_depicts`: the model at a path depicts the fields there.
* `exists_nested_iff`: there is a model at each path with fields below it.
* `blocks_describe`: the blocks of a document are those of its named operations and fragments, in
  order.
-/
namespace Graphwright.Module

/-- The model of what is at a path of a response. -/
inductive Model.Nested : Model → List String → Model → Prop
  | here {m} : Nested m [] m
  | inside {m a m₁ path m'} : .node a m₁ ∈ m.members → Nested m₁ path m' →
      Nested m (a.key :: path) m'

def Model.keys (m : Model) : List String := m.attributes.map (·.key)

end Graphwright.Module

namespace Graphwright.OperationTypes

open Graphwright.Document Graphwright.Module Graphwright.Types Graphwright.Response

/-! ## Members for fields -/

theorem run_memberOf_node (m : Mapper) (owner key : String) (type : TypeRef) (fields : List Field)
    (conditional : Bool) (a : Naming.Allocator) :
    let asked := a.allocate (owner ++ Naming.pascalCase key)
    let below := (membersOf m asked.1 fields).run asked.2
    let resolved := m.resolve type (some ⟨asked.1, []⟩)
    (memberOf m owner (.mk key (some type) (some fields) conditional)).run a =
      (.node (attributeOf key (some type) resolved conditional) (.mk asked.1 none below.1),
        below.2) := by
  rw [memberOf]
  rfl

/-- A field without a type, or without fields below it, is a leaf. -/
theorem run_memberOf_leaf (m : Mapper) (owner key : String) {type? : Option TypeRef}
    {children? : Option (List Field)} (conditional : Bool) (h : type? = none ∨ children? = none)
    (a : Naming.Allocator) : (memberOf m owner (.mk key type? children? conditional)).run a =
      (.leaf (attributeOf key type? (leafType m type?) conditional), a) := by
  rw [memberOf]
  · rfl
  · rintro type fields rfl rfl
    rcases h with h | h <;> cases h

theorem run_membersOf_cons (m : Mapper) (owner : String) (f : Field) (rest : List Field)
    (a : Naming.Allocator) :
    let first := (memberOf m owner f).run a
    let more := (membersOf m owner rest).run first.2
    (membersOf m owner (f :: rest)).run a = (first.1 :: more.1, more.2) := by
  rw [membersOf]
  rfl

/-! ## Members that depict fields -/

/-- A field of this type is in every response that has it at all without null. The name of the
object's own type is never null. -/
def isRequired : Option TypeRef → Bool
  | none => true
  | some type => type.isNonNull

mutual

/-- A member of a model depicts a field of a response. -/
inductive Depicts : Field → Member → Prop
  | leaf {key type? children? conditional a} : type? = none ∨ children? = none → a.key = key →
      (a.default? = none ↔ conditional = false ∧ isRequired type?) →
      Depicts (.mk key type? children? conditional) (.leaf a)
  | node {key type fields conditional a name members} : a.key = key →
      (a.default? = none ↔ conditional = false ∧ isRequired (some type)) →
      DepictsAll fields members →
      Depicts (.mk key (some type) (some fields) conditional) (.node a (.mk name none members))

/-- Members depict fields, one by one. -/
inductive DepictsAll : List Field → List Member → Prop
  | nil : DepictsAll [] []
  | cons {f fs m ms} : Depicts f m → DepictsAll fs ms → DepictsAll (f :: fs) (m :: ms)

end

theorem default_attributeOf (key : String) (type? : Option TypeRef) (type : Resolved)
    (conditional : Bool) :
    (attributeOf key type? type conditional).default? = none ↔
      conditional = false ∧ isRequired type? := by
  cases type? with
  | none => cases conditional <;> simp [attributeOf, isRequired]
  | some t => cases conditional <;> cases ht : t.isNonNull <;> simp [attributeOf, isRequired, ht]

mutual

theorem depicts_memberOf (m : Mapper) (owner : String) :
    ∀ (f : Field) (names : Naming.Allocator), Depicts f ((memberOf m owner f).run names).1
  | .mk key (some type) (some fields) conditional, names => by
    rw [run_memberOf_node]
    exact .node rfl (default_attributeOf ..) (depicts_membersOf m _ fields _)
  | .mk key none children? conditional, names => by
    rw [run_memberOf_leaf _ _ _ _ (.inl rfl)]
    exact .leaf (.inl rfl) rfl (default_attributeOf ..)
  | .mk key (some type) none conditional, names => by
    rw [run_memberOf_leaf _ _ _ _ (.inr rfl)]
    exact .leaf (.inr rfl) rfl (default_attributeOf ..)

theorem depicts_membersOf (m : Mapper) (owner : String) :
    ∀ (fs : List Field) (names : Naming.Allocator),
    DepictsAll fs ((membersOf m owner fs).run names).1
  | [], names => by
    rw [membersOf]
    exact .nil
  | f :: rest, names => by
    rw [run_membersOf_cons]
    exact .cons (depicts_memberOf m owner f names) (depicts_membersOf m owner rest _)

end

/-! ## Models at paths -/

theorem DepictsAll.exists_member {fs : List Field} {ms : List Member} (h : DepictsAll fs ms) :
    ∀ f ∈ fs, ∃ m ∈ ms, Depicts f m := by
  intro f hf
  induction fs generalizing ms with
  | nil => cases hf
  | cons g rest ih =>
    cases h with
    | cons hm hms =>
      rcases List.mem_cons.mp hf with rfl | hf
      · exact ⟨_, List.mem_cons_self, hm⟩
      · obtain ⟨m, hmem, hd⟩ := ih hms hf
        exact ⟨m, List.mem_cons_of_mem _ hmem, hd⟩

theorem DepictsAll.exists_field {fs : List Field} {ms : List Member} (h : DepictsAll fs ms) :
    ∀ m ∈ ms, ∃ f ∈ fs, Depicts f m := by
  intro m hm
  induction fs generalizing ms with
  | nil =>
    cases h
    cases hm
  | cons g rest ih =>
    cases h with
    | cons hd hms =>
      rcases List.mem_cons.mp hm with rfl | hm
      · exact ⟨g, List.mem_cons_self, hd⟩
      · obtain ⟨f, hf, hd⟩ := ih hms hm
        exact ⟨f, List.mem_cons_of_mem _ hf, hd⟩

theorem Depicts.key {f : Field} {m : Member} (h : Depicts f m) : m.field.key = f.name := by
  cases h with
  | leaf _ hk _ => exact hk
  | node hk _ _ => exact hk

theorem DepictsAll.keys {fs : List Field} {ms : List Member} (h : DepictsAll fs ms) :
    ms.map (·.field.key) = fs.map (·.name) := by
  induction fs generalizing ms with
  | nil => cases h; rfl
  | cons g rest ih =>
    cases h with
    | cons hm hms => rw [List.map_cons, List.map_cons, hm.key, ih hms]

/-- The model below a member depicts the fields below its key. -/
theorem depicts_below {fs : List Field} {ms : List Member} (hd : Distinct fs) (h : DepictsAll fs ms)
    {a : Attribute} {m : Model} (hm : .node a m ∈ ms) :
    (∃ f ∈ fs, f.name = a.key ∧ f.children?.isSome) ∧
    DepictsAll (childrenAt a.key fs) m.members := by
  obtain ⟨f, hf, hfm⟩ := h.exists_field _ hm
  cases hfm with
  | @node key _ own _ _ _ _ hk _ hown =>
    obtain rfl : a.key = key := hk
    have hkeys : (fs.map (·.name)).Nodup := hd []
    have hbelow : childrenAt a.key fs = own := childrenAt_of_mem hkeys hf
    exact ⟨⟨_, hf, rfl, rfl⟩, hbelow ▸ hown⟩

/-- The model at a path depicts the fields there. -/
theorem nested_depicts {m m' : Model} {path : List String} (hn : m.Nested path m') :
    ∀ fs, Distinct fs → DepictsAll fs m.members → DepictsAll (fieldsAt path fs) m'.members := by
  induction hn with
  | here => intro fs _ h; exact h
  | inside hm _ ih =>
    intro fs hd h
    exact ih _ (hd.childrenAt _) (depicts_below hd h hm).2

/-- Fields with others below them have a type. -/
def Typed (fs : List Field) : Prop :=
  ∀ path, ∀ f ∈ fieldsAt path fs, f.children?.isSome → f.type?.isSome

theorem Typed.childrenAt {fs : List Field} (h : Typed fs) (key : String) :
    Typed (childrenAt key fs) :=
  fun path => h (key :: path)

/-- There is a model below each field with others below it. -/
theorem exists_below_of_mem {fs : List Field} {ms : List Member} (ht : Typed fs)
    (h : DepictsAll fs ms) {f : Field} (hf : f ∈ fs) (hc : f.children?.isSome) :
    ∃ a m, .node a m ∈ ms ∧ a.key = f.name := by
  obtain ⟨member, hmem, hm⟩ := h.exists_member f hf
  cases hm with
  | leaf hleaf _ _ =>
    have htype := ht [] _ hf hc
    rcases hleaf with rfl | rfl
    · cases htype
    · cases hc
  | node hk _ _ => exact ⟨_, _, hmem, hk⟩

theorem exists_parent_of_mem {key : String} {path : List String} {fs : List Field} {f : Field}
    (h : f ∈ fieldsAt path (childrenAt key fs)) : ∃ p ∈ fs, p.name = key ∧ p.children?.isSome := by
  have hne : childrenAt key fs ≠ [] := by
    intro hnil
    rw [hnil, fieldsAt_nil] at h
    cases h
  obtain ⟨g, hg⟩ := List.exists_mem_of_ne_nil _ hne
  obtain ⟨p, hp, hgp⟩ := List.mem_flatMap.mp hg
  obtain ⟨hp, hk⟩ := List.mem_filter.mp hp
  refine ⟨p, hp, eq_of_beq hk, ?_⟩
  cases hc : p.children? with
  | none =>
    rw [hc] at hgp
    cases hgp
  | some own => rfl

/-- There is a model at each path with fields below it. -/
theorem exists_nested_iff {fs : List Field} {m : Model} (hd : Distinct fs) (ht : Typed fs)
    (h : DepictsAll fs m.members) (path : List String) (key : String) :
    (∃ m', m.Nested (path ++ [key]) m') ↔
    ∃ f ∈ fieldsAt path fs, f.name = key ∧ f.children?.isSome := by
  induction path generalizing fs m with
  | nil =>
    constructor
    · rintro ⟨m', hn⟩
      cases hn with
      | inside hm _ => exact (depicts_below hd h hm).1
    · rintro ⟨f, hf, rfl, hc⟩
      obtain ⟨a, m₁, hm, hk⟩ := exists_below_of_mem ht h hf hc
      exact ⟨m₁, hk ▸ .inside hm .here⟩
  | cons k path ih =>
    constructor
    · rintro ⟨m', hn⟩
      cases hn with
      | inside hm hn =>
        exact (ih (hd.childrenAt _) (ht.childrenAt _) (depicts_below hd h hm).2).mp ⟨m', hn⟩
    · rintro ⟨f, hf, hname, hc⟩
      obtain ⟨p, hp, rfl, hpc⟩ := exists_parent_of_mem hf
      obtain ⟨a, m₁, hm, hk⟩ := exists_below_of_mem ht h hp hpc
      obtain ⟨m', hn⟩ := (ih (hd.childrenAt a.key) (ht.childrenAt a.key)
        (depicts_below hd h hm).2).mpr ⟨f, hk ▸ hf, hname, hc⟩
      exact ⟨m', hk ▸ .inside hm hn⟩

/-! ## Blocks of a document -/

/-- The selections of a definition that declares a model, with all spreads expanded in place. -/
def scopeOf? (s : Schema) (d : Document) : Definition → Option Scope
  | .operation o => o.name?.map fun _ => ⟨rootOf s o.kind, inPlace (fragmentsOf d) o.selections⟩
  | .fragment f => some ⟨s.composite? f.on, inPlace (fragmentsOf d) f.selections⟩
  | _ => none

/-- The selections of the definitions of a document that declare models, in order. -/
def scopesOf (s : Schema) (d : Document) : List Scope := d.definitions.filterMap (scopeOf? s d)

/-- A model depicts the fields that selections without spreads ask for. -/
def Describes (env : Env) (sc : Scope) (m : Model) : Prop :=
  ∃ below, Asks env sc.parent? sc.selections below ∧ spreadsIn sc.selections = [] ∧
    DepictsAll (merge below) m.members

theorem describes_inPlace {env : Env} {parent? : Option TypeDefinition} {ss : List Selection}
    {below : List Field} (h : Asks env parent? ss below) {m : Model}
    (hm : DepictsAll (merge below) m.members) :
    Describes env ⟨parent?, inPlace env.fragments ss⟩ m := by
  obtain ⟨ha, hs⟩ := asks_inPlace h
  exact ⟨below, ha, hs, hm⟩

theorem describes_mapM {s : Schema} {d : Document} (m : Mapper) (dedupe : Bool)
    {ds : List Definition} {found : List Shape} (h : Shaped ⟨s, fragmentsOf d⟩ ds found) :
    ∀ names : Naming.Allocator, List.Forall₂ (fun sc b => Describes ⟨s, fragmentsOf d⟩ sc b.model)
      (ds.filterMap (scopeOf? s d)) ((found.mapM (blockOf m dedupe)).run names).1 := by
  induction h with
  | nil => intro names; exact .nil
  | @cons x fields rest shapes hf _ ih =>
    intro names
    cases x with
    | operation o =>
      obtain ⟨below, hb, rfl⟩ := hf
      cases hname : o.name? with
      | none => simpa [shapeOf?, scopeOf?, hname] using ih names
      | some name =>
        have hsc : scopeOf? s d (.operation o) =
            some ⟨rootOf s o.kind, inPlace (fragmentsOf d) o.selections⟩ := by
              simp [scopeOf?, hname]
        rw [List.filterMap_cons_some hsc]
        simp only [shapeOf?, hname, Option.map_some, Option.toList_some, List.singleton_append,
          List.mapM_cons]
        refine .cons (describes_inPlace hb ?_) (ih _)
        exact depicts_membersOf ..
    | fragment f =>
      obtain ⟨below, hb, rfl⟩ := hf
      simp only [shapeOf?, scopeOf?, Option.toList_some, List.singleton_append, List.mapM_cons]
      refine .cons (describes_inPlace hb ?_) (ih _)
      exact depicts_membersOf ..
    | schema => exact ih names
    | type => exact ih names
    | directive => exact ih names

/-- The fields that selections ask for have a type if there are others below them. -/
theorem typed_merge {env : Env} {parent? : Option TypeDefinition} {ss : List Selection}
    {below : List Field} (ha : Asks env parent? ss below) : Typed (merge below) := by
  intro path f hmem hc
  obtain ⟨hinPlace, hs⟩ := asks_inPlace ha
  have hf := (follows_merge below).trans (asks_follows hinPlace hs)
  obtain ⟨⟨e, he, -, ht, hcomp⟩, -⟩ := hf.covers path f.finding (List.mem_map_of_mem hmem)
  obtain ⟨o, -, rfl⟩ := List.mem_map.mp he
  have hb : (o.below? env.schema).isSome := hcomp.trans hc
  have htype : (o.type? env.schema).isSome := by
    rw [Occurrence.below?] at hb
    split at hb
    · assumption
    · cases hb
  exact (congrArg Option.isSome ht).symm.trans htype

/-- A model depicts fields that follow the occurrences in its scope. -/
theorem Describes.follows {env : Env} {sc : Scope} {m : Model} (h : Describes env sc m) :
    ∃ fs, Follows (surveyOf fs) (surveyOfOccurrences env.schema (sc.occurrences env.schema)) ∧
      Distinct fs ∧ Typed fs ∧ DepictsAll fs m.members := by
  obtain ⟨below, ha, hs, hm⟩ := h
  exact ⟨merge below, (follows_merge below).trans (asks_follows ha hs), distinct_merge ha.orderly,
    typed_merge ha, hm⟩

/-- **Blocks.** The blocks of a document describe its named operations and fragments, in order. -/
theorem blocks_describe {s : Schema} {d : Document} {found : List Shape}
    (h : Shaped ⟨s, fragmentsOf d⟩ d.definitions found) (o : Options) :
    List.Forall₂ (fun sc b => Describes ⟨s, fragmentsOf d⟩ sc b.model) (scopesOf s d)
      (resultOf s d o found).blocks :=
  describes_mapM _ _ h _

/-! ## Queries for a pair

A schema with one object of two numbers, `type Query { a: A }` and `type A { x: Int! y: Int! }`. -/

def pairRoot : TypeDefinition where
  name := "Query"
  body := .object [] [{ name := "a", type := .named "A" }]

def pairType : TypeDefinition where
  name := "A"
  body := .object [] [{ name := "x", type := .nonNull (.named "Int") },
    { name := "y", type := .nonNull (.named "Int") }]

/-- The schema of a pair. -/
def pairSchema : Schema where
  roots := [(.query, "Query")]
  types := [pairRoot, pairType]

/-- A query with a variable for conditions, `query Q($c: Boolean!)`. -/
def pairQuery (ss : List Selection) : List Document := [
  ⟨[.operation
    { name? := some "Q"
      variableDefinitions := [{ name := "c", type := .nonNull (.named "Boolean") }]
      selections := ss }]⟩]

/-- The pair under directives, with selections. -/
def pair (ds : List Directive) (ss : List Selection) : Selection := .field none "a" [] ds (some ss)

def ofPair (name : String) : Selection := .field none name [] [] none

theorem part_pairQuery {ss : List Selection} {below : List Field}
    (h : Asks ⟨pairSchema, []⟩ (rootOf pairSchema .query) ss below) :
    ∃ p w, (part pairSchema (Document.concat (pairQuery ss)) {} "operations.py").run [] =
      .ok p w := by
  have hs : Shaped ⟨pairSchema, fragmentsOf (Document.concat (pairQuery ss))⟩
      (Document.concat (pairQuery ss)).definitions _ := .cons ⟨below, h, rfl⟩ .nil
  obtain ⟨w, -, hp⟩ :=
    part_of_shaped {} (show Naming.packageOf "operations.py" = .ok "generated" by rfl) hs []
  exact ⟨_, w, hp⟩

end Graphwright.OperationTypes
