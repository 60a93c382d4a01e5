import Graphwright.Proofs.Response.Declared
import Graphwright.Proofs.Types.Mapped

/-!
# Names that operation types refer to

A field with others below it has a model of its own, and its annotation refers to that one. All
other fields, and the variables, have types of the schema, and their annotations mention the classes
of these (`shapeTypes`), as far as they have some. Every other name is built in or recorded as
an import (`refers_resultOf`).
-/
namespace Graphwright.OperationTypes

open Graphwright.Document Graphwright.Module Graphwright.Types Graphwright.Response

/-! ## Types that are mentioned -/

mutual

def leafTypesOf : Field → List TypeRef
  | .mk _ (some _) (some fields) _ => leafTypesAll fields
  | .mk _ (some type) none _ => [type]
  | .mk _ none _ _ => []

def leafTypesAll : List Field → List TypeRef
  | [] => []
  | f :: rest => leafTypesOf f ++ leafTypesAll rest

end

/-- The types that are mentioned by what is declared for a shape. -/
def shapeTypes : Shape → List TypeRef
  | .operation _ o fields => o.variableDefinitions.map (·.type) ++ leafTypesAll fields
  | .fragment _ fields => leafTypesAll fields

/-! ## Names of members -/

/-- The names that members refer to, and the members of the models below them. -/
def referencesBelow (r : Registry) (ms : List Member) : List String :=
  ((Model.allBelow ms).flatMap fun m => annotationsOf m.attributes).flatMap (·.names r) ++
    (annotationsOf (ms.map (·.field))).flatMap (·.names r)

section References

variable (r : Registry)

theorem references_model (name : String) (description? : Option String) (ms : List Member) :
    (Declaration.model (.mk name description? ms)).references r = referencesBelow r ms := by
  rw [Declaration.references, Model.annotations, Model.all, List.flatMap_append,
    List.flatMap_singleton, List.flatMap_append]
  rfl

/-- The names of a model below come before those of the fields around it. -/
theorem perm_referencesBelow_cons (x : Member) (ms : List Member) :
    (referencesBelow r [x] ++ referencesBelow r ms).Perm (referencesBelow r (x :: ms)) := by
  simp only [referencesBelow, annotationsOf, Model.allBelow, List.append_nil, List.flatMap_append,
    List.map_cons, List.map_nil, List.flatMap_cons, List.flatMap_nil, List.append_assoc]
  refine .append_left _ ?_
  rw [← List.append_assoc, ← List.append_assoc]
  exact List.perm_append_comm.append_right _

theorem referencesBelow_leaf (a : Attribute) :
    referencesBelow r [.leaf a] = a.annotation.names r := by
  simp [referencesBelow, annotationsOf, Model.allBelow, Model.allOf, Member.field]

theorem referencesBelow_node (a : Attribute) (m : Model) :
    referencesBelow r [.node a m] = (Declaration.model m).references r ++ a.annotation.names r := by
  simp [referencesBelow, annotationsOf, Model.allBelow, Model.allOf, Declaration.references,
    Model.annotations, Member.field]

end References

section Members

variable {s : Schema} {r : Registry}

theorem refers_model {ms : List Member} {promised own : List String} (name : String)
    (description? : Option String)
    (h : Refers (Model.needsBelow ms) promised own (referencesBelow r ms)) :
    Refers (Model.mk name description? ms).needs promised own
      ((Declaration.model (.mk name description? ms)).references r) := by
  rw [references_model]
  refine h.mono (fun symbol hsymbol => ?_) (List.Subset.refl _)
  exact List.mem_cons_of_mem _ (List.mem_append_left _ hsymbol)

variable (hr : r.Plain)

include hr

/-- The annotation of a field refers to what its type refers to. -/
theorem refers_attributeOf (key : String) (type? : Option TypeRef) (conditional : Bool)
    {t : Resolved} {promised own : List String} (h : Refers t.imports promised own t.expr.names) :
    let a := attributeOf key type? t conditional
    Refers a.needs promised own (a.annotation.names r) := by
  intro a
  have hneeds : a.annotation.needs ⊆ a.needs := List.subset_append_left _ _
  refine Refers.mono hneeds (List.Subset.refl _) ?_
  have hcases (p : Bool) : (if p then Annotation.sometimes t else .type t) = .sometimes t ∨
      (if p then Annotation.sometimes t else .type t) = .type t := by cases p <;> simp
  have hboth : a.annotation = .sometimes t ∨ a.annotation = .type t := hcases _
  rcases hboth with heq | heq <;> rw [heq]
  · exact (h.mono (List.subset_append_left _ _) (List.Subset.refl _)).cons (hr.local_eq (by decide))
      (by decide) (List.mem_append_right t.imports (List.mem_singleton_self _))
  · exact h

theorem refers_leaf (key : String) (type? : Option TypeRef) (conditional : Bool) :
    let a := attributeOf key type? (leafType (usualMapper s) type?) conditional
    Refers a.needs (type?.toList.flatMap (mentioned s)) [] (referencesBelow r [.leaf a]) := by
  intro a
  rw [referencesBelow_leaf]
  refine refers_attributeOf hr key type? conditional ?_
  cases type? with
  | none => exact ⟨fun n hn => .inl (List.mem_singleton.mp hn ▸ by decide), nofun⟩
  | some ref =>
    rw [Option.toList_some, List.flatMap_singleton]
    exact refers_resolve s ref

theorem refers_node {key name : String} {type : TypeRef} {conditional : Bool}
    {description? : Option String} {promised : List String} {ms : List Member}
    (h : Refers (Model.needsBelow ms) promised (namesBelow ms) (referencesBelow r ms)) :
    let member := Member.node
      (attributeOf key (some type) ((usualMapper s).resolve type (some ⟨name, []⟩)) conditional)
      (.mk name description? ms)
    Refers (Model.needsOf member) promised (namesBelow [member]) (referencesBelow r [member]) := by
  intro member
  have hfield := refers_attributeOf hr key (some type) conditional
    (refers_resolve_base (usualMapper s) type name)
  have hall := (refers_model name description? h).append hfield
  rw [List.append_nil] at hall
  rw [referencesBelow_node, namesBelow_cons_node]
  exact hall.mono (List.Subset.refl _) (List.subset_append_left _ _)

end Members

mutual

theorem refers_memberOf {s : Schema} {r : Registry} (hr : r.Plain) (owner : String) :
    ∀ (f : Field) (a : Naming.Allocator),
      let x := ((memberOf (usualMapper s) owner f).run a).1
      Refers (Model.needsOf x) ((leafTypesOf f).flatMap (mentioned s)) (namesBelow [x])
      (referencesBelow r [x])
  | .mk key (some type) (some fields) conditional, a => by
    rw [run_memberOf_node, leafTypesOf]
    exact refers_node hr (refers_membersOf hr _ fields _)
  | .mk key none children? conditional, a => by
    rw [leafTypesOf, run_memberOf_leaf _ _ _ _ (.inl rfl)]
    exact refers_leaf hr key none conditional
  | .mk key (some type) none conditional, a => by
    rw [leafTypesOf, run_memberOf_leaf _ _ _ _ (.inr rfl)]
    exact refers_leaf hr key (some type) conditional

theorem refers_membersOf {s : Schema} {r : Registry} (hr : r.Plain) (owner : String) :
    ∀ (fs : List Field) (a : Naming.Allocator),
      let xs := ((membersOf (usualMapper s) owner fs).run a).1
      Refers (Model.needsBelow xs) ((leafTypesAll fs).flatMap (mentioned s)) (namesBelow xs)
      (referencesBelow r xs)
  | [], a => by
    rw [membersOf, leafTypesAll]
    exact .nil _ _
  | f :: rest, a => by
    let first := (memberOf (usualMapper s) owner f).run a
    let more := (membersOf (usualMapper s) owner rest).run first.2
    have hall : Refers (Model.needsOf first.1 ++ Model.needsBelow more.1) _ _ _ :=
      (refers_memberOf hr owner f a).append (refers_membersOf hr owner rest first.2)
    rw [← namesBelow_cons, ← List.flatMap_append] at hall
    rw [run_membersOf_cons, leafTypesAll]
    exact hall.perm (perm_referencesBelow_cons ..)

end

/-! ## Blocks -/

def Block.references (r : Registry) (b : Block) : List String :=
  b.declarations.flatMap (·.references r)

section Blocks

variable {s : Schema} {r : Registry} (hr : r.Plain)

include hr

theorem refers_modelOf (name : String) (fields : List Field) (a : Naming.Allocator) :
    let m := ((modelOf (usualMapper s) name fields).run a).1
    Refers m.needs ((leafTypesAll fields).flatMap (mentioned s)) m.names
    ((Declaration.model m).references r) := by
  let ms := ((membersOf (usualMapper s) name fields).run a).1
  have hms : Refers (Model.needsBelow ms) _ (namesBelow ms) (referencesBelow r ms) :=
    refers_membersOf hr name fields a
  change Refers (Model.mk name none ms).needs _ (Model.mk name none ms).names
    ((Declaration.model (.mk name none ms)).references r)
  rw [names_model]
  exact (refers_model name none hms).mono (List.Subset.refl _) (List.subset_append_left _ _)

theorem refers_entry {promised : List String} :
    ∀ e : Entry, Refers e.type.imports promised [] e.type.expr.names →
    Refers e.needs promised [] (e.names r)
  | ⟨_, type, false⟩, h => by
    rw [Entry.needs]
    exact h.mono (List.subset_append_left _ _) (List.Subset.refl _)
  | ⟨_, type, true⟩, h =>
    (h.mono (List.subset_append_left _ _) (List.Subset.refl _)).cons (hr.local_eq (by decide))
      (by decide) (List.mem_append_right _ (List.mem_singleton_self _))

theorem refers_variablesOf (resultName : String) (o : Operation) :
    let v := variablesOf (usualMapper s) resultName o
    Refers v.needs ((o.variableDefinitions.map (·.type)).flatMap (mentioned s)) []
      ((Declaration.mapping v).references r) := by
  have hentries : Refers (o.variableDefinitions.flatMap _) _ _ _ := .flatMap fun d _ =>
    refers_entry hr ⟨d.name, _, !d.type.isNonNull || d.default?.isSome⟩ (refers_resolve s d.type)
  intro v
  rw [List.flatMap_map]
  have hneeds : v.needs = mappingSymbol :: o.variableDefinitions.flatMap _ :=
    congrArg _ (List.flatMap_map ..)
  have hreferences : (Declaration.mapping v).references r = o.variableDefinitions.flatMap _ :=
    List.flatMap_map ..
  rw [hneeds, hreferences]
  exact hentries.mono (List.subset_cons_self _ _) (List.Subset.refl _)

/-- **Blocks.** Every name that a block refers to is accounted for, but for the classes that its
shape mentions and the names that it declares itself; and it mentions all of these classes. -/
theorem refers_blockOf (dedupe : Bool) (sh : Shape) (a : Naming.Allocator) :
    let b := ((blockOf (usualMapper s) dedupe sh).run a).1
    Refers b.needs ((shapeTypes sh).flatMap (mentioned s)) b.names (b.references r) := by
  cases sh with
  | operation name o fields =>
    let result := resultName dedupe name o.kind
    let v := variablesOf (usualMapper s) result o
    let m := ((modelOf (usualMapper s) result fields).run a).1
    have hall : Refers (v.needs ++ m.needs) _ ([] ++ m.names) _ :=
      (refers_variablesOf hr result o).append (refers_modelOf hr result fields a)
    rw [← List.flatMap_append] at hall
    have hneeds : Block.needs ⟨some v, m⟩ = v.needs ++ m.needs := by simp [Block.needs]
    have hnames : Block.names ⟨some v, m⟩ = v.name :: m.names := by
      simp [Block.names, Block.declarations, Declaration.names]
    have hreferences : Block.references r ⟨some v, m⟩ =
        (Declaration.mapping v).references r ++ (Declaration.model m).references r := by
      simp [Block.references, Block.declarations]
    change Refers (Block.needs ⟨some v, m⟩) _ (Block.names ⟨some v, m⟩)
      (Block.references r ⟨some v, m⟩)
    rw [hneeds, hnames, hreferences]
    exact hall.mono (List.Subset.refl _) (List.subset_cons_self _ _)
  | fragment f fields =>
    let m := ((modelOf (usualMapper s) (Naming.fragmentTypeName f.name) fields).run a).1
    have hnames : Block.names ⟨none, m⟩ = m.names := List.append_nil _
    have hreferences : Block.references r ⟨none, m⟩ = (Declaration.model m).references r :=
      List.append_nil _
    change Refers m.needs _ (Block.names ⟨none, m⟩) (Block.references r ⟨none, m⟩)
    rw [hnames, hreferences]
    exact refers_modelOf hr _ fields a

theorem refers_mapM_blockOf (dedupe : Bool) (found : List Shape) (a : Naming.Allocator) :
    let blocks := ((found.mapM (blockOf (usualMapper s) dedupe)).run a).1
    Refers (blocks.flatMap (·.needs)) ((found.flatMap shapeTypes).flatMap (mentioned s))
    (blocks.flatMap (·.names)) (blocks.flatMap (·.references r)) := by
  induction found generalizing a with
  | nil => exact .nil _ _
  | cons sh rest ih =>
    rw [run_mapM_cons, List.flatMap_cons, List.flatMap_append]
    exact (refers_blockOf hr dedupe sh a).append (ih _)

end Blocks

/-- **Operation types.** Every name that the operation types of a document refer to is built in, or
recorded under its own name, or one of the classes that the shapes mention, or one of the names that
they declare; and they refer to all of the classes. -/
theorem refers_resultOf (s : Schema) (d : Document) (found : List Shape) :
    let r := resultOf s d {} found
    r.imports.Plain ∧ Refers (r.imports.imports.map (·.key))
    ((found.flatMap shapeTypes).flatMap (mentioned s))
      (r.blocks.flatMap (·.names)) (r.blocks.flatMap (·.references r.imports)) := by
  intro r
  have hplain : r.imports.Plain :=
    ((Registry.plain_empty _).recordAll [annotationsSymbol]).recordAll _
  have hneeds : r.blocks.flatMap (·.needs) ⊆ r.imports.imports.map (·.key) :=
    Registry.subset_keys_recordAll _ _
  exact ⟨hplain, (refers_mapM_blockOf hplain _ found _).mono hneeds (List.Subset.refl _)⟩

end Graphwright.OperationTypes
