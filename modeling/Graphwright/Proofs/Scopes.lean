import Graphwright.Proofs.Naming.Identifiers
import Graphwright.Proofs.Resolver.Protocols
import Graphwright.Proofs.Response.Declared
import Graphwright.Proofs.Schema.Unique
import Graphwright.Proofs.Totality

/-!
# Names of one scope

The fields of a model, the values of an enum, the methods of an interface and the classes of a
module stand side by side. In the schema and in the response their names are different, by the rules
for schemas and because fields of one key are joined. In the module some have an underscore more,
and a scope may hold a name that none of them has: the field for the name of the object's type, or
the method that tells the type of an object.

* `SchemaTypes.memberNames_declare`: the members of a type are the names of its scope, escaped.
* `OperationTypes.spelled_membersOf`: so are those of the models of a response, at every depth.
* `Resolver.names_interfaceOf?`: so are the methods of an interface.
* `scopes_settled`: names of one scope stay apart exactly if the scope is clear, in each of the
  three parts.
-/
namespace Graphwright

open Graphwright.Document Graphwright.Module Graphwright.Types Graphwright.Response

namespace Module

/-! ## Fields of a model -/

/-- The name of the field for the name of the object's type. -/
def typenameName : String := "typename__"

/-- The field holds the name of the object's type, and is called so. -/
def Attribute.holdsTypename (a : Attribute) : Bool :=
  a.key == "__typename" && a.name == typenameName

/-- The fields of a model by their keys, the one for the name of the object's type by its own
name. -/
def Model.scope (m : Model) : Naming.Scope where
  own := if m.attributes.any (·.holdsTypename) then [typenameName] else []
  words := Naming.keywords
  names := (m.attributes.filter (!·.holdsTypename)).map (·.key)

/-- The keys of a model are different, and its fields are called by them or hold the name of the
object's type. -/
structure Model.Spelled (m : Model) : Prop where
  keys : (m.attributes.map (·.key)).Nodup
  names : ∀ a ∈ m.attributes, a.holdsTypename ∨ a.name = Naming.safeIdentifier a.key

theorem unescaped_typenameName : Naming.Unescaped Naming.keywords typenameName := by
  decide

/-- A scope with at most one name of its own, out of the way of keywords. -/
theorem isProper_keywords {own : String} (hown : Naming.Unescaped Naming.keywords own)
    {names : List String} (hnames : names.Nodup) (present : Prop) [Decidable present] :
    (Naming.Scope.mk (if present then [own] else []) Naming.keywords names).IsProper where
  escapable := Naming.escapable_keywords
  own := by
    dsimp only
    split <;> simp
  unescaped n hn := by
    dsimp only at hn
    split at hn
    · exact List.mem_singleton.mp hn ▸ hown
    · cases hn
  names := hnames

/-- Of the fields with different keys at most one holds the name of the object's type. -/
theorem names_filter_holdsTypename {as : List Attribute} (h : (as.map (·.key)).Nodup) :
    (as.filter (·.holdsTypename)).map (·.name) = if as.any (·.holdsTypename) then [typenameName]
      else [] := by
  have hholds : ∀ a ∈ as.filter (·.holdsTypename), a.key = "__typename" ∧
      a.name = typenameName := by
    intro a ha
    simpa [Attribute.holdsTypename] using (List.mem_filter.mp ha).2
  have hkeys : ((as.filter (·.holdsTypename)).map (·.key)).Nodup :=
    h.sublist (List.filter_sublist.map _)
  cases hfilter : as.filter (·.holdsTypename) with
  | nil =>
    have hnone : as.any (·.holdsTypename) = false := by simpa using hfilter
    rw [hnone]
    rfl
  | cons a rest =>
    have hmem : a ∈ as.filter (·.holdsTypename) := hfilter ▸ List.mem_cons_self
    have hsome : as.any (·.holdsTypename) := List.any_eq_true.mpr ⟨a, List.mem_filter.mp hmem⟩
    cases rest with
    | nil => rw [if_pos hsome, List.map_singleton, (hholds a hmem).2]
    | cons b rest =>
      have hsame : a.key = b.key := (hholds a hmem).1.trans (hholds b (by simp [hfilter])).1.symm
      simp [hfilter, hsame] at hkeys

theorem Model.Spelled.settles {m : Model} (h : m.Spelled) :
    m.scope.Settles (m.attributes.map (·.name)) := by
  have hnames : (m.attributes.filter (!·.holdsTypename)).map (·.name) =
      m.scope.names.map (Naming.escaped Naming.keywords) := by
    rw [Model.scope, List.map_map]
    refine List.map_congr_left fun a ha => ?_
    obtain ⟨ha, hholds⟩ := List.mem_filter.mp ha
    exact (h.names a ha).resolve_left (by simpa using hholds)
  refine Naming.Scope.settles_of_perm ?_ ?_
  · exact isProper_keywords unescaped_typenameName (h.keys.sublist (List.filter_sublist.map _)) _
  · change (m.attributes.map (·.name)).Perm
      (m.scope.own ++ m.scope.names.map (Naming.escaped Naming.keywords))
    rw [← hnames]
    have hperm := (List.filter_append_perm (·.holdsTypename) m.attributes).symm.map (·.name)
    rw [List.map_append, names_filter_holdsTypename h.keys] at hperm
    exact hperm

def Declaration.memberNames : Declaration → List String
  | .model m => m.attributes.map (·.name)
  | .enum _ _ choices => choices.map (·.name)
  | .union _ _ _ => []
  | .mapping v => v.entries.map (·.key)

end Module

/-! ## Classes -/

/-- The classes of the types of some kind. -/
def classScope (s : Schema) (kind : TypeDefinition → Bool) : Naming.Scope where
  words := Naming.classWords
  names := (s.types.filter kind).map (·.name)

theorem isProper_classScope {s : Schema} (h : s.Distinct) (kind : TypeDefinition → Bool) :
    (classScope s kind).IsProper where
  escapable := Naming.escapable_classWords
  own := List.nodup_nil
  unescaped := nofun
  names := h.types.sublist (List.filter_sublist.map _)

theorem identifiers_classScope {s : Schema} (h : s.IsProper) (kind : TypeDefinition → Bool) :
    (classScope s kind).identifiers = (s.types.filter kind).map fun t =>
      Naming.className t.name := by
  rw [Naming.Scope.identifiers, classScope, List.nil_append, List.map_map]
  exact List.map_congr_left fun t ht =>
    (Naming.className_eq (h.types t (List.mem_of_mem_filter ht)).name).symm

namespace SchemaTypes

/-! ## Members of types -/

/-- The members of the declaration of a type: its fields or values, and for an object the name of
its type. -/
def memberScope (skipTypename : Bool) (t : TypeDefinition) : Naming.Scope where
  own := if Schema.isObject t && !skipTypename then [typenameName] else []
  words := Naming.keywords
  names := Schema.fieldNames t.body ++ Schema.valueNames t.body

theorem isProper_memberScope {s : Schema} (h : s.Distinct) {t : TypeDefinition} (ht : t ∈ s.types)
    (skipTypename : Bool) : (memberScope skipTypename t).IsProper := by
  have hnames : (Schema.fieldNames t.body ++ Schema.valueNames t.body).Nodup := by
    have hfields := h.fields t ht
    have hvalues := h.values t ht
    cases hb : t.body with
    | scalar | union _ => exact List.nodup_nil
    | object _ _ | interface _ _ | input _ => simpa [hb, Schema.valueNames] using hfields
    | enum _ => simpa [hb, Schema.fieldNames] using hvalues
  exact isProper_keywords unescaped_typenameName hnames _

theorem memberNames_modelOf {t : TypeDefinition} {typename? : Option Attribute}
    {fields : List (Attribute × Option Description)} {x : Declared}
    (h : modelOf t typename? fields = .ok x) :
    x.declaration.memberNames = typename?.toList.map (·.name) ++ fields.map fun field =>
      field.1.name := by
  obtain ⟨description?, described, rfl, hdescribed⟩ := modelOf_ok h
  rw [← hdescribed (·.name) fun _ _ => rfl, ← List.map_append]
  simp [Declaration.memberNames, Model.attributes, Model.members, Member.field, Function.comp_def]

theorem names_fieldAttributes {m : Mapper} {fields : List FieldDefinition}
    {found : List (Attribute × Option Description)} (h : fieldAttributes m fields = .ok found) :
    found.map (fun field => field.1.name) = (fields.map (·.name)).map Naming.safeIdentifier := by
  rw [List.map_map]
  refine map_eq_of_mapM_ok (fun f a ha => ?_) h
  obtain ⟨_, -, ha⟩ := bind_eq_ok.mp ha
  rw [← pure_eq_ok.mp ha]
  rfl

/-- The members of a declaration are the names of the scope of its type, escaped. -/
theorem memberNames_declare {m : Mapper} {skipTypename : Bool} {t : TypeDefinition} {x : Declared}
    (h : declare m skipTypename t = .ok (some x)) :
    x.declaration.memberNames = (memberScope skipTypename t).identifiers := by
  unfold Naming.Scope.identifiers memberScope Schema.isObject
  rw [← Naming.safeIdentifier_eq]
  cases declaring_of_ok h with
  | object hb hfound hx =>
    rw [memberNames_modelOf hx, names_fieldAttributes hfound, hb]
    cases skipTypename <;> simp [Schema.fieldNames, Schema.valueNames, typenameAttribute,
      typenameName]
  | interface hb hfound hx =>
    rw [memberNames_modelOf hx, names_fieldAttributes hfound, hb]
    simp [Schema.fieldNames, Schema.valueNames]
  | input hb hfound hx =>
    have hnames := map_eq_of_mapM_ok (g := fun field => field.1.name)
      (h := fun v => Naming.safeIdentifier v.name) (fun v a ha => ?_) hfound
    · rw [memberNames_modelOf hx, hnames, hb]
      simp [Schema.fieldNames, Schema.valueNames]
    · obtain ⟨_, -, ha⟩ := bind_eq_ok.mp ha
      rw [← pure_eq_ok.mp ha]
      rfl
  | enum hb hchoices _ =>
    have hnames := map_eq_of_mapM_ok (g := fun choice => choice.name)
      (h := fun v => Naming.safeIdentifier v.name) (fun v a ha => ?_) hchoices
    · rw [Declaration.memberNames, hnames, hb]
      simp [Schema.fieldNames, Schema.valueNames]
    · obtain ⟨_, -, ha⟩ := bind_eq_ok.mp ha
      rw [← pure_eq_ok.mp ha]
  | union hb =>
    rw [hb]
    rfl

theorem flatMap_classesOf (ts : List TypeDefinition) :
    ts.flatMap classesOf = (ts.filter (!Schema.isScalar ·)).map fun t =>
      Naming.className t.name := by
  induction ts with
  | nil => rfl
  | cons t rest ih =>
    rw [List.flatMap_cons, ih, classesOf, List.filter_cons]
    cases Schema.isScalar t <;> rfl

theorem isSome_declare {m : Mapper} {skipTypename : Bool} {t : TypeDefinition}
    {x? : Option Declared} (h : declare m skipTypename t = .ok x?) :
    x?.isSome = !Schema.isScalar t := by
  unfold Schema.isScalar
  cases declaring_of_ok h with
  | scalar hb | object hb _ _ | interface hb _ _ | input hb _ _ | enum hb _ _ | union hb =>
    rw [hb]
    rfl

/-- The declarations of a schema settle the scopes of its types, one by one. -/
theorem settles_mapM_declare {s : Schema} (hs : s.Distinct) {m : Mapper} {skipTypename : Bool}
    {xs : List (Option Declared)} (h : s.types.mapM (declare m skipTypename) = .ok xs) :
    List.Forall₂ (fun t x => (memberScope skipTypename t).Settles x.memberNames)
      (s.types.filter (!Schema.isScalar ·)) ((xs.filterMap id).map (·.declaration)) := by
  have hnames : List.Forall₂ (fun t x => x.memberNames = (memberScope skipTypename t).identifiers)
      (s.types.filter (!Schema.isScalar ·)) ((xs.filterMap id).map (·.declaration)) := by
    rw [List.map_eq_flatMap]
    refine forall₂_mapM_declare (fun t x? hx => ?_) h
    have hsome := isSome_declare hx
    cases x? with
    | none =>
      rw [List.filter_cons_of_neg (by simp [← hsome])]
      exact .nil
    | some x =>
      rw [List.filter_cons_of_pos (by simp [← hsome])]
      exact .cons (memberNames_declare hx) .nil
  have hproper : ∀ t ∈ s.types.filter (!Schema.isScalar ·), (memberScope skipTypename t).IsProper :=
    fun t ht => isProper_memberScope hs (List.mem_of_mem_filter ht) skipTypename
  have hboth := (List.forall₂_and_left _ _).mpr ⟨hproper, hnames⟩
  exact hboth.imp fun t x h => Naming.Scope.settles_of_perm h.1 (.of_eq h.2)

end SchemaTypes

namespace OperationTypes

/-! ## Fields of a response -/

/-- The field for a response key is called by that, or it holds the name of the object's type. -/
theorem name_attributeOf (key : String) (type? : Option TypeRef) (type : Resolved)
    (conditional : Bool) : (attributeOf key type? type conditional).holdsTypename ∨
      (attributeOf key type? type conditional).name = Naming.safeIdentifier key := by
  have hname : (attributeOf key type? type conditional).name = attributeName key type? := rfl
  rw [Attribute.holdsTypename, hname, attributeName]
  split
  · rename_i htypename
    exact .inl (by simpa [attributeOf, typenameName] using (Bool.and_eq_true_iff.mp htypename).2)
  · exact .inr rfl

theorem name_memberOf (m : Mapper) (owner : String) (f : Field) (a : Naming.Allocator) :
    let field := ((memberOf m owner f).run a).1.field
    field.holdsTypename ∨ field.name = Naming.safeIdentifier field.key := by
  obtain ⟨key, type?, children?, conditional⟩ := f
  cases type? with
  | none =>
    rw [run_memberOf_leaf _ _ _ _ (.inl rfl)]
    exact name_attributeOf ..
  | some type =>
    cases children? with
    | none =>
      rw [run_memberOf_leaf _ _ _ _ (.inr rfl)]
      exact name_attributeOf ..
    | some fields => exact name_attributeOf ..

theorem name_membersOf (m : Mapper) (owner : String) (fs : List Field) (a : Naming.Allocator) :
    ∀ x ∈ ((membersOf m owner fs).run a).1,
      x.field.holdsTypename ∨ x.field.name = Naming.safeIdentifier x.field.key := by
  induction fs generalizing a with
  | nil =>
    rw [membersOf]
    exact nofun
  | cons f rest ih =>
    rw [run_membersOf_cons]
    exact List.forall_mem_cons.mpr ⟨name_memberOf m owner f a, ih _⟩

/-- The model for fields with different keys has these for its keys. -/
theorem spelled_mk (m : Mapper) {owner name : String} {fs : List Field} (h : Distinct fs)
    (a : Naming.Allocator) : (Model.mk name none ((membersOf m owner fs).run a).1).Spelled where
  keys := by
    have hkeys := (depicts_membersOf m owner fs a).keys
    rw [Model.attributes, Model.members, List.map_map]
    exact hkeys ▸ h []
  names := List.forall_mem_map.mpr (name_membersOf m owner fs a)

mutual

theorem spelled_memberOf (m : Mapper) (owner : String) : ∀ (f : Field) (a : Naming.Allocator),
    Orderly [f] → ∀ x ∈ Model.allOf ((memberOf m owner f).run a).1, x.Spelled
  | .mk key (some type) (some fields) conditional, a, h => by
    have hfields : Distinct fields := h _ (List.mem_singleton_self _) fields rfl
    rw [run_memberOf_node, Model.allOf, Model.all]
    exact List.forall_mem_append.mpr ⟨spelled_membersOf m _ fields _ hfields.orderly,
      List.forall_mem_singleton.mpr (spelled_mk m hfields _)⟩
  | .mk key none children? conditional, a, _ => by
    rw [run_memberOf_leaf _ _ _ _ (.inl rfl)]
    exact nofun
  | .mk key (some type) none conditional, a, _ => by
    rw [run_memberOf_leaf _ _ _ _ (.inr rfl)]
    exact nofun

/-- **Models.** The models below a model for fields of a response are called by the keys of the
response, at every depth. -/
theorem spelled_membersOf (m : Mapper) (owner : String) :
    ∀ (fs : List Field) (a : Naming.Allocator),
    Orderly fs → ∀ x ∈ Model.allBelow ((membersOf m owner fs).run a).1, x.Spelled
  | [], a, _ => by
    rw [membersOf]
    exact nofun
  | f :: rest, a, h => by
    obtain ⟨hf, hrest⟩ := List.forall_mem_cons.mp h
    rw [run_membersOf_cons, Model.allBelow]
    exact List.forall_mem_append.mpr
      ⟨spelled_memberOf m owner f a (List.forall_mem_singleton.mpr hf),
      spelled_membersOf m owner rest _ hrest⟩

end

/-! ## Blocks -/

/-- Shapes whose fields have different keys at each path. -/
def HasDistinct : Shape → Prop
  | .operation _ _ fields | .fragment _ fields => Distinct fields

theorem hasDistinct_shaped {env : Env} {ds : List Definition} {found : List Shape}
    (h : Shaped env ds found) : ∀ sh ∈ found, HasDistinct sh := by
  intro sh hsh
  have hdistinct : Distinct sh.fields :=
    h.forall_fields (fun hbelow => distinct_merge hbelow.orderly) sh hsh
  cases sh <;> exact hdistinct

theorem spelled_blockOf (m : Mapper) (dedupe : Bool) {sh : Shape} (h : HasDistinct sh)
    (a : Naming.Allocator) : ∀ x ∈ ((blockOf m dedupe sh).run a).1.model.all, x.Spelled := by
  have hmodel {name : String} {fields : List Field} (h : Distinct fields) :
      ∀ x ∈ (Model.mk name none ((membersOf m name fields).run a).1).all, x.Spelled := by
    rw [Model.all]
    exact List.forall_mem_append.mpr ⟨spelled_membersOf m _ fields a h.orderly,
      List.forall_mem_singleton.mpr (spelled_mk m h a)⟩
  cases sh with
  | operation name o fields => exact hmodel h
  | fragment f fields => exact hmodel h

theorem spelled_mapM_blockOf (m : Mapper) (dedupe : Bool) {found : List Shape}
    (h : ∀ sh ∈ found, HasDistinct sh) (a : Naming.Allocator) :
    ∀ b ∈ ((found.mapM (blockOf m dedupe)).run a).1, ∀ x ∈ b.model.all, x.Spelled :=
  forall_mem_run_mapM (fun _ hsh => spelled_blockOf m dedupe (h _ hsh)) a

/-- The names that the blocks of a document declare are different exactly if those of its
definitions are. -/
theorem nodup_names_blocksOf_iff {s : Schema} {d : Document} {found : List Shape} (o : Options)
    (h : Shaped ⟨s, fragmentsOf d⟩ d.definitions found) :
    ((blocksOf s d o found).flatMap (·.names)).Nodup ↔ (reservedNames o.dedupeSuffix d).Nodup := by
  refine ⟨fun hnodup => ?_, nodup_names_blocksOf o h⟩
  obtain ⟨asked, -, hperm⟩ := names_mapM_blockOf (startOf s o).1 o.dedupeSuffix found
    (.reserveAll {} (reservedNames o.dedupeSuffix d))
  rw [show found.flatMap (ownNames o.dedupeSuffix) =
    reservedNames o.dedupeSuffix d from ownNames_shaped h _] at hperm
  exact (List.nodup_append.mp (hperm.nodup_iff.mp hnodup)).1

end OperationTypes

namespace Resolver

/-! ## Methods -/

def Interface.methodNames (i : Interface) : List String :=
  (if i.tellsType then ["resolve_type"] else []) ++ i.methods.map (·.name)

/-- The methods for a type: one for each field, and for an interface or a union the one that tells
the type of an object. -/
def methodScope (t : TypeDefinition) : Naming.Scope where
  own := if Schema.isComposite t && !Schema.isObject t then ["resolve_type"] else []
  words := Naming.keywords
  names := (Schema.fieldsOf t).map (·.name)

theorem isProper_methodScope {s : Schema} (h : s.Distinct) {t : TypeDefinition} (ht : t ∈ s.types) :
    (methodScope t).IsProper := by
  have hunescaped : Naming.Unescaped Naming.keywords "resolve_type" := by decide
  have hnames : ((Schema.fieldsOf t).map (·.name)).Nodup := by
    have hfields := h.fields t ht
    unfold Schema.fieldsOf
    cases hb : t.body with
    | object _ _ | interface _ _ => simpa [hb, Schema.fieldNames] using hfields
    | scalar | union _ | enum _ | input _ => exact List.nodup_nil
  exact isProper_keywords hunescaped hnames _

/-- The methods of an interface are the names of the scope of its type, escaped. -/
theorem names_interfaceOf? {m : Mapper} {t : TypeDefinition} {i : Interface}
    (h : interfaceOf? m t = some i) :
    i.methodNames = (methodScope t).identifiers ∧ i.name = Naming.className t.name := by
  unfold interfaceOf? at h
  unfold Interface.methodNames methodScope Naming.Scope.identifiers Schema.isComposite
    Schema.isObject Schema.fieldsOf
  rw [← Naming.safeIdentifier_eq]
  cases hb : t.body with
  | object _ _ | interface _ _ | union _ =>
    simp only [hb, Option.some.injEq] at h
    subst h
    simp [Interface.tellsType, methodOf]
  | scalar | enum _ | input _ => simp [hb] at h

theorem names_interfaces (m : Mapper) (ts : List TypeDefinition) :
    (ts.filterMap (interfaceOf? m)).map (·.name) =
      (ts.filter Schema.isComposite).map fun t => Naming.className t.name := by
  have hsame :
      List.Forall₂ (· = ·) ((ts.filter Schema.isComposite).map fun t => Naming.className t.name)
      ((ts.filterMap (interfaceOf? m)).map (·.name)) := by
    rw [List.forall₂_map_left_iff, List.forall₂_map_right_iff]
    exact (forall₂_interfaceOf? m ts).imp fun t i hi => (names_interfaceOf? hi).2.symm
  rw [List.forall₂_eq_eq_eq] at hsame
  exact hsame.symm

end Resolver

/-! ## All scopes -/

/-- **Scopes.** Let a text be read and its schema be built. In the schema types that are made of it,
the members of each declaration are the fields or values of the type, keywords escaped, and perhaps
the field for the type's name; the classes are those of the types, keywords and imported names
escaped. In the operation types, the fields of each model are called by their keys, keywords
escaped, but for the one that holds the name of the object's type. In the resolver interfaces, the
methods of each are called like the fields of the type, keywords escaped, behind the one that tells
the type of an object, if there is one. Each time the names are different exactly if no word meets
its own escape in the scope, and none of its names is one that the scope has of its own. The names
that operation types declare are different exactly if those of the definitions are. -/
theorem scopes_settled {source : Source} {d : Document} {s : Schema}
    (hread : Document.read source = .ok d) (hbuild : Schema.build d = .ok s) (o : Options)
    (path : String) : (∀ p, SchemaTypes.part s o path = .ok p →
      ∃ r : SchemaTypes.Result, SchemaTypes.generate s o = .ok r ∧ p.body = r.body ∧
      List.Forall₂ (fun t x => (SchemaTypes.memberScope o.skipTypename t).Settles x.memberNames)
        (s.types.filter (!Schema.isScalar ·)) r.declarations ∧
      (classScope s (!Schema.isScalar ·)).Settles (r.declarations.flatMap (·.names))) ∧
    (∀ ds w p w', (OperationTypes.part s (Document.concat ds) o path).run w = .ok p w' →
      ∃ r : OperationTypes.Result,
        (OperationTypes.generate s (Document.concat ds) o).run w = .ok r w' ∧
        p.body = r.body ∧
        (∀ b ∈ r.blocks, ∀ m ∈ b.model.all, m.scope.Settles (m.attributes.map (·.name))) ∧
        ((r.blocks.flatMap (·.names)).Nodup ↔
          (OperationTypes.reservedNames o.dedupeSuffix (Document.concat ds)).Nodup)) ∧
    ∀ p, Resolver.part s o path = .ok p → ∃ package, ∃ r : Resolver.Result,
    Resolver.generate s o package = .ok r ∧ p.body = r.body o.asyncResolvers ∧
      List.Forall₂ (fun t i => (Resolver.methodScope t).Settles i.methodNames)
        (s.types.filter Schema.isComposite) r.interfaces ∧
      (classScope s Schema.isComposite).Settles (r.interfaces.map (·.name)) := by
  have hproper := isProper_of_build hread hbuild
  have hdistinct := Schema.distinct_of_build hbuild
  refine ⟨fun p hp => ?_, fun ds w p w' hp => ?_, fun p hp => ?_⟩
  · obtain ⟨package, r, -, hr, rfl⟩ := SchemaTypes.part_ok.mp hp
    obtain ⟨-, -, xs, hxs, rfl⟩ := SchemaTypes.generate_ok.mp hr
    refine ⟨_, hr, rfl, SchemaTypes.settles_mapM_declare hdistinct hxs, ?_⟩
    refine Naming.Scope.settles_of_perm (isProper_classScope hdistinct _) (.of_eq ?_)
    rw [SchemaTypes.names_generate hr, identifiers_classScope hproper,
      SchemaTypes.flatMap_classesOf]
  · obtain ⟨package, found, -, hshaped, hgenerate, rfl⟩ := OperationTypes.part_ok hp
    refine ⟨_, hgenerate, rfl, fun b hb m hm => ?_,
      OperationTypes.nodup_names_blocksOf_iff o hshaped⟩
    exact (OperationTypes.spelled_mapM_blockOf _ _
      (OperationTypes.hasDistinct_shaped hshaped) _ b hb m hm).settles
  · obtain ⟨package, r, -, hr, rfl⟩ := Resolver.part_ok.mp hp
    obtain ⟨m, imports, -, -, -, rfl⟩ := Resolver.generate_ok.mp hr
    have hinterfaces := Resolver.forall₂_interfaceOf? m s.types
    refine ⟨package, _, hr, rfl, ?_, ?_⟩
    · have hscopes : ∀ t ∈ s.types.filter Schema.isComposite, (Resolver.methodScope t).IsProper :=
        fun t ht => Resolver.isProper_methodScope hdistinct (List.mem_of_mem_filter ht)
      exact ((List.forall₂_and_left _ _).mpr ⟨hscopes, hinterfaces⟩).imp fun t i h =>
        Naming.Scope.settles_of_perm h.1 (.of_eq (Resolver.names_interfaceOf? h.2).1)
    · refine Naming.Scope.settles_of_perm (isProper_classScope hdistinct _) (.of_eq ?_)
      rw [identifiers_classScope hproper]
      exact Resolver.names_interfaces m s.types

/-- Fields and values called like keywords and like the name of a method, out of each other's
way. -/
def keywordSdl : String := "type Query \x7b from: Int type_: Int resolve_type: E \x7d " ++
  "interface N \x7b class: Int \x7d enum E \x7b None in \x7d scalar Field"

/-- A query for the name of the object's type and for a field called like a keyword. -/
def keywordSelections : List Selection :=
  [.field none "__typename" [] [] none, .field none "from" [] [] none]

/-- The documents of the query. -/
def keywordDocuments : List Document :=
  [⟨[.operation { name? := some "Q", selections := keywordSelections }]⟩]

theorem scopes_settled_keywords :
    ∃ d s, Document.read ⟨keywordSdl, "GraphQL request"⟩ = .ok d ∧ Schema.build d = .ok s ∧
      (∃ p, ∃ r : SchemaTypes.Result, SchemaTypes.part s {} "types.py" = .ok p ∧ p.body = r.body ∧
        List.Forall₂ (fun _ x => x.memberNames.Nodup)
          (s.types.filter (!Schema.isScalar ·)) r.declarations ∧
        (r.declarations.flatMap (·.names)).Nodup) ∧
      (∃ p w, ∃ r : OperationTypes.Result,
        (OperationTypes.part s (Document.concat keywordDocuments) {} "types.py").run [] = .ok p w ∧
        p.body = r.body ∧
          (∀ b ∈ r.blocks, ∀ m ∈ b.model.all, m.scope.Settles (m.attributes.map (·.name))) ∧
          (r.blocks.flatMap (·.names)).Nodup) ∧
      ∃ p, ∃ r : Resolver.Result, Resolver.part s {} "types.py" = .ok p ∧ p.body = r.body false ∧
        List.Forall₂ (fun _ i => i.methodNames.Nodup)
          (s.types.filter Schema.isComposite) r.interfaces ∧
        (r.interfaces.map (·.name)).Nodup := by
  obtain ⟨d, s, hread, hbuild, hfacts⟩ := exists_of_any_schemaOf? keywordSdl
    (P := fun s => (SchemaTypes.part s {} "types.py").toOption.isSome &&
      (Resolver.part s {} "types.py").toOption.isSome &&
        (fieldTypeOn s (rootOf s .query) "from").isSome &&
      decide ((classScope s (!Schema.isScalar ·)).IsClear ∧
        (classScope s Schema.isComposite).IsClear) &&
      decide (∀ t ∈ s.types, (SchemaTypes.memberScope false t).IsClear ∧
        (Resolver.methodScope t).IsClear))
    (by decide +kernel)
  simp only [Bool.and_eq_true, decide_eq_true_eq] at hfacts
  obtain ⟨⟨⟨⟨htypes, hresolvers⟩, hfrom⟩, hclasses, hinterfaces⟩, hclear⟩ := hfacts
  obtain ⟨p, hp⟩ := exists_ok_of_isSome htypes
  obtain ⟨q, hq⟩ := exists_ok_of_isSome hresolvers
  obtain ⟨type, htype⟩ := Option.isSome_iff_exists.mp hfrom
  have hasks : Asks ⟨s, []⟩ (rootOf s .query) keywordSelections _ :=
    .typename (.leaf (by decide) htype .nil)
  have hshaped : Shaped ⟨s, []⟩ (Document.concat keywordDocuments).definitions _ :=
    .cons ⟨_, hasks, rfl⟩ .nil
  obtain ⟨w, -, ho⟩ := OperationTypes.part_of_shaped (d := Document.concat keywordDocuments) {}
    (show Naming.packageOf "types.py" = .ok "generated" by rfl) hshaped []
  obtain ⟨hfirst, hsecond, hthird⟩ := scopes_settled hread hbuild {} "types.py"
  obtain ⟨r, -, hbody, hmembers, hnames⟩ := hfirst p hp
  obtain ⟨r', -, hbody', hfields, hdefinitions⟩ := hsecond keywordDocuments [] _ w ho
  obtain ⟨package, r'', -, hbody'', hmethods, hnames''⟩ := hthird q hq
  refine ⟨d, s, hread, hbuild, ⟨p, r, hp, hbody, ?_, hnames.2.mpr hclasses⟩,
    ⟨_, w, r', ho, hbody', hfields, hdefinitions.mpr (by decide +kernel)⟩,
    q, r'', hq, hbody'', ?_, hnames''.2.mpr hinterfaces⟩
  · exact ((List.forall₂_and_left _ _).mpr
      ⟨fun t ht => (hclear t (List.mem_of_mem_filter ht)).1, hmembers⟩).imp
      fun t x h => h.2.2.mpr h.1
  · exact ((List.forall₂_and_left _ _).mpr
      ⟨fun t ht => (hclear t (List.mem_of_mem_filter ht)).2, hmethods⟩).imp
      fun t i h => h.2.2.mpr h.1

/-- A keyword, and its escape. -/
def clashingSdl : String := "type Query \x7b from: Int from_: Int \x7d"

/-- Two fields of one type whose members have one name. -/
theorem member_twice :
    ∃ d s p, ∃ r : SchemaTypes.Result, Document.read ⟨clashingSdl, "GraphQL request"⟩ = .ok d ∧
      Schema.build d = .ok s ∧ SchemaTypes.part s {} "types.py" = .ok p ∧
      SchemaTypes.generate s {} = .ok r ∧
      p.body = r.body ∧ s.types.map (Schema.fieldNames ·.body) = [["from", "from_"]] ∧
      r.declarations.map (·.memberNames) = [["typename__", "from_", "from_"]] := by
  obtain ⟨d, s, hread, hbuild, hfacts⟩ := exists_of_any_schemaOf? clashingSdl
    (P := fun s => (SchemaTypes.part s {} "types.py").toOption.isSome &&
      s.types.map (Schema.fieldNames ·.body) == [["from", "from_"]] &&
      (SchemaTypes.generate s {}).toOption.any fun (r : SchemaTypes.Result) =>
        r.declarations.map (·.memberNames) ==
          [["typename__", "from_", "from_"]]) (by decide +kernel)
  simp only [Bool.and_eq_true, beq_iff_eq] at hfacts
  obtain ⟨⟨hpart, hfields⟩, hnames⟩ := hfacts
  obtain ⟨p, hp⟩ := exists_ok_of_isSome hpart
  obtain ⟨package, r, -, hr, rfl⟩ := SchemaTypes.part_ok.mp hp
  rw [hr] at hnames
  exact ⟨d, s, _, r, hread, hbuild, hp, hr, rfl, hfields, beq_iff_eq.mp hnames⟩

end Graphwright
