import Graphwright.Proofs.Types.Mapped

/-!
# Names that schema types refer to

The fields of the models of a schema mention the classes of their types, and unions list those of
their members, whether or not there is a declaration for them: `promises` are these classes. Every
other name in the annotations is built in or recorded as an import (`refers_generate`).
-/
namespace Graphwright.SchemaTypes

open Graphwright.Document Graphwright.Module Graphwright.Types

def fieldTypes (t : TypeDefinition) : List TypeRef :=
  match t.body with
  | .object _ fields | .interface _ fields => fields.map (·.type)
  | .input fields => fields.map (·.type)
  | _ => []

def memberClasses (t : TypeDefinition) : List String :=
  match t.body with
  | .union members => members.map Naming.className
  | _ => []

/-- The classes that the declaration of a type relies on: those of its fields, and of its
members. -/
def promises (s : Schema) (t : TypeDefinition) : List String :=
  (fieldTypes t).flatMap (mentioned s) ++ memberClasses t

/-! ## One declaration -/

theorem annotations_leaves (name : String) (description? : Option String) (as : List Attribute) :
    (Model.mk name description? (as.map .leaf)).annotations = annotationsOf as := by
  rw [Model.annotations, Model.all, allBelow_leaves, List.nil_append, List.flatMap_singleton]
  simp [Model.attributes, Model.members, Member.field, Function.comp_def]

/-- The model of a type has the annotations of its fields, and needs what they need. -/
theorem annotations_modelOf {t : TypeDefinition} {typename? : Option Attribute}
    {fields : List (Attribute × Option Description)} {x : Declared}
    (h : modelOf t typename? fields = .ok x) :
    ∃ m, x.declaration = .model m ∧
    m.annotations = annotationsOf (typename?.toList ++ fields.map (·.1)) ∧
      m.annotations.flatMap (·.needs) ⊆ x.needs := by
  obtain ⟨description?, described, rfl, hfields⟩ := modelOf_ok h
  have hsame : annotationsOf described = annotationsOf (fields.map (·.1)) := by
    rw [annotationsOf, annotationsOf, List.map_map]
    exact hfields Attribute.annotation fun _ _ => rfl
  refine ⟨_, rfl, ?_, fun symbol hsymbol => ?_⟩
  · rw [annotations_leaves, annotationsOf, List.map_append, annotationsOf, List.map_append]
    exact congrArg _ hsame
  rw [annotations_leaves, annotationsOf, List.flatMap_map] at hsymbol
  obtain ⟨a, ha, hsymbol⟩ := List.mem_flatMap.mp hsymbol
  have hown : symbol ∈ a.needs := List.mem_append_left _ hsymbol
  rcases List.mem_append.mp ha with ha | ha
  · exact List.mem_append_left _ <| List.mem_append_right _ <| List.mem_cons_of_mem _ <|
      List.mem_flatMap.mpr ⟨a, ha, hown⟩
  · exact List.mem_append_left _ <| List.mem_append_left _ <| List.mem_flatMap.mpr ⟨a, ha, hown⟩

/-- Fields that are made one by one have the types of what they are made of. -/
theorem annotations_mapM {α : Type} {m : Mapper} {f : α → Checked (Attribute × Option Description)}
    {type : α → TypeRef}
    (hf : ∀ x y, f x = .ok y → Attribute.annotation y.1 = .type (m.resolve (type x))) {xs : List α}
    {ys : List (Attribute × Option Description)} (h : xs.mapM f = .ok ys) :
    annotationsOf (ys.map (·.1)) = (xs.map type).map fun ref => .type (m.resolve ref) := by
  rw [annotationsOf, List.map_map, List.map_map]
  exact map_eq_of_mapM_ok hf h

theorem annotations_fieldAttributes {m : Mapper} {fields : List FieldDefinition}
    {found : List (Attribute × Option Description)} (h : fieldAttributes m fields = .ok found) :
    annotationsOf (found.map (·.1)) = (fields.map (·.type)).map fun ref =>
      .type (m.resolve ref) := by
  refine annotations_mapM (fun f a ha => ?_) h
  obtain ⟨_, -, ha⟩ := bind_eq_ok.mp ha
  rw [← pure_eq_ok.mp ha]
  rfl

theorem annotations_inputAttributes {m : Mapper} {fields : List InputValue}
    {found : List (Attribute × Option Description)}
    (h : fields.mapM (fun v =>
      return (attributeOf m v.name v.type (← defaultOf v), v.description?)) =
      Except.ok (ε := Error) found) :
    annotationsOf (found.map (·.1)) = (fields.map (·.type)).map fun ref =>
      .type (m.resolve ref) := by
  refine annotations_mapM (fun v a ha => ?_) h
  obtain ⟨_, -, ha⟩ := bind_eq_ok.mp ha
  rw [← pure_eq_ok.mp ha]
  rfl

section Declared

variable {s : Schema} {r : Registry} (hr : r.Plain)

include hr

theorem refers_modelOf {t : TypeDefinition} {typename? : Option Attribute}
    {fields : List (Attribute × Option Description)} {x : Declared}
    (h : modelOf t typename? fields = .ok x)
    (htypename : ∀ a ∈ typename?, ∃ value, a.annotation = .literal value) {refs : List TypeRef}
    (hfields : annotationsOf (fields.map (·.1)) = refs.map fun ref =>
      .type ((usualMapper s).resolve ref)) :
    Refers x.needs (refs.flatMap (mentioned s)) [] (x.declaration.references r) := by
  obtain ⟨m, hm, hannotations, hneeds⟩ := annotations_modelOf h
  have hliteral : Refers (typename?.toList.flatMap fun a => a.annotation.needs) [] []
      (typename?.toList.flatMap fun a => a.annotation.names r) := by
    cases typename? with
    | none => exact .nil _ _
    | some a =>
      obtain ⟨value, hvalue⟩ := htypename a rfl
      rw [Option.toList_some, List.flatMap_singleton, List.flatMap_singleton, hvalue]
      exact (Refers.nil _ _).cons (hr.local_eq (by decide)) (by decide) (List.mem_singleton_self _)
  have hrefs :
      Refers (refs.flatMap fun ref => ((usualMapper s).resolve ref).imports)
      (refs.flatMap (mentioned s)) []
      (refs.flatMap fun ref => ((usualMapper s).resolve ref).expr.names) :=
    .flatMap fun ref _ => refers_resolve s ref
  have hall : Refers (m.annotations.flatMap (·.needs)) (refs.flatMap (mentioned s)) []
      (m.annotations.flatMap (·.names r)) := by
    rw [hannotations, annotationsOf, List.map_append, ← annotationsOf, ← annotationsOf, hfields,
      annotationsOf]
    simp only [List.flatMap_append, List.flatMap_map]
    exact hliteral.append hrefs
  rw [hm]
  exact hall.mono hneeds (List.Subset.refl _)

/-- **Declarations.** Every name that the declaration of a type refers to is accounted for, but for
the classes it relies on; and these are among the names. -/
theorem refers_declare {skipTypename : Bool} {t : TypeDefinition} {x : Declared}
    (h : declare (usualMapper s) skipTypename t = .ok (some x)) :
    Refers x.needs (promises s t) [] (x.declaration.references r) := by
  unfold promises fieldTypes memberClasses
  cases declaring_of_ok h with
  | object hb hfound hx =>
    rw [hb]
    simp only [List.append_nil]
    refine refers_modelOf hr hx (fun a ha => ?_) (annotations_fieldAttributes hfound)
    split at ha
    · cases ha
    · exact ⟨t.name, by rw [← Option.some.inj ha]; rfl⟩
  | interface hb hfound hx =>
    rw [hb]
    simp only [List.append_nil]
    exact refers_modelOf hr hx nofun (annotations_fieldAttributes hfound)
  | input hb hfound hx =>
    rw [hb]
    simp only [List.append_nil]
    exact refers_modelOf hr hx nofun (annotations_inputAttributes hfound)
  | enum hb _ _ =>
    rw [hb]
    exact .nil _ _
  | union hb =>
    rw [hb]
    exact ⟨fun n hn => .inr (.inr (List.mem_append_left _ hn)), List.Subset.refl _⟩

end Declared

/-! ## All declarations -/

/-- A type without a declaration is a scalar, which relies on nothing. -/
theorem promises_of_declare_none {m : Mapper} {skipTypename : Bool} {t : TypeDefinition}
    (h : declare m skipTypename t = .ok none) (s : Schema) : promises s t = [] := by
  have hclasses : classesOf t = [] := (names_declare h).symm
  unfold classesOf Schema.isScalar at hclasses
  unfold promises fieldTypes memberClasses
  cases hb : t.body <;> simp [hb] at hclasses ⊢

theorem refers_mapM_declare {s : Schema} {r : Registry} (hr : r.Plain) {skipTypename : Bool}
    {ts : List TypeDefinition} {xs : List (Option Declared)}
    (h : ts.mapM (declare (usualMapper s) skipTypename) = .ok xs) :
    Refers ((xs.filterMap id).flatMap (·.needs)) (ts.flatMap (promises s)) []
      ((xs.filterMap id).flatMap (·.declaration.references r)) := by
  induction ts generalizing xs with
  | nil =>
    cases h
    exact .nil _ _
  | cons t rest ih =>
    obtain ⟨x?, more, hx, hmore, rfl⟩ := mapM_cons_eq_ok.mp h
    rw [List.flatMap_cons]
    cases x? with
    | none =>
      rw [promises_of_declare_none hx s, List.nil_append, List.filterMap_cons_none rfl]
      exact ih hmore
    | some x =>
      rw [List.filterMap_cons_some (f := id) rfl, List.flatMap_cons, List.flatMap_cons]
      exact (refers_declare hr hx).append (ih hmore)

/-- **Schema types.** Every name that the types of a schema refer to is built in, or recorded under
its own name, or one of the classes that they rely on; and they refer to all of these. -/
theorem refers_generate {s : Schema} {r : Result} (h : generate s {} = .ok r) :
    r.imports.Plain ∧ Refers (r.imports.imports.map (·.key)) (s.types.flatMap (promises s)) []
      (r.declarations.flatMap (·.references r.imports)) := by
  obtain ⟨-, -, xs, hxs, rfl⟩ := generate_ok.mp h
  have hplain : (resultOf {} (xs.filterMap id)).imports.Plain :=
    (Registry.plain_empty _).recordAll _
  have hneeds : (xs.filterMap id).flatMap (·.needs) ⊆
      (resultOf {} (xs.filterMap id)).imports.imports.map (·.key) :=
    List.Subset.trans (List.subset_cons_self _ _) (Registry.subset_keys_recordAll _ _)
  have hreferences (r : Registry) :
      (resultOf {} (xs.filterMap id)).declarations.flatMap (·.references r) =
      (xs.filterMap id).flatMap (·.declaration.references r) := List.flatMap_map ..
  rw [hreferences]
  exact ⟨hplain, (refers_mapM_declare hplain hxs).mono hneeds (List.Subset.refl _)⟩

end Graphwright.SchemaTypes
