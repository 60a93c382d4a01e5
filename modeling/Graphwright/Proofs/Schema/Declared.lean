import Mathlib.Data.List.Forall2
import Graphwright.Proofs.Outcome
import Graphwright.Schema.Declare

/-!
# Names that schema types declare

Every type of a schema but a scalar has one declaration, which is called like the class of the type
and declares nothing else. So the declarations of a schema have the names of these classes, in the
order of the types (`names_generate`).

How a declaration is made is said once, by `Declaring`; what holds of the declarations of single
types is carried to those of a whole schema by `forall₂_mapM_declare`.
-/
namespace Graphwright.SchemaTypes

open Graphwright.Document Graphwright.Module Graphwright.Types

theorem allBelow_leaves (as : List Attribute) : Model.allBelow (as.map .leaf) = [] := by
  induction as with
  | nil => rfl
  | cons a rest ih => simp [Model.allBelow, Model.allOf, ih]

/-- How the model of a type is made: of the field for the type's name, and of the other fields,
which only their descriptions have been added to. -/
theorem modelOf_ok {t : TypeDefinition} {typename? : Option Attribute}
    {fields : List (Attribute × Option Description)} {x : Declared}
    (h : modelOf t typename? fields = .ok x) :
    ∃ description? described,
      x = { declaration :=
              .model (.mk (Naming.className t.name) description?
                ((typename?.toList ++ described).map .leaf))
            needs := described.flatMap (·.needs) ++ modelSymbol ::
              typename?.toList.flatMap (·.needs) ++
              if Model.hasRenamed (typename?.toList ++ described) then [settingsSymbol] else [] } ∧
        ∀ {β : Type} (g : Attribute → β), (∀ a d?, g { a with description? := d? } = g a) →
          described.map g = fields.map fun field => g field.1 := by
  unfold modelOf at h
  obtain ⟨description?, -, h⟩ := bind_eq_ok.mp h
  obtain ⟨described, hdescribed, h⟩ := bind_eq_ok.mp h
  refine ⟨description?, described, (pure_eq_ok.mp h).symm, fun g hg => ?_⟩
  refine map_eq_of_mapM_ok (fun field a ha => ?_) hdescribed
  obtain ⟨d?, -, ha⟩ := bind_eq_ok.mp ha
  rw [← pure_eq_ok.mp ha, hg]

theorem names_modelOf {t : TypeDefinition} {typename? : Option Attribute}
    {fields : List (Attribute × Option Description)} {x : Declared}
    (h : modelOf t typename? fields = .ok x) : x.declaration.names = [Naming.className t.name] := by
  obtain ⟨description?, described, rfl, -⟩ := modelOf_ok h
  simp only [Declaration.names, Model.names, Model.all, allBelow_leaves]
  rfl

/-! ## The declaration of a type -/

/-- How the declaration of a type is made; a scalar has none. -/
inductive Declaring (m : Mapper) (skipTypename : Bool) (t : TypeDefinition) : Option Declared → Prop
  | scalar : t.body = .scalar → Declaring m skipTypename t none
  | object {parents : List String} {fields : List FieldDefinition}
      {found : List (Attribute × Option Description)}
      {x : Declared} :
      t.body = .object parents fields → fieldAttributes m fields = .ok found →
      modelOf t (if skipTypename then none else some (typenameAttribute t.name)) found = .ok x →
      Declaring m skipTypename t (some x)
  | interface {parents : List String} {fields : List FieldDefinition}
      {found : List (Attribute × Option Description)}
      {x : Declared} :
      t.body = .interface parents fields → fieldAttributes m fields = .ok found →
      modelOf t none found = .ok x →
      Declaring m skipTypename t (some x)
  | input {fields : List InputValue} {found : List (Attribute × Option Description)}
      {x : Declared} :
      t.body = .input fields →
      fields.mapM (fun v => return (attributeOf m v.name v.type (← defaultOf v), v.description?)) =
        Except.ok (ε := Error) found →
      modelOf t none found = .ok x → Declaring m skipTypename t (some x)
  | enum {values : List EnumValue} {choices : List Choice} {description? : Option String} :
      t.body = .enum values →
      values.mapM (fun v => return ({ key := v.name, name := Naming.safeIdentifier v.name
                                      description? := ← describe v.description? } : Choice)) =
        Except.ok (ε := Error) choices →
      describe t.description? = .ok description? →
      Declaring m skipTypename t
        (some ⟨.enum (Naming.className t.name) description? choices, [enumSymbol]⟩)
  | union {members : List String} :
      t.body = .union members →
      Declaring m skipTypename t
      (some ⟨.union (Naming.className t.name) (t.description?.map (·.text))
        (members.map Naming.className), [unionSymbol]⟩)

/-- **Outcome.** A declaration that succeeds is made in one of these ways. -/
theorem declaring_of_ok {m : Mapper} {skipTypename : Bool} {t : TypeDefinition}
    {x? : Option Declared} (h : declare m skipTypename t = .ok x?) :
    Declaring m skipTypename t x? := by
  unfold declare at h
  cases hb : t.body with
  | scalar =>
    rw [hb] at h
    cases pure_eq_ok.mp h
    exact .scalar hb
  | object parents fields =>
    rw [hb] at h
    obtain ⟨found, hfound, h⟩ := bind_eq_ok.mp h
    obtain ⟨x, hx, h⟩ := bind_eq_ok.mp h
    cases pure_eq_ok.mp h
    exact .object hb hfound hx
  | interface parents fields =>
    rw [hb] at h
    obtain ⟨found, hfound, h⟩ := bind_eq_ok.mp h
    obtain ⟨x, hx, h⟩ := bind_eq_ok.mp h
    cases pure_eq_ok.mp h
    exact .interface hb hfound hx
  | input fields =>
    rw [hb] at h
    obtain ⟨found, hfound, h⟩ := bind_eq_ok.mp h
    obtain ⟨x, hx, h⟩ := bind_eq_ok.mp h
    cases pure_eq_ok.mp h
    exact .input hb hfound hx
  | enum values =>
    rw [hb] at h
    obtain ⟨choices, hchoices, h⟩ := bind_eq_ok.mp h
    obtain ⟨description?, hdescription, h⟩ := bind_eq_ok.mp h
    cases pure_eq_ok.mp h
    exact .enum hb hchoices hdescription
  | union members =>
    rw [hb] at h
    cases pure_eq_ok.mp h
    exact .union hb

/-- What holds between each type that is no scalar and what its declaration gives holds of several
types one by one. -/
theorem forall₂_mapM_declare {α : Type} {R : TypeDefinition → α → Prop} {gives : Declared → List α}
    {m : Mapper} {skipTypename : Bool} (hdeclare : ∀ t x?, declare m skipTypename t = .ok x? →
      List.Forall₂ R ([t].filter (!Schema.isScalar ·)) (x?.toList.flatMap gives))
    {ts : List TypeDefinition} {xs : List (Option Declared)}
    (h : ts.mapM (declare m skipTypename) = .ok xs) :
    List.Forall₂ R (ts.filter (!Schema.isScalar ·)) ((xs.filterMap id).flatMap gives) := by
  induction ts generalizing xs with
  | nil =>
    cases h
    exact .nil
  | cons t rest ih =>
    obtain ⟨x?, more, hx, hmore, rfl⟩ := mapM_cons_eq_ok.mp h
    have hfirst : (x? :: more).filterMap id = x?.toList ++ more.filterMap id := by cases x? <;> rfl
    rw [hfirst, List.flatMap_append, ← List.singleton_append, List.filter_append]
    exact List.rel_append (hdeclare t x? hx) (ih hmore)

/-- The classes of a type: one, unless the type is a scalar. -/
def classesOf (t : TypeDefinition) : List String :=
  if Schema.isScalar t then [] else [Naming.className t.name]

/-- A type is declared under the name of its class. -/
theorem names_declare {m : Mapper} {skipTypename : Bool} {t : TypeDefinition} {x? : Option Declared}
    (h : declare m skipTypename t = .ok x?) :
    x?.toList.flatMap (·.declaration.names) = classesOf t := by
  unfold classesOf Schema.isScalar
  cases declaring_of_ok h with
  | scalar hb =>
    rw [hb]
    rfl
  | object hb _ hx | interface hb _ hx | input hb _ hx =>
    rw [hb, Option.toList_some, List.flatMap_singleton]
    exact names_modelOf hx
  | enum hb _ _ | union hb =>
    rw [hb]
    rfl

theorem names_mapM_declare {m : Mapper} {skipTypename : Bool} {ts : List TypeDefinition}
    {xs : List (Option Declared)} (h : ts.mapM (declare m skipTypename) = .ok xs) :
    (xs.filterMap id).flatMap (·.declaration.names) = ts.flatMap classesOf := by
  induction ts generalizing xs with
  | nil =>
    cases h
    rfl
  | cons t rest ih =>
    obtain ⟨x?, more, hx, hmore, rfl⟩ := mapM_cons_eq_ok.mp h
    rw [List.flatMap_cons, ← ih hmore, ← names_declare hx]
    cases x? <;> simp

def resultOf (o : Options) (declared : List Declared) : Result where
  imports := (Registry.orFresh none o.typeImports).recordAll
    (annotationsSymbol :: declared.flatMap (·.needs))
  declarations := declared.map (·.declaration)

/-- **Outcome.** The types of a schema are declared if its document can be made, the defaults of its
directives have a text, and each of its types can be declared. What they need is added to the given
imports, or to none. -/
theorem generate_from_ok {s : Schema} {o : Options} {imports? : Option Registry}
    {mapper? : Option Mapper} {r : Result} : generate s o imports? mapper? = .ok r ↔
      (∃ d, s.document = .ok d) ∧
      (∃ defaults, s.shownDirectives.mapM (·.arguments.mapM defaultOf) = .ok defaults) ∧
        ∃ xs, s.types.mapM (declare (mapper?.getD (mapperOf s o)) o.skipTypename) = .ok xs ∧
          r = { imports := (Registry.orFresh imports? o.typeImports).recordAll
                  (annotationsSymbol :: (xs.filterMap id).flatMap (·.needs))
                declarations := (xs.filterMap id).map (·.declaration) } := by
  unfold generate declareAll
  cases s.document with
  | error e => exact ⟨nofun, nofun⟩
  | ok d =>
    simp only [bind_eq_ok, pure_eq_ok]
    constructor
    · rintro ⟨_, -, _, ⟨defaults, hdefaults, xs, hxs, rfl⟩, rfl⟩
      exact ⟨⟨d, rfl⟩, ⟨defaults, hdefaults⟩, xs, hxs, rfl⟩
    · rintro ⟨-, ⟨defaults, hdefaults⟩, xs, hxs, rfl⟩
      exact ⟨d, rfl, _, ⟨defaults, hdefaults, xs, hxs, rfl⟩, rfl⟩

theorem generate_ok {s : Schema} {o : Options} {r : Result} : generate s o = .ok r ↔
    (∃ d, s.document = .ok d) ∧
    (∃ defaults, s.shownDirectives.mapM (·.arguments.mapM defaultOf) = .ok defaults) ∧
      ∃ xs, s.types.mapM (declare (mapperOf s o) o.skipTypename) = .ok xs ∧
      r = resultOf o (xs.filterMap id) :=
  generate_from_ok

/-- **Names.** The declarations of the types of a schema are called like their classes, one for each
type that is no scalar. -/
theorem names_generate {s : Schema} {o : Options} {r : Result} (h : generate s o = .ok r) :
    r.declarations.flatMap (·.names) = s.types.flatMap classesOf := by
  obtain ⟨-, -, xs, hxs, rfl⟩ := generate_ok.mp h
  rw [← names_mapM_declare hxs, resultOf, List.flatMap_map]

/-- The part of a module that declares the types of a schema. -/
def partOf (package : String) (r : Result) : Part where
  header? := moduleDocstring "Generated GraphQL schema types." package
  imports := r.imports
  body := r.body
  extras := [rebuildBlock r.models]

theorem part_ok {s : Schema} {o : Options} {path : String} {p : Part} :
    part s o path = .ok p ↔ ∃ package r, Naming.packageOf path = .ok package ∧
    generate s o = .ok r ∧ p = partOf package r := by
  unfold part
  cases Naming.packageOf path with
  | error e => exact ⟨nofun, nofun⟩
  | ok package =>
    simp only [bind_eq_ok, pure_eq_ok]
    constructor
    · rintro ⟨_, h, r, hr, rfl⟩
      cases h
      exact ⟨package, r, rfl, hr, rfl⟩
    · rintro ⟨_, r, h, hr, rfl⟩
      cases h
      exact ⟨package, rfl, r, hr, rfl⟩

end Graphwright.SchemaTypes
