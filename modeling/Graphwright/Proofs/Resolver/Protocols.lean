import Mathlib.Data.List.Forall2
import Graphwright.Proofs.Module.Order
import Graphwright.Proofs.Outcome
import Graphwright.Resolver.Interface

/-!
# Resolver interfaces of a schema

What a module of resolvers says about each type of a schema, line by line: the class of an object
has a method per field, that of an interface also tells the type of an object, and that of a union
does nothing else. `IsMethod`, `Takes` and `Presents` describe such texts without regard to how they
are made.

* `isMethod_methodLines`: however a signature is laid out and whatever documentation there is, a
  method has a body.
* `presents_interface`: the interface of a type is presented as the type demands.
* `generate_ok`, `part_ok`: what the part of a module with resolvers is made of.
* `part_presents_types`: the interfaces are those of the objects, interfaces and unions of the
  schema, in order.
-/
namespace Graphwright.Resolver

open Graphwright.Document Graphwright.Module Graphwright.Types

/-! ## Methods -/

/-- The lines of a signature: all on one line, or each parameter on a line of its own. -/
inductive IsSignature (opening : String) (parameters : List String) (closing : String) :
    List String → Prop
  | oneLine : IsSignature opening parameters closing
      [opening ++ ", ".intercalate parameters ++ closing]
  | spread : IsSignature opening parameters closing
      (opening :: (parameters.map fun p => indentation ++ indentation ++ p ++ ",") ++
        [indentation ++ closing])

def failingLine : String := indentation ++ indentation ++ "raise NotImplementedError"

/-- The body of a method with some documentation: what stands behind the signature, and the lines
below it. There is always one: an ellipsis, the documentation, or a statement that fails. -/
inductive IsBody (doc : List String) : (isFailing : Bool) → String → List String → Prop
  | ellipsis : doc = [] → IsBody doc false " ..." []
  | documented : doc ≠ [] → IsBody doc false "" doc
  | failing : IsBody doc true "" (doc ++ [failingLine])

/-- The lines of a method. -/
inductive IsMethod (keyword name : String) (parameters : List String) (result : String)
    (doc : List String) (isFailing : Bool) : List String → Prop
  | mk {tail : String} {signature body : List String} :
      IsSignature (indentation ++ keyword ++ " " ++ name ++ "(") parameters
      (") -> " ++ result ++ ":" ++ tail) signature →
      IsBody doc isFailing tail body →
      IsMethod keyword name parameters result doc isFailing (signature ++ body)

/-- The parameters of a method that takes some arguments by keyword. -/
def parametersOf (parent : String) (arguments : List String) : List String :=
  ["self", "parent: " ++ parent, "info: GraphQLResolveInfo"] ++ if arguments.isEmpty then []
    else "*" :: arguments

def keyword (isAsync : Bool) : String := if isAsync then "async def" else "def"

theorem isSignature_ite {opening closing : String} {parameters : List String} (fits : Prop)
    [Decidable fits] :
    IsSignature opening parameters closing
      (if fits then [opening ++ ", ".intercalate parameters ++ closing]
       else opening :: (parameters.map fun p => indentation ++ indentation ++ p ++ ",") ++
        [indentation ++ closing]) := by
  split
  · exact .oneLine
  · exact .spread

theorem isBody_ite (doc : List String) (isFailing : Bool) :
    IsBody doc isFailing (if doc.isEmpty && !isFailing then " ..." else "")
      (doc ++ if isFailing then [failingLine] else []) := by
  cases isFailing with
  | true => simpa using IsBody.failing
  | false =>
    cases doc with
    | nil => exact .ellipsis rfl
    | cons first rest => simpa using @IsBody.documented (first :: rest) (by simp)

/-- **Layout.** Every method has a signature with its parameters in order, and a body. -/
theorem isMethod_methodLines (style : Style) (name : String) (arguments : List String)
    (result : String) (doc : List String) :
    IsMethod (keyword style.isAsync) name
      (parametersOf style.parent arguments) result doc style.isInterface
        (methodLines style name arguments result doc) := by
  unfold methodLines keyword parametersOf
  dsimp only
  rw [List.append_assoc]
  exact .mk (isSignature_ite _) (isBody_ite doc style.isInterface)

/-- The parameters of a method that tells the type of an object. -/
def resolveTypeParameters : List String :=
  ["self", "obj: Any", "info: GraphQLResolveInfo", "abstract_type: GraphQLAbstractType"]

/-- A method that tells the type of an object, without a body of its own but an ellipsis. -/
def TellsType (lines : List String) : Prop :=
  IsMethod "def" "resolve_type" resolveTypeParameters "Optional[str]" [] false lines

theorem tellsType_resolveTypeLines : TellsType resolveTypeLines := by
  have hlines : resolveTypeLines = (indentation ++ "def" ++ " " ++ "resolve_type" ++ "(") ::
      (resolveTypeParameters.map fun p => indentation ++ indentation ++ p ++ ",") ++
      [indentation ++ (") -> " ++ "Optional[str]" ++ ":" ++ " ...")] ++ [] := by decide
  rw [hlines]
  exact .mk .spread (.ellipsis rfl)

/-! ## Fields and their arguments -/

/-- The parameter for an argument of a field: it may be left out if the argument is nullable and has
no default, and has to be given otherwise. -/
inductive Takes (m : Mapper) (a : InputValue) : String → Prop
  | optional : a.type.isNonNull = false → a.default? = none →
      Takes m a (Naming.safeIdentifier a.name ++ ": " ++ (m.resolve a.type).text ++ " = None")
  | required : a.type.isNonNull = true ∨ a.default? ≠ none →
      Takes m a (Naming.safeIdentifier a.name ++ ": " ++ (m.resolve a.type).text)

/-- The method for a field: one parameter per argument in order, the type of the field as its
result, and what the field says about itself as its documentation. -/
inductive Resolves (m : Mapper) (isAsync : Bool) (parent : String) (isFailing : Bool)
    (f : FieldDefinition) :
    List String → Prop
  | mk {doc arguments lines : List String} :
      docstring? (f.description?.map (·.text)) (indentation ++ indentation) = some doc →
      List.Forall₂ (Takes m) f.arguments arguments →
      IsMethod (keyword isAsync) (Naming.safeIdentifier f.name) (parametersOf parent arguments)
        (m.resolve f.type).text doc isFailing lines →
      Resolves m isAsync parent isFailing f lines

theorem takes_parameters (m : Mapper) (f : FieldDefinition) :
    List.Forall₂ (Takes m) f.arguments ((methodOf m f).parameters.map (·.text)) := by
  unfold methodOf
  simp only [List.map_map, List.forall₂_map_right_iff, List.forall₂_same, Function.comp_apply]
  intro a _
  cases hnonNull : a.type.isNonNull with
  | true => simpa [Parameter.text] using Takes.required (.inl hnonNull)
  | false =>
    cases hdefault : a.default? with
    | none => simpa [Parameter.text] using Takes.optional hnonNull hdefault
    | some value => simpa [Parameter.text] using Takes.required (m := m) (.inr (by simp [hdefault]))

theorem resolves_lines {m : Mapper} {style : Style} {f : FieldDefinition}
    (h : (methodOf m f).doc?.isSome) :
    Resolves m style.isAsync style.parent style.isInterface f ((methodOf m f).lines style) := by
  obtain ⟨doc, hdoc⟩ := Option.isSome_iff_exists.mp h
  refine .mk hdoc (takes_parameters m f) ?_
  rw [Method.lines, hdoc]
  exact isMethod_methodLines ..

/-! ## Types -/

/-- The methods for a type: those of its fields, for an interface behind the one that tells the type
of an object, for a union only that one. No other type has methods. -/
inductive Methods (m : Mapper) (isAsync : Bool) (t : TypeDefinition) : List (List String) → Prop
  | object {parents : List String} {fields : List FieldDefinition} {methods : List (List String)} :
      t.body = .object parents fields →
      List.Forall₂ (Resolves m isAsync (parentOf m t.name).text false) fields methods →
      Methods m isAsync t methods
  | interface {parents : List String} {fields : List FieldDefinition} {first : List String}
      {methods : List (List String)} :
      t.body = .interface parents fields → TellsType first →
      List.Forall₂ (Resolves m isAsync (parentOf m t.name).text true) fields methods →
      Methods m isAsync t (first :: methods)
  | union {members first : List String} : t.body = .union members → TellsType first →
      Methods m isAsync t [first]

/-- What is said about a type that does not say anything about itself. -/
def usualDescription (t : TypeDefinition) : String :=
  match t.body with
  | .object _ _ => "Resolvers for the " ++ t.name ++ " type."
  | .interface _ _ => "Resolvers for the " ++ t.name ++ " interface."
  | _ => "Set the correct type resolver for this union."

/-- The class for a type: its opening line, its documentation, and its methods, each behind an empty
line. -/
inductive Presents (m : Mapper) (isAsync : Bool) (t : TypeDefinition) : String → Prop
  | mk {doc : List String} {methods : List (List String)} :
      docstring? (some ((t.description?.map (·.text)).getD (usualDescription t))) indentation =
        some doc →
      Methods m isAsync t methods →
      Presents m isAsync t ("\n".intercalate
        (("class " ++ Naming.className t.name ++ "(Protocol):") :: doc ++
          methods.flatMap ("" :: ·)))

theorem resolves_methods {m : Mapper} (style : Style) {fields : List FieldDefinition}
    (h : (fields.map (methodOf m)).all (·.doc?.isSome)) :
    List.Forall₂ (Resolves m style.isAsync style.parent style.isInterface) fields
      ((fields.map (methodOf m)).map (Method.lines style)) := by
  simp only [List.map_map, List.forall₂_map_right_iff, List.forall₂_same, Function.comp_apply]
  simp only [List.all_map, List.all_eq_true, Function.comp_apply] at h
  exact fun f hf => resolves_lines (h f hf)

/-- **Mirror.** The interface of a type presents the type. -/
theorem presents_interface {m : Mapper} {isAsync : Bool} {t : TypeDefinition} {i : Interface}
    (hi : interfaceOf? m t = some i) (h : i.isDocumentable) :
    Presents m isAsync t (i.text isAsync) := by
  unfold Interface.isDocumentable at h
  obtain ⟨hmethods, hdoc⟩ := Bool.and_eq_true_iff.mp h
  obtain ⟨doc, hdoc⟩ := Option.isSome_iff_exists.mp hdoc
  unfold Interface.text
  rw [hdoc]
  unfold Interface.doc? at hdoc
  unfold interfaceOf? at hi
  cases hbody : t.body with
  | scalar | enum _ | input _ => simp [hbody] at hi
  | object _ fields =>
    simp only [hbody, Option.some.injEq] at hi
    subst hi
    dsimp only
    refine .mk (by simpa [usualDescription, hbody] using hdoc) ?_
    exact .object hbody (resolves_methods ⟨(parentOf m t.name).text, false, isAsync⟩ hmethods)
  | interface _ fields =>
    simp only [hbody, Option.some.injEq] at hi
    subst hi
    dsimp only
    refine .mk (by simpa [usualDescription, hbody] using hdoc) ?_
    exact .interface hbody tellsType_resolveTypeLines
      (resolves_methods ⟨(parentOf m t.name).text, true, isAsync⟩ hmethods)
  | union _ =>
    simp only [hbody, Option.some.injEq] at hi
    subst hi
    dsimp only
    refine .mk (by simpa [usualDescription, hbody] using hdoc) ?_
    exact .union hbody tellsType_resolveTypeLines

theorem interfaceOf?_isSome (m : Mapper) (t : TypeDefinition) :
    (interfaceOf? m t).isSome = Schema.isComposite t := by
  unfold interfaceOf? Schema.isComposite
  cases t.body <;> rfl

/-- The types of a schema that have interfaces have them one by one. -/
theorem forall₂_interfaceOf? (m : Mapper) (ts : List TypeDefinition) :
    List.Forall₂ (fun t i => interfaceOf? m t = some i) (ts.filter Schema.isComposite)
      (ts.filterMap (interfaceOf? m)) := by
  induction ts with
  | nil => exact .nil
  | cons t rest ih =>
    rw [List.filter_cons, ← interfaceOf?_isSome m]
    cases hi : interfaceOf? m t with
    | none =>
      rw [List.filterMap_cons_none hi]
      exact ih
    | some i =>
      rw [List.filterMap_cons_some hi]
      exact .cons hi ih

/-- Interfaces that can be documented present their types one by one. -/
theorem presents_interfaces {m : Mapper} (isAsync : Bool) {ts : List TypeDefinition}
    (h : (ts.filterMap (interfaceOf? m)).all (·.isDocumentable)) :
    List.Forall₂ (Presents m isAsync) (ts.filter Schema.isComposite)
      ((ts.filterMap (interfaceOf? m)).map (·.text isAsync)) := by
  have hdocumented : List.Forall₂ (fun i t => i.isDocumentable = true ∧ interfaceOf? m t = some i)
      (ts.filterMap (interfaceOf? m)) (ts.filter Schema.isComposite) :=
    (List.forall₂_and_left _ _).mpr ⟨List.all_eq_true.mp h, (forall₂_interfaceOf? m ts).flip⟩
  rw [List.forall₂_map_right_iff]
  exact hdocumented.flip.imp fun _ _ ⟨hdocumentable, hi⟩ => presents_interface hi hdocumentable

theorem text_ne_empty (isAsync : Bool) (i : Interface) : i.text isAsync ≠ "" :=
  Holds.ne_empty (Holds.intercalate List.mem_cons_self "\n") (by simp)

theorem nonempty_body (isAsync : Bool) (r : Result) :
    nonempty (r.body isAsync) = r.body isAsync := by
  unfold nonempty Result.body
  simp [List.filter_eq_self, text_ne_empty]

/-! ## The part of a module -/

/-- How types are resolved in the module of a package, with the imports that this takes: by the
given mapper, or as the options say. -/
def settingFrom (s : Schema) (o : Options) (package : String) (imports? : Option Registry)
    (mapper? : Option Mapper) :
    Except Naming.PackageFault (Mapper × Registry) := do
  let r := initialImports (Registry.orFresh imports? o.typeImports)
  match mapper? with
  | some m => return (m, r)
  | none =>
    let (qualifier, r) := r.qualify o.typesFrom? typesName .typing
    let (replacements, r) ← replacements (packageFor o package) r o.mappers
    return ({ schema? := s, scalars := .ofTexts o.scalars, qualifier, replacements }, r)

/-- How the options resolve types in the module of a package, and the imports that this takes. -/
def settingOf (s : Schema) (o : Options) (package : String) :
    Except Naming.PackageFault (Mapper × Registry) := do
  let (qualifier, r) :=
    (initialImports (Registry.orFresh none o.typeImports)).qualify o.typesFrom? typesName .typing
  let (replacements, r) ← replacements (packageFor o package) r o.mappers
  return ({ schema? := s, scalars := .ofTexts o.scalars, qualifier, replacements }, r)

/-- The interfaces of some types, with what they need added to some imports. -/
def resultOf (m : Mapper) (imports : Registry) (ts : List TypeDefinition) : Result where
  imports := imports.recordAll ((ts.filterMap (interfaceOf? m)).flatMap (·.needs)) .typing
  interfaces := ts.filterMap (interfaceOf? m)

/-- Step by step: the types of the module are resolved, then the document of the schema is made,
then the descriptions are looked at. -/
theorem generate_from_eq (s : Schema) (o : Options) (package : String) (imports? : Option Registry)
    (mapper? : Option Mapper) : generate s o package imports? mapper? =
      match settingFrom s o package imports? mapper?, s.document with
      | .error e, _ => .error (.package e)
      | .ok _, .error e => .error (.document e)
      | .ok (m, imports), .ok _ =>
        if (s.types.filterMap (interfaceOf? m)).all (·.isDocumentable) then
          .ok (resultOf m imports s.types)
        else .error .blankDescription := by
  unfold generate settingFrom
  dsimp only
  cases mapper? with
  | some m => cases s.document <;> rfl
  | none =>
    cases replacements (packageFor o package)
        ((initialImports (Registry.orFresh imports? o.typeImports)).qualify o.typesFrom? typesName
          .typing).2
        o.mappers with
    | error e => rfl
    | ok found => cases s.document <;> rfl

theorem generate_eq (s : Schema) (o : Options) (package : String) :
    generate s o package = match settingOf s o package, s.document with
      | .error e, _ => .error (.package e)
      | .ok _, .error e => .error (.document e)
      | .ok (m, imports), .ok _ =>
        if (s.types.filterMap (interfaceOf? m)).all (·.isDocumentable) then
          .ok (resultOf m imports s.types)
        else .error .blankDescription :=
  generate_from_eq s o package none none

/-- **Outcome.** The interfaces of a schema are made if its types can be resolved, its document can
be made, and no description consists of blanks. -/
theorem generate_from_ok {s : Schema} {o : Options} {package : String} {imports? : Option Registry}
    {mapper? : Option Mapper} {r : Result} : generate s o package imports? mapper? = .ok r ↔
      ∃ m imports, settingFrom s o package imports? mapper? = .ok (m, imports) ∧
      (∃ d, s.document = .ok d) ∧
        (s.types.filterMap (interfaceOf? m)).all (·.isDocumentable) ∧
        r = resultOf m imports s.types := by
  rw [generate_from_eq]
  cases settingFrom s o package imports? mapper? with
  | error e => simp
  | ok found => cases s.document <;> grind

theorem generate_ok {s : Schema} {o : Options} {package : String} {r : Result} :
    generate s o package = .ok r ↔ ∃ m imports, settingOf s o package = .ok (m, imports) ∧
      (∃ d, s.document = .ok d) ∧ (s.types.filterMap (interfaceOf? m)).all (·.isDocumentable) ∧
      r = resultOf m imports s.types :=
  generate_from_ok

def partOf (o : Options) (package : String) (r : Result) : Part where
  header? := moduleDocstring "Generated GraphQL resolver interfaces." (packageFor o package)
  imports := r.imports
  body := r.body o.asyncResolvers
  wrap? := some (enclose o.className)

theorem part_ok {s : Schema} {o : Options} {path : String} {p : Part} :
    part s o path = .ok p ↔ ∃ package r, Naming.packageOf path = .ok package ∧
    generate s o package = .ok r ∧ p = partOf o package r := by
  unfold part
  cases Naming.packageOf path with
  | error e => exact ⟨nofun, nofun⟩
  | ok package =>
    simp only [bind_eq_ok, pure_eq_ok]
    constructor
    · rintro ⟨_, h, r, hr, rfl⟩
      cases h
      exact ⟨package, r, rfl, hr, rfl⟩
    · rintro ⟨_, r, h, hr, rfl⟩
      cases h
      exact ⟨package, rfl, r, hr, rfl⟩

/-- **Mirror.** Whenever the resolver interfaces of a schema are made, there is one for each object,
interface and union of the schema, in order, and for no other type, and all of them are inside one
class. The interface of an object has a method per field, in order; that of an interface first tells
the type of an object, and that of a union does only this. Each method takes the arguments of its
field by keyword, in order, those that are nullable without a default being the ones that may be
left out, and each has a body. -/
theorem part_presents_types {s : Schema} {o : Options} {path : String} {p : Part}
    (h : part s o path = .ok p) :
    ∃ package m imports, Naming.packageOf path = .ok package ∧
    settingOf s o package = .ok (m, imports) ∧
      List.Forall₂ (Presents m o.asyncResolvers) (s.types.filter Schema.isComposite) p.body ∧
      bodySections p.body p.wrap? = [enclose o.className ("\n\n".intercalate p.body)] ∧
      p.extras = [] := by
  obtain ⟨package, r, hpackage, hr, rfl⟩ := part_ok.mp h
  obtain ⟨m, imports, hsetting, -, hdocumentable, rfl⟩ := generate_ok.mp hr
  have hbody := presents_interfaces o.asyncResolvers hdocumentable
  refine ⟨package, m, imports, hpackage, hsetting, hbody, ?_, rfl⟩
  simp only [partOf, bodySections, nonempty_body]

/-- An interface, an object with arguments that may be left out or not, a union, and an enum that
nothing is resolved for. -/
def petSchema : Schema where
  roots := [(.query, "Query")]
  types := [
    { name := "Kind", body := .enum [{ name := "CAT" }] },
    { name := "Pet", body := .interface [] [{ name := "name", type := .named "ID" }] },
    { name := "Query"
      body := .object [] [{
        name := "pet", type := .named "Pet"
        arguments := [{ name := "id", type := .nonNull (.named "ID") },
          { name := "kind", type := .named "Kind", default? := some (.enum "CAT") },
          { name := "old", type := .named "Int" }] }] },
    { name := "Found", body := .union ["Query"] }]
  standard := Schema.standardTypes

theorem part_presents_types_pets :
    ∃ p package m imports, part petSchema {} "app/resolvers.py" = .ok p ∧
      settingOf petSchema {} package = .ok (m, imports) ∧
      List.Forall₂ (Presents m false) (petSchema.types.filter Schema.isComposite) p.body ∧
      (petSchema.types.filter Schema.isComposite).map (·.name) = ["Pet", "Query", "Found"] ∧
      bodySections p.body p.wrap? = [enclose "Resolvers" ("\n\n".intercalate p.body)] ∧
      p.extras = [] := by
  have hok : (part petSchema {} "app/resolvers.py").toOption.isSome := by decide +kernel
  obtain ⟨p, hp⟩ := exists_ok_of_isSome hok
  obtain ⟨package, m, imports, -, hsetting, hbody, hsections, hextras⟩ := part_presents_types hp
  exact ⟨p, package, m, imports, hp, hsetting, hbody, by decide, hsections, hextras⟩

end Graphwright.Resolver
