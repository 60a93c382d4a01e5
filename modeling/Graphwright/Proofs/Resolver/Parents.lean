import Mathlib.Data.List.Infix
import Graphwright.Proofs.Naming.Identifiers
import Graphwright.Proofs.Resolver.Protocols
import Graphwright.Proofs.Schema.Unique

/-!
# Parents of resolvers

Each method for an object takes the object as its parameter `parent`, annotated with the class of
the object, or with `Any` where there is none: root types have no objects. Which types these are is
decided by their names, not by the schema (`annotationFor`).

* `part_annotates_parents`: the annotations of a module without replaced types, and when they are
  those that the roots of the schema ask for.
* `annotation_of_renamed_root`: a root type that is called otherwise is taken for any other object.
-/
namespace Graphwright

def Schema.rootTypes (s : Schema) : List String := Document.OperationKind.all.filterMap s.root?

namespace Naming

/-- A class has no word for its name that is kept for something else, whatever the name of its
type. -/
theorem className_not_mem (name : String) : className name ∉ classWords := by
  have hescaped : className name = escaped classWords (Text.onChars wordChars name) := by
    rw [className, safeIdentifier, escaped, classWords]
    by_cases himported : Text.onChars wordChars name ∈ importedNames <;> simp [himported]
  rw [hescaped]
  exact escaped_not_mem escapable_classWords _

end Naming

namespace Resolver

open Graphwright.Document Graphwright.Module Graphwright.Types

/-! ## Annotations -/

def prefixOf (o : Options) : String :=
  match o.typesFrom?.filter (· ≠ "") with
  | some _ => typesName ++ "."
  | none => ""

/-- The annotation of the objects that resolvers of a type get. -/
def annotationFor (o : Options) (name : String) : String :=
  if name ∈ rootNames then "Any" else prefixOf o ++ Naming.className name

/-- The class for an object, each method of which takes the object with an annotation. -/
inductive Annotates (m : Mapper) (isAsync : Bool) (hint : String) (t : TypeDefinition) :
    String → Prop
  | mk {parents : List String} {fields : List FieldDefinition} {doc : List String}
      {methods : List (List String)} :
      t.body = .object parents fields →
      List.Forall₂ (Resolves m isAsync hint false) fields methods →
      Annotates m isAsync hint t ("\n".intercalate
        (("class " ++ Naming.className t.name ++ "(Protocol):") :: doc ++
          methods.flatMap ("" :: ·)))

theorem prefixed_ne_any (o : Options) (name : String) :
    prefixOf o ++ Naming.className name ≠ "Any" := by
  unfold prefixOf
  split
  · intro heq
    simpa [typesName] using congrArg (·.toList.head?) heq
  · rw [String.empty_append]
    intro heq
    exact Naming.className_not_mem name (heq ▸ by decide)

theorem annotationFor_eq_any {o : Options} {name : String} :
    annotationFor o name = "Any" ↔ name ∈ rootNames := by
  unfold annotationFor
  split
  · simp [*]
  · simp [*, prefixed_ne_any]

/-- An annotation is found in the class of a type with fields. -/
theorem Annotates.holds {m : Mapper} {isAsync : Bool} {hint text : String} {t : TypeDefinition}
    (h : Annotates m isAsync hint t text) (hfields : Schema.fieldsOf t ≠ []) :
    Holds text ("parent: " ++ hint) := by
  obtain @⟨_, fields, _, methods, hbody, hmethods⟩ := h
  have hsame : Schema.fieldsOf t = fields := by rw [Schema.fieldsOf, hbody]
  obtain ⟨f, rest, rfl⟩ := List.exists_cons_of_ne_nil (hsame ▸ hfields)
  obtain ⟨lines, more, hresolves, -, rfl⟩ := List.forall₂_cons_left_iff.mp hmethods
  obtain @⟨_, arguments, _, _, _, hmethod⟩ := hresolves
  obtain @⟨tail, signature, body, hsignature, _⟩ := hmethod
  have hparameter : "parent: " ++ hint ∈ parametersOf hint arguments := by simp [parametersOf]
  -- on one line with the other parameters, or on its own
  obtain ⟨line, hline, hholds⟩ : ∃ line ∈ signature, Holds line ("parent: " ++ hint) := by
    cases hsignature with
    | oneLine =>
      exact ⟨_, List.mem_singleton_self _,
        ((Holds.intercalate hparameter _).append_left _).append_right _⟩
    | spread =>
      refine
        ⟨_, List.mem_append_left _ (List.mem_cons_of_mem _ (List.mem_map_of_mem hparameter)), ?_⟩
      exact ((Holds.refl _).append_left _).append_right _
  refine (Holds.intercalate ?_ _).trans hholds
  simp [hline]

theorem annotates_of_presents {m : Mapper} {isAsync : Bool} {t : TypeDefinition} {text : String}
    (hobject : Schema.isObject t) (h : Presents m isAsync t text) :
    Annotates m isAsync (parentOf m t.name).text t text := by
  obtain ⟨-, hmethods⟩ := h
  cases hmethods with
  | object hbody hresolves => exact .mk hbody hresolves
  | interface hbody => simp [Schema.isObject, hbody] at hobject
  | union hbody => simp [Schema.isObject, hbody] at hobject

/-! ## Types that are not replaced -/

theorem qualifier_eq (o : Options) :
    ((initialImports (Registry.orFresh none o.typeImports)).qualify o.typesFrom? typesName
      .typing).1 = prefixOf o := by
  unfold Registry.qualify prefixOf
  cases o.typesFrom?.filter (· ≠ "") with
  | none => rfl
  | some source =>
    have hfresh :
        (initialImports (Registry.orFresh none o.typeImports)).get? wholeModule source = none := by
      have himports : (initialImports (Registry.orFresh none o.typeImports)).imports =
          (initialImports {}).imports := rfl
      rw [Registry.get?, himports, List.find?_eq_none]
      intro i hi
      have hsymbol : ∀ i ∈ (initialImports {}).imports, i.symbol ≠ wholeModule := by decide
      simpa [Import.key] using fun heq => absurd heq (hsymbol i hi)
    simp only [Registry.recordModule, Registry.record, hfresh]
    rfl

theorem mapper_eq {s : Schema} {o : Options} {package : String} {m : Mapper} {imports : Registry}
    (hmappers : o.mappers = []) (h : settingOf s o package = .ok (m, imports)) :
    m = { schema? := s, scalars := .ofTexts o.scalars, qualifier := prefixOf o } := by
  unfold settingOf at h
  rw [hmappers] at h
  obtain ⟨⟨found, r⟩, hfound, h⟩ := bind_eq_ok.mp h
  cases hfound
  rw [← qualifier_eq]
  exact (congrArg Prod.fst (pure_eq_ok.mp h)).symm

/-- The parent of an object has its class, unless it has the name of a root type. -/
theorem parentOf_text {s : Schema} {o : Options} (hs : s.Distinct) {t : TypeDefinition}
    (ht : t ∈ s.types) (hobject : Schema.isObject t) :
    (parentOf { schema? := s, scalars := .ofTexts o.scalars, qualifier := prefixOf o }
      t.name).text = annotationFor o t.name := by
  have hscalar : Schema.isScalar t = false := by
    unfold Schema.isObject at hobject
    unfold Schema.isScalar
    cases hbody : t.body <;> simp_all
  unfold parentOf annotationFor
  split
  · rfl
  · simp [Mapper.named, hs.type?_of_mem ht, hscalar]

/-- **Parents.** In a module without replaced types each object has a class in which all methods
take it with one annotation: `Any` if the name is one of three, and otherwise the name of the class,
behind the prefix. These are the annotations that the schema asks for exactly if its root types are
the objects with those names. -/
theorem part_annotates_parents {s : Schema} {o : Options} {path : String} {p : Part}
    (hs : s.Distinct) (hmappers : o.mappers = []) (h : part s o path = .ok p) :
    (∃ m, List.Forall₂ (fun t text => Schema.isObject t →
      Annotates m o.asyncResolvers (annotationFor o t.name) t text)
        (s.types.filter Schema.isComposite) p.body) ∧
    (∀ name, annotationFor o name = "Any" ↔ name ∈ rootNames) ∧
    ((∀ t ∈ s.types, Schema.isObject t →
        annotationFor o t.name = if t.name ∈ s.rootTypes then "Any"
          else prefixOf o ++ Naming.className t.name) ↔
      ∀ t ∈ s.types, Schema.isObject t → (t.name ∈ rootNames ↔ t.name ∈ s.rootTypes)) := by
  refine ⟨?_, fun _ => annotationFor_eq_any, forall₃_congr fun t ht hobject => ?_⟩
  · obtain ⟨package, m, imports, -, hsetting, hbody, -, -⟩ := part_presents_types h
    have hparent : ∀ t ∈ s.types, Schema.isObject t →
        (parentOf m t.name).text = annotationFor o t.name := by
      rw [mapper_eq hmappers hsetting]
      exact fun t => parentOf_text hs
    have hboth := (List.forall₂_and_left _ _).mpr ⟨fun t ht => List.mem_of_mem_filter ht, hbody⟩
    refine ⟨m, hboth.imp fun t text ⟨ht, hpresents⟩ hobject => ?_⟩
    rw [← hparent t ht hobject]
    exact annotates_of_presents hobject hpresents
  · have hne := prefixed_ne_any o t.name
    unfold annotationFor
    by_cases hname : t.name ∈ rootNames <;> by_cases hroot : t.name ∈ s.rootTypes <;>
      simp [hname, hroot, hne, hne.symm]

theorem part_annotates_parents_pets :
    ∃ p m, part petSchema { typesFrom? := some "app.types" } "app/resolvers.py" = .ok p ∧
      List.Forall₂ (fun t text => Schema.isObject t →
        Annotates m false (annotationFor { typesFrom? := some "app.types" } t.name) t text)
        (petSchema.types.filter Schema.isComposite) p.body ∧
      annotationFor { typesFrom? := some "app.types" } "Query" = "Any" := by
  have hok :
      (part petSchema { typesFrom? := some "app.types" } "app/resolvers.py").toOption.isSome := by
    decide +kernel
  obtain ⟨p, hp⟩ := exists_ok_of_isSome hok
  have hdistinct : petSchema.Distinct := ⟨by decide, by decide, by decide, by decide⟩
  obtain ⟨⟨m, hbody⟩, hnames, -⟩ := part_annotates_parents hdistinct rfl hp
  exact ⟨p, m, hp, hbody, (hnames "Query").mpr (by decide)⟩

/-! ## Root types with other names -/

/-- A schema whose type of queries has a name of its own. -/
def renamedRoot : Schema where
  roots := [(.query, "Root")]
  types := [{ name := "Root", body := .object [] [{ name := "a", type := .named "Int" }] }]
  standard := Schema.standardTypes

/-- The type of queries is annotated as any other object if it is called otherwise. -/
theorem annotation_of_renamed_root :
    ¬ ∀ (s : Schema) (o : Options) (path : String) (p : Part), s.Distinct →
    o.mappers = [] → part s o path = .ok p → ∃ m, List.Forall₂ (fun t text => Schema.isObject t →
      Annotates m o.asyncResolvers
        (if t.name ∈ s.rootTypes then "Any" else prefixOf o ++ Naming.className t.name) t text)
      (s.types.filter Schema.isComposite) p.body := by
  intro hall
  have hdistinct : renamedRoot.Distinct := ⟨by decide, by decide, by decide, by decide⟩
  have hpart : (part renamedRoot {} "app/resolvers.py").toOption.any fun p =>
      p.body.all fun text => decide (¬ "parent: Any".toList <:+: text.toList) := by
    decide +kernel
  obtain ⟨p, hp, hbody⟩ := exists_ok_of_any hpart
  obtain ⟨m, hannotates⟩ := hall renamedRoot {} "app/resolvers.py" p hdistinct rfl hp
  obtain ⟨text, more, htext, -, heq⟩ := List.forall₂_cons_left_iff.mp hannotates
  obtain ⟨before, after, hholds⟩ := (htext rfl).holds (List.cons_ne_nil _ _)
  have hmissing : ¬ "parent: Any".toList <:+: text.toList :=
    of_decide_eq_true (List.all_eq_true.mp hbody text (heq ▸ List.mem_cons_self))
  exact hmissing ⟨before.toList, after.toList,
    by rw [hholds, String.toList_append, String.toList_append]; rfl⟩

end Resolver

end Graphwright
