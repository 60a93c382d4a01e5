import Graphwright.Proofs.Schema.Declared
import Graphwright.Proofs.Types.Chain

/-!
# Names that references resolve to

A reference to a type of a schema resolves to a type expression around the name of one type. Lists
and marks for optional values come with the import of their constructors; a scalar is built in or
comes with the import of its type, or is anything. That leaves the types that are no scalars, which
are called like their classes (`mentioned`): the mapper looks them up among all types that belong to
the schema, the defined ones and those that every schema has, and relies on someone to declare them.
-/
namespace Graphwright.Types

open Graphwright.Document (TypeRef TypeDefinition)
open Graphwright.Module (Imported Accounted Refers wholeModule)

/-! ## Around a named type -/

/-- A type expression around the name of a type. All other names in it are imported. -/
structure Encloses (base : NamedType) (e : Expr) (used : List Symbol) : Prop where
  mem : base.text ∈ e.names
  imports : base.imports ⊆ used
  names : ∀ n ∈ e.names, n = base.text ∨ Imported used n

namespace Encloses

variable {base : NamedType} {e : Expr} {used : List Symbol}

theorem name (base : NamedType) : Encloses base (.name base.text) base.imports :=
  ⟨List.mem_singleton_self _, List.Subset.refl _, fun _ hn => .inl (List.mem_singleton.mp hn)⟩

theorem around (h : Encloses base e used) {outer : Expr} {symbol : Symbol}
    (hnames : outer.names = symbol.1 :: e.names) (hsymbol : symbol.1 ≠ wholeModule) :
    Encloses base outer (used ++ [symbol]) where
  mem := hnames ▸ List.mem_cons_of_mem _ h.mem
  imports := List.subset_append_of_subset_left _ h.imports
  names n hn := by
    rw [hnames] at hn
    rcases List.mem_cons.mp hn with rfl | hn
    · exact .inr ⟨hsymbol, symbol.2, List.mem_append_right _ (List.mem_singleton_self _)⟩
    · exact (h.names n hn).imp_right (Imported.mono (List.subset_append_left _ _))

theorem list (h : Encloses base e used) : Encloses base (.list e) (used ++ [listSymbol]) :=
  h.around rfl (by decide)

theorem optional (h : Encloses base e used) :
    Encloses base (.optional e) (used ++ [optionalSymbol]) :=
  h.around rfl (by decide)

end Encloses

/-- A chain of wrappers puts constructors around a named type. -/
theorem encloses_layered (base : NamedType) (nullable : Bool) (chain : List Wrapper) :
    Encloses base (layered base nullable chain).1 (layered base nullable chain).2 := by
  have hmarked {e : Expr} {used : List Symbol} (h : Encloses base e used) (nullable : Bool) :
      Encloses base (marked nullable (e, used)).1 (marked nullable (e, used)).2 := by
    cases nullable with
    | false => exact h
    | true => exact h.optional
  induction chain generalizing nullable with
  | nil => exact hmarked (.name base) nullable
  | cons w rest ih =>
    cases w with
    | list => exact hmarked (ih true).list nullable
    | nonNull => exact ih false

theorem encloses_resolve (m : Mapper) (ref : TypeRef) (base? : Option NamedType) :
    Encloses (base?.getD (m.named ref.base)) (m.resolve ref base?).expr
      (m.resolve ref base?).imports := by
  have h := encloses_layered (base?.getD (m.named ref.base)) true (wrappersOf ref)
  rw [← wrap_eq] at h
  have hmem {x : Symbol} : x ∈ (m.resolve ref base?).imports ↔
      x ∈ (wrap (base?.getD (m.named ref.base)) ref).2 :=
    List.mem_eraseDups
  exact ⟨h.mem, fun x hx => hmem.mpr (h.imports hx),
    fun n hn => (h.names n hn).imp_right (Imported.mono fun x hx => hmem.mpr hx)⟩

/-! ## The types of a schema -/

def usualMapper (s : Schema) : Mapper := { schema? := s }

/-- The class that stands for the type of a reference; a scalar, and a type that the schema does not
know, have none. -/
def mentioned (s : Schema) (ref : TypeRef) : List String :=
  (s.type? ref.base).toList.flatMap SchemaTypes.classesOf

/-- What the table of scalars says about a name. -/
def scalarNamed (name : String) : NamedType :=
  match ScalarTable.initial.get? name with
  | none => Mapper.fallback
  | some ⟨text, none⟩ => ⟨text, []⟩
  | some ⟨text, some source⟩ => ⟨text, [(text, source)]⟩

/-- A named type is called like its class, or it is what the table of scalars says. -/
theorem named_usualMapper (s : Schema) (name : String) :
    (usualMapper s).named name = if (s.type? name).all Schema.isScalar then scalarNamed name
      else ⟨Naming.className name, []⟩ := by
  unfold Mapper.named scalarNamed
  have hreplacements : (usualMapper s).replacements.lookup name = none := rfl
  have hbind : (usualMapper s).schema?.bind (·.type? name) = s.type? name := rfl
  have hqualifier : (usualMapper s).qualifier ++ Naming.className name = Naming.className name :=
    String.empty_append
  simp only [hreplacements, hbind, hqualifier]
  cases s.type? name with
  | none => rfl
  | some t =>
    cases hscalar : Schema.isScalar t <;> simp only [hscalar, Option.all_some]
    · rfl
    · rfl

/-- Entries of the table of scalars are built in, or have a source and a name. -/
theorem accounted_scalar (name : String) :
    Accounted (scalarNamed name).imports [] (scalarNamed name).text := by
  have hentries : ∀ e ∈ ScalarTable.initial.entries, e.2.name ≠ wholeModule ∧
      (e.2.source?.isNone → e.2.name ∈ ScalarTable.initial.builtins) := by
    decide
  unfold scalarNamed
  cases hget : ScalarTable.initial.get? name with
  | none => exact .inr (.inl ⟨by decide, "typing", List.mem_singleton_self _⟩)
  | some target =>
    obtain ⟨before, after, heq, -⟩ := List.lookup_eq_some_iff.mp hget
    obtain ⟨hname, hbuiltin⟩ := hentries (name, target) (by rw [heq]; simp)
    obtain ⟨text, source?⟩ := target
    cases source? with
    | none => exact .inl (hbuiltin rfl)
    | some source => exact .inr (.inl ⟨hname, source, List.mem_singleton_self _⟩)

/-- A named type is called like the class that stands for it, or it is a scalar that is accounted
for. -/
theorem named_usual (s : Schema) (ref : TypeRef) :
    let t := (usualMapper s).named ref.base
    mentioned s ref = [t.text] ∨ mentioned s ref = [] ∧ Accounted t.imports [] t.text := by
  unfold mentioned
  rw [named_usualMapper]
  cases htype : s.type? ref.base with
  | none => exact .inr ⟨rfl, accounted_scalar ref.base⟩
  | some t =>
    have hclasses : (some t).toList.flatMap SchemaTypes.classesOf = SchemaTypes.classesOf t :=
      List.flatMap_singleton ..
    rw [hclasses, SchemaTypes.classesOf, name_of_type? htype, Option.all_some]
    cases Schema.isScalar t with
    | true => exact .inr ⟨rfl, accounted_scalar ref.base⟩
    | false => exact .inl rfl

/-- **References.** Every name that a reference resolves to is accounted for, but for the class that
it mentions; and that one is among the names. -/
theorem refers_resolve (s : Schema) (ref : TypeRef) :
    let t := (usualMapper s).resolve ref
    Refers t.imports (mentioned s ref) [] t.expr.names := by
  intro t
  have h : Encloses ((usualMapper s).named ref.base) t.expr t.imports :=
    encloses_resolve (usualMapper s) ref none
  constructor
  · intro n hn
    rw [List.append_nil]
    rcases h.names n hn with rfl | hn
    · rcases named_usual s ref with hclass | ⟨-, hscalar⟩
      · exact .inr (.inr (hclass ▸ List.mem_singleton_self _))
      · exact hscalar.mono h.imports (List.nil_subset _)
    · exact .inr (.inl hn)
  · rcases named_usual s ref with hclass | ⟨hnone, -⟩
    · rw [hclass]
      exact List.cons_subset.mpr ⟨h.mem, List.nil_subset _⟩
    · rw [hnone]
      exact List.nil_subset _

/-- A reference whose type is replaced by one of the module mentions nothing else. -/
theorem refers_resolve_base (m : Mapper) (ref : TypeRef) (name : String) :
    let t := m.resolve ref (some ⟨name, []⟩)
    Refers t.imports [] [name] t.expr.names := by
  intro t
  refine ⟨fun n hn => ?_, List.nil_subset _⟩
  rcases (encloses_resolve m ref (some ⟨name, []⟩)).names n hn with rfl | hn
  · exact .inr (.inr (List.mem_singleton_self _))
  · exact .inr (.inl hn)

end Graphwright.Types
