import Graphwright.Proofs.Naming.Identifiers
import Graphwright.Proofs.Schema.References
import Graphwright.Proofs.Schema.Unique
import Graphwright.Proofs.Totality

/-!
# Classes and imports of schema types

A module of schema types imports what its declarations need: the constructors that they are made
with, which are among the imported names that no class may have, and the types that scalars stand
for (`mem_localNames_generate`). The latter are not among these names, and neither is what the
module imports first, to have its annotations read later. A class that is called like one of them
takes its place, and there is no other way for a class to have the name of an import
(`imported_and_declared`).
-/
namespace Graphwright

namespace Module.Registry

/-- The symbols of a registry are those that have been recorded. -/
theorem key_mem_recordAll {r : Registry} {pairs : List Types.Symbol} {key : Types.Symbol} :
    key ∈ (r.recordAll pairs).imports.map (·.key) ↔ key ∈ r.imports.map (·.key) ∨ key ∈ pairs := by
  constructor
  · unfold recordAll
    induction pairs generalizing r with
    | nil => exact .inl
    | cons pair rest ih =>
      intro h
      rcases ih h with h | h
      · obtain ⟨i, hi, rfl⟩ := List.mem_map.mp h
        rcases mem_record hi with hi | rfl
        · exact .inl (List.mem_map_of_mem hi)
        · exact .inr List.mem_cons_self
      · exact .inr (List.mem_cons_of_mem _ h)
  · rintro (h | h)
    · exact List.map_subset _ (subset_recordAll r pairs) h
    · exact subset_keys_recordAll r pairs h

/-- Symbols that are imported plainly are called by their own names. -/
theorem Plain.mem_localNames {r : Registry} (h : r.Plain)
    (hsymbols : ∀ key ∈ r.imports.map (·.key), key.1 ≠ wholeModule) {n : String} :
    n ∈ r.imports.map (·.localName) ↔ ∃ source, (n, source) ∈ r.imports.map (·.key) := by
  have hlocal : ∀ i ∈ r.imports, i.localName = i.key.1 := by
    intro i hi
    have hsymbol := hsymbols _ (List.mem_map_of_mem hi)
    rw [Import.localName, Import.rename?, (h i hi).2]
    exact if_neg hsymbol
  rw [List.map_congr_left hlocal]
  simp only [List.mem_map]
  constructor
  · rintro ⟨i, hi, rfl⟩
    exact ⟨i.key.2, i, hi, rfl⟩
  · rintro ⟨source, i, hi, hkey⟩
    exact ⟨i, hi, by rw [hkey]⟩

end Module.Registry

namespace SchemaTypes

open Graphwright.Document Graphwright.Module Graphwright.Types

/-! ## What declarations need -/

/-- A field needs what its annotation needs, and the constructor that gives it another name. -/
theorem mem_needs_attribute {a : Attribute} {symbol : Symbol} (h : symbol ∈ a.needs) :
    symbol ∈ a.annotation.needs ∨ symbol = fieldSymbol := by
  refine (List.mem_append.mp h).imp_right fun h => ?_
  split at h
  · exact List.mem_singleton.mp h
  · cases h

/-- What a declaration needs: constructors that no class is called like, and what the types of the
fields come with. -/
structure Needs (m : Mapper) (refs : List TypeRef) (needs : List Symbol) : Prop where
  upper : ∀ symbol ∈ needs, symbol.1 ∈ Naming.importedNames ∨
    ∃ ref ∈ refs, symbol ∈ (m.resolve ref).imports
  lower : ∀ ref ∈ refs, (m.resolve ref).imports ⊆ needs

theorem needs_modelOf {m : Mapper} {t : TypeDefinition} {typename? : Option Attribute}
    {fields : List (Attribute × Option Description)} {x : Declared}
    (h : modelOf t typename? fields = .ok x)
    (htypename : ∀ a ∈ typename?, ∃ value, a.annotation = .literal value) {refs : List TypeRef}
    (hfields : annotationsOf (fields.map (·.1)) = refs.map fun ref => .type (m.resolve ref)) :
    Needs m refs x.needs := by
  obtain ⟨description?, described, rfl, hdescribed⟩ := modelOf_ok h
  have hresolved : described.map Attribute.annotation =
      refs.map fun ref => .type (m.resolve ref) := by
    rw [hdescribed Attribute.annotation fun _ _ => rfl, ← hfields, annotationsOf, List.map_map]
    rfl
  constructor
  · intro symbol hsymbol
    simp only [List.mem_append, List.mem_cons, List.mem_flatMap, Option.mem_toList] at hsymbol
    rcases hsymbol with (⟨a, ha, hsymbol⟩ | rfl | ⟨a, ha, hsymbol⟩) | hsymbol
    · rcases mem_needs_attribute hsymbol with hsymbol | rfl
      · have hmem := hresolved ▸ List.mem_map_of_mem (f := Attribute.annotation) ha
        obtain ⟨ref, href, heq⟩ := List.mem_map.mp hmem
        rw [← heq] at hsymbol
        exact .inr ⟨ref, href, hsymbol⟩
      · exact .inl (by decide)
    · exact .inl (by decide)
    · rcases mem_needs_attribute hsymbol with hsymbol | rfl
      · obtain ⟨value, hvalue⟩ := htypename a ha
        rw [hvalue] at hsymbol
        obtain rfl := List.mem_singleton.mp hsymbol
        exact .inl (by decide)
      · exact .inl (by decide)
    · split at hsymbol
      · obtain rfl := List.mem_singleton.mp hsymbol
        exact .inl (by decide)
      · cases hsymbol
  · intro ref href symbol hsymbol
    have hmem : Annotation.type (m.resolve ref) ∈ described.map Attribute.annotation :=
      hresolved ▸ List.mem_map_of_mem href
    obtain ⟨a, ha, heq⟩ := List.mem_map.mp hmem
    refine List.mem_append_left _
      (List.mem_append_left _ (List.mem_flatMap.mpr ⟨a, ha, List.mem_append_left _ ?_⟩))
    rw [heq]
    exact hsymbol

theorem needs_declare {m : Mapper} {skipTypename : Bool} {t : TypeDefinition} {x? : Option Declared}
    (h : declare m skipTypename t = .ok x?) :
    Needs m (fieldTypes t) (x?.toList.flatMap (·.needs)) := by
  have hconstructor {symbol : Symbol} (hsymbol : symbol.1 ∈ Naming.importedNames) :
      Needs m [] [symbol] :=
    ⟨fun _ hs => .inl (List.mem_singleton.mp hs ▸ hsymbol), nofun⟩
  unfold fieldTypes
  cases declaring_of_ok h with
  | scalar hb =>
    rw [hb]
    exact ⟨nofun, nofun⟩
  | object hb hfound hx =>
    rw [hb, Option.toList_some, List.flatMap_singleton]
    refine needs_modelOf hx (fun a ha => ?_) (annotations_fieldAttributes hfound)
    split at ha
    · cases ha
    · exact ⟨t.name, by rw [← Option.some.inj ha]; rfl⟩
  | interface hb hfound hx =>
    rw [hb, Option.toList_some, List.flatMap_singleton]
    exact needs_modelOf hx nofun (annotations_fieldAttributes hfound)
  | input hb hfound hx =>
    rw [hb, Option.toList_some, List.flatMap_singleton]
    exact needs_modelOf hx nofun (annotations_inputAttributes hfound)
  | enum hb | union hb =>
    rw [hb, Option.toList_some, List.flatMap_singleton]
    exact hconstructor (by decide)

theorem Needs.append {m : Mapper} {refs refs' : List TypeRef} {needs needs' : List Symbol}
    (h : Needs m refs needs) (h' : Needs m refs' needs') :
    Needs m (refs ++ refs') (needs ++ needs') where
  upper symbol hsymbol := by
    rcases List.mem_append.mp hsymbol with hs | hs
    · exact (h.upper symbol hs).imp_right fun ⟨ref, href, hr⟩ =>
        ⟨ref, List.mem_append_left _ href, hr⟩
    · exact (h'.upper symbol hs).imp_right fun ⟨ref, href, hr⟩ =>
        ⟨ref, List.mem_append_right _ href, hr⟩
  lower ref href := by
    rcases List.mem_append.mp href with hr | hr
    · exact List.subset_append_of_subset_left _ (h.lower ref hr)
    · exact List.subset_append_of_subset_right _ (h'.lower ref hr)

theorem needs_mapM_declare {m : Mapper} {skipTypename : Bool} {ts : List TypeDefinition}
    {xs : List (Option Declared)} (h : ts.mapM (declare m skipTypename) = .ok xs) :
    Needs m (ts.flatMap fieldTypes) ((xs.filterMap id).flatMap (·.needs)) := by
  induction ts generalizing xs with
  | nil =>
    cases h
    exact ⟨nofun, nofun⟩
  | cons t rest ih =>
    obtain ⟨x?, more, hx, hmore, rfl⟩ := mapM_cons_eq_ok.mp h
    have hfirst : (x? :: more).filterMap id = x?.toList ++ more.filterMap id := by cases x? <;> rfl
    rw [List.flatMap_cons, hfirst, List.flatMap_append]
    exact (needs_declare hx).append (ih hmore)

/-! ## What types come with -/

/-- Scalars that stand for types of other modules, with the names of these. -/
def importedScalars : List (String × String) :=
  [("DateTime", "datetime"), ("Date", "date"), ("UUID", "UUID")]

theorem exists_mem_imports_scalarNamed (name : String) {n : String}
    (hn : n ∉ Naming.importedNames) :
    (∃ source, (n, source) ∈ (scalarNamed name).imports) ↔ (name, n) ∈ importedScalars := by
  have hentries : ∀ e ∈ ScalarTable.initial.entries,
      e.2.source?.isSome → e.2.name = "Any" ∨ (e.1, e.2.name) ∈ importedScalars := by decide
  have hscalars : ∀ e ∈ importedScalars, (scalarNamed e.1).imports.any (·.1 == e.2) := by decide
  constructor
  · rintro ⟨source, h⟩
    have hany : n ≠ "Any" := fun hany => hn (hany ▸ by decide)
    unfold scalarNamed at h
    split at h
    · exact absurd (Prod.mk.inj (List.mem_singleton.mp h)).1 hany
    · cases h
    · rename_i text source' hget
      obtain ⟨rfl, -⟩ := Prod.mk.inj (List.mem_singleton.mp h)
      obtain ⟨before, after, heq, -⟩ := List.lookup_eq_some_iff.mp hget
      exact (hentries (name, ⟨n, some source'⟩) (by rw [heq]; simp) rfl).resolve_left hany
  · intro h
    obtain ⟨symbol, hsymbol, hname⟩ := List.any_eq_true.mp (hscalars _ h)
    obtain rfl : symbol.1 = n := beq_iff_eq.mp hname
    exact ⟨symbol.2, hsymbol⟩

/-- The names that a named type comes with: none if it is no scalar; if it is one, what it stands
for, unless that is built in or may be anything. -/
theorem exists_mem_imports_named (s : Schema) (name : String) {n : String}
    (hn : n ∉ Naming.importedNames) :
    (∃ source, (n, source) ∈ ((usualMapper s).named name).imports) ↔
      (s.type? name).all Schema.isScalar ∧ (name, n) ∈ importedScalars := by
  rw [named_usualMapper]
  split
  · rename_i hscalar
    simp [exists_mem_imports_scalarNamed name hn, hscalar]
  · rename_i hscalar
    simp [hscalar]

theorem mem_imports_resolve {m : Mapper} {ref : TypeRef} {symbol : Symbol}
    (h : symbol ∈ (m.resolve ref).imports) :
    symbol.1 ∈ Naming.importedNames ∨ symbol ∈ (m.named ref.base).imports := by
  have h : symbol ∈ (m.resolveReference (.written ref) none).imports := h
  rcases mem_imports_resolveReference.mp h with h | ⟨rfl, -⟩ | ⟨rfl, -⟩
  · exact .inr h
  · exact .inl (by decide)
  · exact .inl (by decide)

/-! ## Imports of a module -/

/-- A name that the module of a schema imports though a class may have it: what it takes to read the
annotations later, or what the scalar stands for that is the type of some field. -/
def IsUnguarded (s : Schema) (n : String) : Prop :=
  n = "annotations" ∨ ∃ ref ∈ s.types.flatMap fieldTypes,
    (s.type? ref.base).all Schema.isScalar ∧ (ref.base, n) ∈ importedScalars

/-- The names that an import may have are no names of escapes. -/
theorem IsUnguarded.unescaped {s : Schema} {n : String} (h : IsUnguarded s n) :
    Naming.Unescaped Naming.classWords n := by
  have hall : ∀ n ∈ "annotations" :: importedScalars.map (·.2),
      Naming.Unescaped Naming.classWords n := by
    decide
  rcases h with rfl | ⟨ref, -, -, hmem⟩
  · exact hall _ List.mem_cons_self
  · exact hall n (List.mem_cons_of_mem _ (List.mem_map_of_mem (f := Prod.snd) hmem))

theorem exists_mem_keys_generate {s : Schema} {r : Result} (h : generate s {} = .ok r) {n : String}
    (hn : n ∉ Naming.importedNames) :
    (∃ source, (n, source) ∈ r.imports.imports.map (·.key)) ↔ IsUnguarded s n := by
  obtain ⟨-, -, xs, hxs, rfl⟩ := generate_ok.mp h
  have hneeds :
      Needs (usualMapper s) (s.types.flatMap fieldTypes) ((xs.filterMap id).flatMap (·.needs)) :=
    needs_mapM_declare hxs
  have hkeys {key : Symbol} : key ∈ (resultOf {} (xs.filterMap id)).imports.imports.map (·.key) ↔
      key = annotationsSymbol ∨ key ∈ (xs.filterMap id).flatMap (·.needs) := by
    rw [resultOf, Registry.key_mem_recordAll, List.mem_cons]
    simp [Registry.orFresh]
  simp only [hkeys]
  constructor
  · rintro ⟨source, h | h⟩
    · exact .inl (Prod.mk.inj h).1
    · obtain ⟨ref, href, h⟩ := (hneeds.upper _ h).resolve_left hn
      exact .inr ⟨ref, href,
        (exists_mem_imports_named s _ hn).mp ⟨source, (mem_imports_resolve h).resolve_left hn⟩⟩
  · rintro (rfl | ⟨ref, href, h⟩)
    · exact ⟨_, .inl rfl⟩
    · obtain ⟨source, hsource⟩ := (exists_mem_imports_named s _ hn).mpr h
      have hresolve := (encloses_resolve (usualMapper s) ref none).imports hsource
      exact ⟨source, .inr (hneeds.lower ref href hresolve)⟩

/-- **Imports.** Besides the names that no class may have, the module of a schema imports those that
are left unguarded. -/
theorem mem_localNames_generate {s : Schema} {r : Result} (h : generate s {} = .ok r) {n : String}
    (hn : n ∉ Naming.importedNames) :
    n ∈ r.imports.imports.map (·.localName) ↔ IsUnguarded s n := by
  have hplain : r.imports.Plain := by
    obtain ⟨-, -, xs, -, rfl⟩ := generate_ok.mp h
    exact (Registry.plain_empty _).recordAll _
  have hwhole : ∀ key ∈ r.imports.imports.map (·.key), key.1 ≠ wholeModule := by
    rintro ⟨_, source⟩ hkey rfl
    rcases (exists_mem_keys_generate h (by decide)).mp ⟨source, hkey⟩ with h | ⟨ref, -, -, h⟩
    · exact absurd h (by decide)
    · have hscalars : ∀ e ∈ importedScalars, e.2 ≠ wholeModule := by decide
      exact hscalars _ h rfl
  rw [hplain.mem_localNames hwhole, exists_mem_keys_generate h hn]

/-! ## Classes -/

/-- A class has no name that classes may not have, and that of its type unless this is such a
name. -/
theorem className_spec {name : String} (h : IsName name) :
    Naming.className name ∉ Naming.classWords ∧
      ∀ n, Naming.Unescaped Naming.classWords n → (Naming.className name = n ↔ name = n) := by
  rw [Naming.className_eq h]
  refine ⟨Naming.escaped_not_mem Naming.escapable_classWords name, fun n hn => ⟨fun heq => ?_, ?_⟩⟩
  · have hmem := hn.mem_map_escaped_iff.mp (List.mem_map.mpr ⟨name, List.mem_singleton_self _, heq⟩)
    exact (List.mem_singleton.mp hmem).symm
  · rintro rfl
    exact Naming.escaped_of_not_mem hn.1

theorem mem_classes_generate {s : Schema} {r : Result} (h : generate s {} = .ok r) {n : String} :
    n ∈ r.declarations.flatMap (·.names) ↔
      ∃ t ∈ s.types, Schema.isScalar t = false ∧ Naming.className t.name = n := by
  rw [names_generate h]
  simp only [List.mem_flatMap, classesOf]
  refine exists_congr fun t => and_congr_right fun _ => ?_
  cases Schema.isScalar t <;> simp [eq_comm]

/-- What a module both imports and declares are the names of types that are left unguarded. -/
theorem mem_localNames_and_mem_classes_generate {s : Schema} (hs : ∀ t ∈ s.types, IsName t.name)
    {r : Result} (h : generate s {} = .ok r) {n : String} :
    n ∈ r.imports.imports.map (·.localName) ∧ n ∈ r.declarations.flatMap (·.names) ↔
      (∃ t ∈ s.types, Schema.isScalar t = false ∧ t.name = n) ∧ IsUnguarded s n := by
  rw [mem_classes_generate h]
  constructor
  · rintro ⟨hlocal, t, ht, hclass, hname⟩
    obtain ⟨hguarded, hown⟩ := className_spec (hs t ht)
    have hn : n ∉ Naming.importedNames := fun hmem => hguarded (hname ▸ List.mem_append_left _ hmem)
    have hunguarded := (mem_localNames_generate h hn).mp hlocal
    exact ⟨⟨t, ht, hclass, (hown n hunguarded.unescaped).mp hname⟩, hunguarded⟩
  · rintro ⟨⟨t, ht, hclass, hname⟩, hunguarded⟩
    have hn : n ∉ Naming.importedNames :=
      fun hmem => hunguarded.unescaped.1 (List.mem_append_left _ hmem)
    have hown := ((className_spec (hs t ht)).2 n hunguarded.unescaped).mpr hname
    exact ⟨(mem_localNames_generate h hn).mpr hunguarded, t, ht, hclass, hown⟩

/-- A class that is called like a scalar takes its place in the schema, so the one scalar that is
imported by its own name shares it with no class. -/
theorem mem_importedScalars_iff {s : Schema} (h : s.Distinct) {t : TypeDefinition}
    (ht : t ∈ s.types) (hclass : Schema.isScalar t = false) {base : String}
    (hbase : (s.type? base).all Schema.isScalar) :
    (base, t.name) ∈ importedScalars ↔
    (base, t.name) ∈ [("DateTime", "datetime"), ("Date", "date")] := by
  have huuid : (base, t.name) ≠ ("UUID", "UUID") := by
    intro heq
    obtain ⟨hname, hname'⟩ := Prod.mk.inj heq
    rw [hname, ← hname', h.type?_of_mem ht, Option.all_some, hclass] at hbase
    cases hbase
  simp [importedScalars, huuid]

/-- **Shadows.** Let a text be read, its schema be built and its schema types be made, with the
usual options. A name that the module both imports and declares is that of a type that is no scalar.
It is `annotations`, or it is `datetime` and a field has the scalar `DateTime` for its type, or
`date` and a field has the scalar `Date`; and these are always imported and declared. -/
theorem imported_and_declared {source : Source} {d : Document} {s : Schema} {path : String}
    {p : Part} (hread : Document.read source = .ok d) (hbuild : Schema.build d = .ok s)
    (h : part s {} path = .ok p) :
    ∃ r : Result, generate s {} = .ok r ∧ p.body = r.body ∧ p.imports = r.imports ∧
      ∀ n, n ∈ p.imports.imports.map (·.localName) ∧ n ∈ r.declarations.flatMap (·.names) ↔
        (∃ t ∈ s.types, Schema.isScalar t = false ∧ t.name = n) ∧
          (n = "annotations" ∨ ∃ ref ∈ s.types.flatMap fieldTypes,
            (s.type? ref.base).all Schema.isScalar ∧
            (ref.base, n) ∈ [("DateTime", "datetime"), ("Date", "date")]) := by
  obtain ⟨package, r, -, hr, rfl⟩ := part_ok.mp h
  have hnames : ∀ t ∈ s.types, IsName t.name :=
    fun t ht => ((isProper_of_build hread hbuild).types t ht).name
  refine ⟨r, hr, rfl, rfl, fun n => (mem_localNames_and_mem_classes_generate hnames hr).trans ?_⟩
  refine and_congr_right fun ⟨t, ht, hclass, hname⟩ => or_congr_right (exists_congr fun ref => ?_)
  refine and_congr_right fun _ => and_congr_right fun hbase => ?_
  rw [← hname]
  exact mem_importedScalars_iff (Schema.distinct_of_build hbuild) ht hclass hbase

/-- A class called like what the other one of two scalars stands for. -/
def dateSdl : String :=
  "scalar DateTime type Query \x7b at: DateTime! of: date \x7d type date \x7b day: Int \x7d"

theorem imported_and_declared_dates :
    ∃ d s p, ∃ r : Result, Document.read ⟨dateSdl, "GraphQL request"⟩ = .ok d ∧
    Schema.build d = .ok s ∧ part s {} "types.py" = .ok p ∧ generate s {} = .ok r ∧
      ∀ n, ¬ (n ∈ p.imports.imports.map (·.localName) ∧ n ∈ r.declarations.flatMap (·.names)) := by
  obtain ⟨d, s, hd, hbuild, hfacts⟩ := exists_of_any_schemaOf? dateSdl
    (P := fun s => (part s {} "types.py").toOption.isSome &&
      (s.types.filter (!Schema.isScalar ·)).map (·.name) == ["Query", "date"] &&
      (s.types.flatMap fieldTypes).map (·.base) == ["DateTime", "date", "Int"]) (by decide +kernel)
  simp only [Bool.and_eq_true, beq_iff_eq] at hfacts
  obtain ⟨⟨hpart, hnames⟩, hbases⟩ := hfacts
  obtain ⟨p, hp⟩ := exists_ok_of_isSome hpart
  obtain ⟨r, hr, -, -, hboth⟩ := imported_and_declared hd hbuild hp
  refine ⟨d, s, p, r, hd, hbuild, hp, hr, fun n hn => ?_⟩
  obtain ⟨⟨t, ht, hscalar, rfl⟩, hn⟩ := (hboth n).mp hn
  have hname : t.name ∈ ["Query", "date"] :=
    hnames ▸ List.mem_map_of_mem (List.mem_filter.mpr ⟨ht, by simp [hscalar]⟩)
  rcases hn with hn | ⟨ref, href, -, hmem⟩
  · exact absurd (hn ▸ hname) (by decide)
  · have hbase : ref.base ∈ ["DateTime", "date", "Int"] := hbases ▸ List.mem_map_of_mem href
    have hapart : ∀ name ∈ ["Query", "date"], ∀ base ∈ ["DateTime", "date", "Int"],
        (base, name) ∉ [("DateTime", "datetime"), ("Date", "date")] := by decide
    exact hapart _ hname _ hbase hmem

/-- Classes called like what a scalar stands for, and like what every module imports first. -/
def shadowingSdl : String :=
  "scalar DateTime type Query \x7b at: DateTime of: datetime as: annotations \x7d " ++
  "type datetime \x7b a: Int \x7d type annotations \x7b a: Int \x7d"

/-- Two classes that take the places of imports. -/
theorem import_shadowed :
    ∃ d s p, ∃ r : Result, Document.read ⟨shadowingSdl, "GraphQL request"⟩ = .ok d ∧
    Schema.build d = .ok s ∧
      part s {} "types.py" = .ok p ∧ generate s {} = .ok r ∧ p.body = r.body ∧
      ∀ n ∈ ["annotations", "datetime"],
        n ∈ p.imports.imports.map (·.localName) ∧ n ∈ r.declarations.flatMap (·.names) := by
  obtain ⟨d, s, hd, hbuild, hfacts⟩ := exists_of_any_schemaOf? shadowingSdl
    (P := fun s => (part s {} "types.py").toOption.isSome &&
      (generate s {}).toOption.any fun (r : Result) =>
      ["annotations", "datetime"].all fun n =>
        decide (n ∈ r.imports.imports.map (·.localName)) &&
          decide (n ∈ r.declarations.flatMap (·.names)))
    (by decide +kernel)
  obtain ⟨hpart, hnames⟩ := Bool.and_eq_true_iff.mp hfacts
  obtain ⟨p, hp⟩ := exists_ok_of_isSome hpart
  obtain ⟨package, r, -, hr, rfl⟩ := part_ok.mp hp
  rw [hr] at hnames
  refine ⟨d, s, _, r, hd, hbuild, hp, hr, rfl, fun n hn => ?_⟩
  obtain ⟨himported, hdeclared⟩ := Bool.and_eq_true_iff.mp (List.all_eq_true.mp hnames n hn)
  exact ⟨of_decide_eq_true himported, of_decide_eq_true hdeclared⟩

end SchemaTypes

end Graphwright
