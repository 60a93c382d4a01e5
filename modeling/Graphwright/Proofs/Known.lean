import Graphwright.Proofs.Module.Combining
import Graphwright.Proofs.Response.References
import Graphwright.Proofs.Schema.References
import Graphwright.Proofs.Together

/-!
# Known names in one module

In a client with its models, annotations and unions refer to types by name, and the models are
rebuilt when all of them are there. By then a name has to be built in, imported or declared.
References to types of the schema are resolved among all types that belong to it, but only the
defined ones are declared.

* `combined_names_known`: every name is known, but perhaps for the classes of standard types and of
  members of unions, on which a module relies without declaring them. All names are known exactly if
  those are.
* `kind_unknown`: a query for the kinds of types refers to a class that nobody declares.
-/
namespace Graphwright

open Graphwright.Document Graphwright.Module

/-! ## Names of a module -/

def clientParts (package : String) (mode : DocumentMode) (types : SchemaTypes.Result)
    (operations : OperationTypes.Result) (context : Client.Context) (hs : List Client.Helper) :
    List Part :=
  [SchemaTypes.partOf package types, OperationTypes.partOf package operations,
    Client.partOf package mode context hs]

/-- The names that the models of schema types and operation types refer to. -/
def referencesOf (types : SchemaTypes.Result) (operations : OperationTypes.Result) : List String :=
  types.declarations.flatMap (·.references types.imports) ++
    operations.blocks.flatMap (·.references operations.imports)

def declaredBy (types : SchemaTypes.Result) (operations : OperationTypes.Result) : List String :=
  types.declarations.flatMap (·.names) ++ operations.blocks.flatMap (·.names)

/-- The classes that the declarations of a schema and of shapes rely on. -/
def promised (s : Schema) (found : List Response.Shape) : List String :=
  s.types.flatMap (SchemaTypes.promises s) ++
    (found.flatMap OperationTypes.shapeTypes).flatMap (Types.mentioned s)

/-- A promised class is the one of a type of the schema, or of a standard type, or of a member of a
union. -/
theorem class_of_promised {s : Schema} {found : List Response.Shape} {n : String}
    (h : n ∈ promised s found) :
    n ∈ s.types.flatMap SchemaTypes.classesOf ∨ n ∈ s.standard.flatMap SchemaTypes.classesOf ∨
      n ∈ s.types.flatMap SchemaTypes.memberClasses := by
  have hmentioned {ref : TypeRef} (hn : n ∈ Types.mentioned s ref) :
      n ∈ s.types.flatMap SchemaTypes.classesOf ∨ n ∈ s.standard.flatMap SchemaTypes.classesOf := by
    obtain ⟨t, ht, hn⟩ := List.mem_flatMap.mp hn
    have htype : s.type? ref.base = some t := Option.mem_toList.mp ht
    unfold Schema.type? at htype
    split at htype
    · rename_i hfind
      obtain rfl := Option.some.inj htype
      exact .inl (List.mem_flatMap.mpr ⟨_, List.mem_of_find?_eq_some hfind, hn⟩)
    · exact .inr (List.mem_flatMap.mpr ⟨t, List.mem_of_find?_eq_some htype, hn⟩)
  rcases List.mem_append.mp h with h | h
  · obtain ⟨t, ht, hn⟩ := List.mem_flatMap.mp h
    rcases List.mem_append.mp hn with hn | hn
    · obtain ⟨ref, -, hn⟩ := List.mem_flatMap.mp hn
      exact (hmentioned hn).imp_right .inl
    · exact .inr (.inr (List.mem_flatMap.mpr ⟨t, ht, hn⟩))
  · obtain ⟨ref, -, hn⟩ := List.mem_flatMap.mp h
    exact (hmentioned hn).imp_right .inl

theorem asName?_headRegistry : ∀ i ∈ (Client.headRegistry {} none).imports, i.asName? = none := by
  decide

section Parts

variable {s : Schema} {d : Document} {package : String} {types : SchemaTypes.Result}
    {context : Client.Context} {found : List Response.Shape} {hs : List Client.Helper}

/-- All parts import things under their own names. -/
theorem asName?_clientParts (ht : types.imports.Plain) {operations : OperationTypes.Result}
    (ho : operations.imports.Plain) (hc : Client.contextOf {} none = .ok context) :
    ∀ i ∈ importsOf (clientParts package .text types operations context hs), i.asName? = none := by
  intro i hi
  obtain ⟨part, hpart, hi⟩ := List.mem_flatMap.mp hi
  simp only [clientParts, List.mem_cons, List.not_mem_nil, or_false] at hpart
  rcases hpart with rfl | rfl | rfl
  · exact (ht i hi).2
  · exact (ho i hi).2
  · obtain rfl : context = ⟨Client.headRegistry {} none, "", ""⟩ := (Except.ok.inj hc).symm
    exact asName?_headRegistry i hi

theorem promised_subset_referencesOf (ht : SchemaTypes.generate s {} = .ok types) :
    promised s found ⊆ referencesOf types (OperationTypes.resultOf s d {} found) := by
  obtain ⟨-, htypes⟩ := SchemaTypes.refers_generate ht
  obtain ⟨-, hoperations⟩ := OperationTypes.refers_resultOf s d found
  exact List.append_subset.mpr ⟨List.subset_append_of_subset_left _ htypes.mentions,
    List.subset_append_of_subset_right _ hoperations.mentions⟩

/-- Where the types of a schema and of operations are put together, their names are known or
promised. -/
theorem known_or_promised (ht : SchemaTypes.generate s {} = .ok types)
    (hc : Client.contextOf {} none = .ok context) :
    let operations := OperationTypes.resultOf s d {} found
    let parts := clientParts package .text types operations context hs
    ∀ n ∈ referencesOf types operations,
      Known (Part.joined parts).block (declaredBy types operations) n ∨ n ∈ promised s found := by
  intro operations parts n hn
  obtain ⟨htplain, htypes⟩ := SchemaTypes.refers_generate ht
  obtain ⟨hoplain, hoperations⟩ := OperationTypes.refers_resultOf s d found
  have hplain : ∀ i ∈ importsOf parts, i.asName? = none := asName?_clientParts htplain hoplain hc
  have hjoined :
      Part.joined parts = ⟨types.imports.separateTyping, Registry.joint (importsOf parts)⟩ :=
    Part.imports_join _ _
  rw [hjoined]
  rcases List.mem_append.mp hn with hn | hn
  · have hsub : types.imports.imports ⊆ importsOf parts := List.subset_append_left _ _
    have haccounted := htypes.accounted n hn
    rw [List.append_nil] at haccounted
    exact (Registry.known_of_accounted hplain htplain hsub haccounted _).imp_right
      (List.mem_append_left _)
  · have hsub : operations.imports.imports ⊆ importsOf parts :=
      List.subset_append_of_subset_right types.imports.imports (List.subset_append_left _ _)
    rcases Registry.known_of_accounted hplain hoplain hsub (hoperations.accounted n hn)
      (declaredBy types operations) with hknown | hn
    · exact .inl hknown
    · rcases List.mem_append.mp hn with hmentioned | hown
      · exact .inr (List.mem_append_right _ hmentioned)
      · exact .inl (.inr (.inr (List.mem_append_right _ hown)))

/-- A name is unknown if it is neither built in nor declared, and nothing that a part imports binds
it. -/
theorem not_known {parts : List Part} {declared : List String} {n : String}
    (hbuiltin : n ∉ Types.ScalarTable.initial.builtins)
    (hflag : Registry.checkingFlag.localName ≠ n)
    (hbound : ∀ p ∈ parts, ∀ i ∈ p.imports.imports, ∀ x ∈ i.bindings, x.name ≠ n)
    (hdeclared : n ∉ declared) : ¬ Known (Part.joined parts).block declared n := by
  rintro (h | h | h)
  · exact hbuiltin h
  · obtain ⟨separate, hjoined⟩ := Part.joined_eq parts
    obtain ⟨x, hx, rfl⟩ := List.mem_map.mp h
    rw [hjoined] at hx
    obtain ⟨i, hi, hx⟩ := exists_binding (ImportBlock.bindingsFor_mono hx)
    rcases List.mem_append.mp hi with hi | hi
    · obtain ⟨p, hp, hi⟩ := List.mem_flatMap.mp hi
      exact hbound p hp i hi x hx rfl
    · obtain ⟨-, rfl⟩ := ImportBlock.eq_of_mem_tested hi
      rw [bindings_checkingFlag, List.mem_singleton] at hx
      exact hflag (congrArg Binding.name hx).symm
  · exact hdeclared h

end Parts

/-- **Known names.** Let the text of a client with its models be generated with the usual options.
Every name in an annotation of a field or a variable, or in a union, is known, but perhaps for
promised classes of standard types, which a schema has without defining them, and of members of
unions. The module refers to all that is promised, so all names in it are known exactly if the
promised ones are. -/
theorem combined_names_known (s : Schema) (ds : List Document) (path text : String)
    (w w₁ : List Warning)
    (h : (combinedText Generator.clientSet s (Document.concat ds) {} path).run w = .ok text w₁) :
    ∃ package types operations context hs found w₂,
      SchemaTypes.generate s {} = .ok types ∧
      (OperationTypes.generate s (Document.concat ds) {}).run w = .ok operations w₂ ∧
      Client.contextOf {} none = .ok context ∧
      (Client.planOf s (Document.concat ds) {} context).helpers = .ok hs ∧
      Response.Shaped ⟨s, fragmentsOf (Document.concat ds)⟩ (Document.concat ds).definitions found ∧
      let parts := clientParts package .text types operations context hs
      let known := Known (Part.joined parts).block (declaredBy types operations)
      text = Part.combine parts ∧
      (∀ n ∈ referencesOf types operations, known n ∨ n ∈ promised s found ∧
        (n ∈ s.standard.flatMap SchemaTypes.classesOf ∨
          n ∈ s.types.flatMap SchemaTypes.memberClasses)) ∧
      promised s found ⊆ referencesOf types operations ∧
      ((∀ n ∈ referencesOf types operations, known n) ↔ ∀ n ∈ promised s found, known n) := by
  obtain ⟨package, types, found, context, hs, w₂, htypes, hshaped, hoperations, hcontext,
      hhelpers, rfl⟩ :=
    eq_clientText h
  refine ⟨package, types, _, context, hs, found, w₂, htypes, hoperations, hcontext, hhelpers,
    hshaped, ?_⟩
  have hpromised : promised s found ⊆
      referencesOf types (OperationTypes.resultOf s (Document.concat ds) {} found) :=
    promised_subset_referencesOf htypes
  refine ⟨rfl, fun n hn => ?_, hpromised, fun hknown n hn => hknown n (hpromised hn),
    fun hknown n hn => ?_⟩
  · rcases known_or_promised htypes hcontext n hn with hknown | hn
    · exact .inl hknown
    · rcases class_of_promised hn with hclass | hother
      · rw [← SchemaTypes.names_generate htypes] at hclass
        exact .inl (.inr (.inr (List.mem_append_left _ hclass)))
      · exact .inr ⟨hn, hother⟩
  · exact (known_or_promised htypes hcontext n hn).elim id (hknown n)

def unionSchema : Schema where
  roots := [(.query, "Query")]
  types := [
    { name := "Query"
      body := .object [] [{ name := "a", type := .nonNull (.named "A") },
        { name := "u", type := .list (.named "U") }] },
    { name := "A", body := .object [] [{ name := "e", type := .named "E" }] },
    { name := "E", body := .enum [{ name := "V" }] },
    { name := "U", body := .union ["A"] }]

/-- A query for a value of the enum with a variable, `query Q($e: E) { a { e } }`. -/
def valueDocuments : List Document := [⟨[.operation
  { name? := some "Q"
    variableDefinitions := [{ name := "e", type := .named "E" }]
    selections := [.field none "a" [] [] (some [.field none "e" [] [] none])] }]⟩]

theorem combined_names_known_valueDocuments :
    let d := Document.concat valueDocuments
    ∃ text w types operations context hs w₁,
      (combinedText Generator.clientSet unionSchema d {} "sdk.py").run [] = .ok text w ∧
      SchemaTypes.generate unionSchema {} = .ok types ∧
      (OperationTypes.generate unionSchema d {}).run [] = .ok operations w₁ ∧
      ["A", "E", "U"] ⊆ referencesOf types operations ∧
      ∃ package, ∀ n ∈ referencesOf types operations,
        Known (Part.joined (clientParts package .text types operations context hs)).block
          (declaredBy types operations) n := by
  intro d
  have he :
      Response.Asks ⟨unionSchema, fragmentsOf d⟩
      (unionSchema.type? "A") [.field none "e" [] [] none] _ :=
    .leaf (by decide) rfl .nil
  have hf : Response.Shaped ⟨unionSchema, fragmentsOf d⟩ d.definitions _ :=
    .cons ⟨_, .node (by decide) rfl he .nil, rfl⟩ .nil
  obtain ⟨types, hs, w₁, w₂, ht, -, -, hrun⟩ := exists_combinedText
    (show Naming.packageOf "sdk.py" = .ok "generated" by rfl)
    (show (SchemaTypes.generate unionSchema {}).toOption.isSome by decide +kernel) hf
    (show Client.contextOf {} none = .ok ⟨Client.headRegistry {} none, "", ""⟩ by rfl)
    (by decide) []
  obtain ⟨package, types', operations, context, hs, found, w₁, ht', hoperations, -, -, hf', -, -,
      hpromised, hknown⟩ := combined_names_known unionSchema valueDocuments "sdk.py" _ [] _ hrun
  obtain rfl : types = types' := Except.ok.inj (ht.symm.trans ht')
  obtain rfl := hf.unique _ hf'
  refine ⟨_, _, types, operations, context, hs, _, hrun, ht, hoperations,
    List.Subset.trans ?_ hpromised, package,
    hknown.mpr fun n hn => .inr (.inr (List.mem_append_left _ ?_))⟩
  · decide
  · rw [SchemaTypes.names_generate ht]
    revert n hn
    decide +kernel

/-- A schema with one number, `type Query { a: Int }`. -/
def numberDocument : Document := ⟨[.type false
  { name := "Query", body := .object [] [{ name := "a", type := .named "Int" }] }]⟩

def kindsOfTypes : Selection := .field none "types" [] [] (some [.field none "kind" [] [] none])

/-- A query for the kinds of types, `query Q { __schema { types { kind } } }`. -/
def kindDocuments : List Document := [⟨[.operation
  { name? := some "Q", selections := [.field none "__schema" [] [] (some [kindsOfTypes])] }]⟩]

/-- The kind of a type has a class of its own, which no part of a module declares. -/
theorem kind_unknown :
    let s := Schema.ofDocument numberDocument
    let d := Document.concat kindDocuments
    let context : Client.Context := ⟨Client.headRegistry {} none, "", ""⟩
    Schema.build numberDocument = .ok s ∧ ∃ text w types operations hs w₁,
      (combinedText Generator.clientSet s d {} "sdk.py").run [] = .ok text w ∧
      SchemaTypes.generate s {} = .ok types ∧
      (OperationTypes.generate s d {}).run [] = .ok operations w₁ ∧
      Client.contextOf {} none = .ok context ∧ (Client.planOf s d {} context).helpers = .ok hs ∧
      let parts := clientParts "generated" .text types operations context hs
      text = Part.combine parts ∧ "__TypeKind" ∈ referencesOf types operations ∧
      ¬ Known (Part.joined parts).block
        (declaredBy types operations ++ Client.Prelude.names ++ hs.flatMap (·.names))
        "__TypeKind" := by
  intro s d context
  have hbuild : Schema.build numberDocument = .ok s := by rfl
  have hkind :
      Response.Asks ⟨s, fragmentsOf d⟩ (s.type? "__Type") [.field none "kind" [] [] none] _ :=
    .leaf (by decide) rfl .nil
  have htypes : Response.Asks ⟨s, fragmentsOf d⟩ (s.type? "__Schema") [kindsOfTypes] _ :=
    .node (by decide) rfl hkind .nil
  have hf : Response.Shaped ⟨s, fragmentsOf d⟩ d.definitions _ :=
    .cons ⟨_, .node (by decide) rfl htypes .nil, rfl⟩ .nil
  obtain ⟨types, hs, w₁, w₂, ht, hoperations, hh, hrun⟩ := exists_combinedText
    (show Naming.packageOf "sdk.py" = .ok "generated" by rfl)
    (show (SchemaTypes.generate s {}).toOption.isSome by decide +kernel) hf
    (show Client.contextOf {} none = .ok context by rfl) (by decide) []
  refine ⟨hbuild, _, w₂, types, _, hs, w₁, hrun, ht, hoperations, rfl, hh, rfl,
    promised_subset_referencesOf ht ?_, ?_⟩
  · decide +kernel
  · have hflag : Registry.checkingFlag.localName ≠ "__TypeKind" := by
      decide
    refine not_known (by decide) hflag ?_ ?_
    · have htypes : ∀ types ∈ (SchemaTypes.generate s {}).toOption,
          ∀ i ∈ types.imports.imports, ∀ x ∈ i.bindings, x.name ≠ "__TypeKind" := by
        decide +kernel
      simp only [clientParts, List.forall_mem_cons]
      refine ⟨htypes types (by rw [ht]; rfl), ?_, ?_, List.forall_mem_nil _⟩
      · decide +kernel
      · change ∀ i ∈ (Client.headRegistry {} none).imports, ∀ x ∈ i.bindings, x.name ≠ "__TypeKind"
        decide
    · rw [declaredBy, SchemaTypes.names_generate ht, Client.names_helpersFrom hh]
      decide +kernel

end Graphwright
