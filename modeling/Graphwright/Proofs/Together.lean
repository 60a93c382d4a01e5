import Graphwright.Generator
import Graphwright.Proofs.Client.Helpers
import Graphwright.Proofs.Response.Beginnings
import Graphwright.Proofs.Schema.Declared

/-!
# Names in one module

A client with its models is one module made of three parts, each of which chooses names by itself.
The client knows the classes of the schema, the results and the variables of operations, and keeps
its helpers clear of them; operation types know the names of definitions only. Their names are told
apart by how they are made: all begin with the result of an operation or the model of a fragment, so
there is a word like `Query` in them.

* `combinedText_ok`: the parts of a module are made one after another.
* `disjoint_of_keepsClear`: what keeps operation types apart from the other parts.
* `combined_parts_apart`: operation types never meet the head of a client or a constant, and a
  helper never meets a result or variables; under a condition on the schema and the documents
  nothing meets.
* `parts_meet`: without it a type of the schema, or a helper, may be called like an operation type.
-/
namespace Graphwright

open Graphwright.Document Graphwright.Module
open OperationTypes (Begins HasWord pairSchema pairType pair ofPair)
open Naming.Allocator (Extends)

/-! ## Constants and helpers -/

theorem not_isLower_constant {o : Client.NamedOperation} {reference : String}
    (h : Extends o.constant reference) : ∀ c ∈ reference.toList, ¬ c.isLower := by
  obtain ⟨digits, hdigits, h⟩ := h
  intro c hc
  rw [h, Client.NamedOperation.constant, Naming.documentConstant, String.toList_append,
    Naming.upperCase, Text.onChars, String.toList_ofList] at hc
  rcases List.mem_append.mp hc with hc | hc
  · rcases List.mem_append.mp hc with hc | hc
    · exact Naming.not_isLower_upper hc
    · have hword : "_DOCUMENT".toList.all (!·.isLower) := by
        decide
      simpa using List.all_eq_true.mp hword c hc
  · exact Naming.not_isLower_of_isDigit (hdigits c hc)

/-- What ends in a small letter and begins a name with other characters behind it begins the
name. -/
theorem prefix_of_prefix_append {cs ds tail : List Char} (h : cs <+: ds ++ tail)
    (hlast : ∃ c, cs.getLast? = some c ∧ c.isLower) (htail : ∀ c ∈ tail, ¬ c.isLower) :
    cs <+: ds := by
  rcases List.prefix_or_prefix_of_prefix h (List.prefix_append ds tail) with h' | ⟨more, rfl⟩
  · exact h'
  · obtain ⟨c, hc, hlower⟩ := hlast
    have hmore : more <+: tail := (List.prefix_append_right_inj ds).mp h
    rw [List.getLast?_append] at hc
    cases hm : more.getLast? with
    | none => simp [List.getLast?_eq_none_iff.mp hm]
    | some d =>
      obtain rfl : d = c := by simpa [hm] using hc
      exact absurd hlower (htail d (hmore.subset (List.mem_of_getLast? hm)))

/-- A helper is called like its operation, with an underscore behind a keyword and perhaps a number.
So a name for an operation type that the one begins with, the other does. -/
theorem begins_of_helper {dedupe : Bool} {d : Document} {r name helper : String}
    (hr : r ∈ OperationTypes.reservedNames dedupe d)
    (h : Extends (Naming.safeIdentifier name) helper) (hb : Begins r helper) : Begins r name := by
  obtain ⟨digits, hdigits, h⟩ := h
  unfold OperationTypes.Begins at hb ⊢
  rw [h] at hb
  have hlast := OperationTypes.exists_last_isLower hr
  have hsafe := prefix_of_prefix_append hb hlast fun c hc =>
    Naming.not_isLower_of_isDigit (hdigits c hc)
  unfold Naming.safeIdentifier at hsafe
  split at hsafe
  · rw [String.toList_append] at hsafe
    refine prefix_of_prefix_append hsafe hlast fun c hc => ?_
    rw [List.mem_singleton.mp hc]
    decide
  · exact hsafe

/-! ## The module of a client -/

theorem combinedText_ok {s : Schema} {d : Document} {o : Options} {path text : String}
    {w w' : List Warning} :
    (combinedText Generator.clientSet s d o path).run w = .ok text w' ↔ ∃ p q r w₁,
      SchemaTypes.part s o path = .ok p ∧ (OperationTypes.part s d o path).run w = .ok q w₁ ∧
        (Client.part s d o path).run w₁ = .ok r w' ∧ text = Part.combine [p, q, r] := by
  unfold combinedText
  rw [← bind_pure_comp, run_bind_ok]
  simp only [Generator.clientSet, List.mapM_cons, List.mapM_nil, Generator.part, run_bind_ok,
    run_lift_ok, EStateM.run_pure]
  constructor
  · rintro ⟨parts, _, ⟨p, _, ⟨hp, rfl⟩, _, _,
      ⟨q, w₁, hq, _, _, ⟨r, w₂, hr, _, _, h₀, h₁⟩, h₂⟩, h₃⟩, h⟩
    cases h₀
    cases h₁
    cases h₂
    cases h₃
    cases h
    exact ⟨p, q, r, w₁, hp, hq, hr, rfl⟩
  · rintro ⟨p, q, r, w₁, hp, hq, hr, rfl⟩
    refine ⟨[p, q, r], w', ⟨p, w, ⟨hp, rfl⟩, [q, r], w', ?_, rfl⟩, rfl⟩
    exact ⟨q, w₁, hq, [r], w', ⟨r, w', hr, [], w', rfl, rfl⟩, rfl⟩

def clientText (package : String) (mode : DocumentMode) (types : SchemaTypes.Result)
    (operations : OperationTypes.Result) (context : Client.Context) (hs : List Client.Helper) :
    String :=
  Part.combine [SchemaTypes.partOf package types, OperationTypes.partOf package operations,
    Client.partOf package mode context hs]

/-- The parts of such a text are made by themselves, for one package. -/
theorem eq_clientText {s : Schema} {d : Document} {o : Options} {path text : String}
    {w w' : List Warning} (h : (combinedText Generator.clientSet s d o path).run w = .ok text w') :
    ∃ package types found context hs w₁, SchemaTypes.generate s o = .ok types ∧
      Response.Shaped ⟨s, fragmentsOf d⟩ d.definitions found ∧
      (OperationTypes.generate s d o).run w = .ok (OperationTypes.resultOf s d o found) w₁ ∧
      Client.contextOf o none = .ok context ∧ (Client.planOf s d o context).helpers = .ok hs ∧
      text = clientText package o.documentMode types
        (OperationTypes.resultOf s d o found) context hs := by
  obtain ⟨p, q, r, w₁, hp, hq, hr, rfl⟩ := combinedText_ok.mp h
  obtain ⟨package, types, hpackage, htypes, rfl⟩ := SchemaTypes.part_ok.mp hp
  obtain ⟨package', found, hpackage', hshaped, hoperations, rfl⟩ := OperationTypes.part_ok hq
  obtain ⟨package'', context, hs, hpackage'', hcontext, hhelpers, rfl, -⟩ := Client.part_ok.mp hr
  obtain rfl : package = package' := Except.ok.inj (hpackage.symm.trans hpackage')
  obtain rfl : package = package'' := Except.ok.inj (hpackage.symm.trans hpackage'')
  exact ⟨package, types, found, context, hs, w₁, htypes, hshaped, hoperations, hcontext,
    hhelpers, rfl⟩

/-- A schema that can be declared and documents with shapes have a client, if no operation spreads a
fragment. -/
theorem exists_combinedText {s : Schema} {d : Document} {o : Options} {path package : String}
    {found : List Response.Shape} {context : Client.Context}
    (hp : Naming.packageOf path = .ok package) (ht : (SchemaTypes.generate s o).toOption.isSome)
    (hf : Response.Shaped ⟨s, fragmentsOf d⟩ d.definitions found)
    (hc : Client.contextOf o none = .ok context)
    (hspreads : ∀ op ∈ Client.namedOperations d, spreads op.operation.selections = [])
    (w : List Warning) :
    ∃ types hs w₁ w₂, SchemaTypes.generate s o = .ok types ∧
      (OperationTypes.generate s d o).run w = .ok (OperationTypes.resultOf s d o found) w₁ ∧
      (Client.planOf s d o context).helpers = .ok hs ∧
      (combinedText Generator.clientSet s d o path).run w =
        .ok (clientText package o.documentMode types
        (OperationTypes.resultOf s d o found) context hs) w₂ := by
  obtain ⟨types, htypes⟩ := exists_ok_of_isSome ht
  obtain ⟨w₁, hgenerate, hpart⟩ := OperationTypes.part_of_shaped o hp hf w
  obtain ⟨hs, hh⟩ := Client.exists_helpers_of_spreads_nil s o context hspreads
  have hfirst := SchemaTypes.part_ok.mpr ⟨package, types, hp, htypes, rfl⟩
  have hlast : (Client.part s d o path).run w₁ = .ok _ _ := Client.part_ok.mpr
    ⟨package, context, hs, hp, hc, hh, rfl, rfl⟩
  exact ⟨types, hs, w₁, _, htypes, hgenerate, hh,
    combinedText_ok.mpr ⟨_, _, _, w₁, hfirst, hpart, hlast, rfl⟩⟩

/-- No class of the schema and no operation is called like one of the types of operations and
fragments, nor with one of their names in front. -/
def KeepsClear (s : Schema) (d : Document) (dedupe : Bool) : Prop :=
  ∀ r ∈ OperationTypes.reservedNames dedupe d,
    (∀ c ∈ s.types.flatMap SchemaTypes.classesOf, ¬ Begins r c) ∧
      ∀ op ∈ Client.namedOperations d, ¬ Begins r op.name

instance (s : Schema) (d : Document) (dedupe : Bool) : Decidable (KeepsClear s d dedupe) :=
  inferInstanceAs (Decidable (∀ r ∈ OperationTypes.reservedNames dedupe d,
    (∀ c ∈ s.types.flatMap SchemaTypes.classesOf, ¬ Begins r c) ∧
      ∀ op ∈ Client.namedOperations d, ¬ Begins r op.name))

theorem not_mem_prelude {n : String} (h : HasWord n) : n ∉ Client.Prelude.names := by
  have hall : ∀ p ∈ Client.Prelude.names, ∀ r ∈ OperationTypes.Role.all, r ≠ .variables →
      ¬ r.word.toList <:+: p.toList := by
    decide +kernel
  obtain ⟨r, hr, hne, hword⟩ := h
  exact fun hn => hall n hn r hr hne hword

section Parts

variable {s : Schema} {d : Document} {o : Options} {found : List Response.Shape}
    {context : Client.Context} {hs : List Client.Helper}

theorem hasWord_of_mem_names (h : Response.Shaped ⟨s, fragmentsOf d⟩ d.definitions found)
    {n : String} (hn : n ∈ (OperationTypes.resultOf s d o found).blocks.flatMap (·.names)) :
    ∃ r ∈ OperationTypes.reservedNames o.dedupeSuffix d, Begins r n ∧ HasWord n := by
  obtain ⟨r, hr, hb⟩ := OperationTypes.begins_of_mem_names o h n hn
  exact ⟨r, hr, hb, OperationTypes.hasWord_of_begins (OperationTypes.hasWord_of_reserved r hr).1 hb⟩

/-- Constants have no small letters, which the words in names of operation types do. -/
theorem ne_reference (hh : (Client.planOf s d o context).helpers = .ok hs) {n : String}
    (hn : HasWord n) : ∀ x ∈ hs, x.document?.isSome → n ≠ x.reference := by
  rintro x hx hsome rfl
  obtain ⟨c, hc, hlower⟩ := hn.exists_isLower
  exact not_isLower_constant ((Client.extends_helpersFrom hh x hx).2 hsome) c hc hlower

/-- Names of operation types are none of other parts if a schema and documents keep clear of
them. -/
theorem disjoint_of_keepsClear (hs' : Response.Shaped ⟨s, fragmentsOf d⟩ d.definitions found)
    (hh : (Client.planOf s d o context).helpers = .ok hs) (hclear : KeepsClear s d o.dedupeSuffix) :
    List.Disjoint ((OperationTypes.resultOf s d o found).blocks.flatMap (·.names))
      (s.types.flatMap SchemaTypes.classesOf ++ Client.Prelude.names ++ hs.flatMap (·.names)) := by
  intro n hn hother
  obtain ⟨r, hr, hb, hword⟩ := hasWord_of_mem_names hs' hn
  obtain ⟨hclasses, hops⟩ := hclear r hr
  rcases List.mem_append.mp hother with hother | hother
  · rcases List.mem_append.mp hother with hclass | hprelude
    · exact hclasses n hclass hb
    · exact not_mem_prelude hword hprelude
  · obtain ⟨x, hx, hnames⟩ := List.mem_flatMap.mp hother
    have hoperations : hs.map (·.operation) = Client.namedOperations d :=
      Client.operations_helpersFrom hh
    have hop : x.operation ∈ Client.namedOperations d := hoperations ▸ List.mem_map_of_mem hx
    rcases List.mem_append.mp hnames with hreference | hname
    · split at hreference
      · rename_i hsome
        exact ne_reference hh hword x hx hsome (List.mem_singleton.mp hreference)
      · cases hreference
    · rw [List.mem_singleton.mp hname] at hb
      exact hops x.operation hop (begins_of_helper hr (Client.extends_helpersFrom hh x hx).1 hb)

end Parts

/-- **Parts.** Let the text of a module be made of schema types, operation types and a client that
refers to them in the module. No name of an operation type, those of nested models included, is one
of the head or of a constant, and no helper is called like the result or the variables of an
operation. If moreover the schema and the documents keep clear of the types of operations and
fragments, the names of operation types are none of those that the other parts declare. -/
theorem combined_parts_apart (s : Schema) (ds : List Document) (o : Options) (path text : String)
    (w w₁ : List Warning)
    (h : (combinedText Generator.clientSet s (Document.concat ds) o path).run w = .ok text w₁)
    (hlocal : o.operationTypesFrom?.filter (· ≠ "") = none) :
    ∃ package types operations context hs w₂,
      SchemaTypes.generate s o = .ok types ∧
      (OperationTypes.generate s (Document.concat ds) o).run w = .ok operations w₂ ∧
      Client.contextOf o none = .ok context ∧
      (Client.planOf s (Document.concat ds) o context).helpers = .ok hs ∧
      text = clientText package o.documentMode types operations context hs ∧
      (∀ n ∈ operations.blocks.flatMap (·.names),
        n ∉ Client.Prelude.names ∧ ∀ x ∈ hs, x.document?.isSome → n ≠ x.reference) ∧
      (∀ x ∈ hs, ∀ op ∈ Client.namedOperations (Document.concat ds),
        x.name ≠ op.resultType o.dedupeSuffix ∧ x.name ≠ op.variablesType o.dedupeSuffix) ∧
      (KeepsClear s (Document.concat ds) o.dedupeSuffix →
        List.Disjoint (operations.blocks.flatMap (·.names))
          (types.declarations.flatMap (·.names) ++ Client.Prelude.names ++
            hs.flatMap (·.names))) := by
  obtain ⟨package, types, found, context, hs, w₂, htypes, hshaped, hoperations, hcontext,
      hhelpers, rfl⟩ :=
    eq_clientText h
  refine ⟨package, types, _, context, hs, w₂, htypes, hoperations, hcontext, hhelpers, rfl,
    fun n hn => ?_, fun x hx => ?_, fun hclear => ?_⟩
  · obtain ⟨r, -, -, hword⟩ := hasWord_of_mem_names hshaped hn
    exact ⟨not_mem_prelude hword, ne_reference hhelpers hword⟩
  · have hname : x.name ∈ hs.flatMap (·.names) :=
      List.mem_flatMap.mpr ⟨x, hx, List.mem_append_right _ List.mem_cons_self⟩
    exact (Client.names_clear hcontext hhelpers x.name hname).2.2.2 hlocal
  · rw [SchemaTypes.names_generate htypes]
    exact disjoint_of_keepsClear hshaped hhelpers hclear

/-- A query for the pair, and a fragment on it. -/
def pairDocuments : List Document := [
  ⟨[.operation { name? := some "Q", selections := [pair [] [ofPair "x"]] }]⟩,
  ⟨[.fragment { name := "F", on := "A", selections := [ofPair "y"] }]⟩]

theorem combined_parts_apart_pairDocuments :
    let d := Document.concat pairDocuments
    KeepsClear pairSchema d false ∧ ∃ text w types operations context hs w₁,
      (combinedText Generator.clientSet pairSchema d {} "sdk.py").run [] = .ok text w ∧
      SchemaTypes.generate pairSchema {} = .ok types ∧
      (OperationTypes.generate pairSchema d {}).run [] = .ok operations w₁ ∧
      (Client.planOf pairSchema d {} context).helpers = .ok hs ∧
      operations.blocks.flatMap (·.names) = ["QQueryVariables", "QQueryA", "QQuery", "FFragment"] ∧
      List.Disjoint (operations.blocks.flatMap (·.names))
        (types.declarations.flatMap (·.names) ++ Client.Prelude.names ++ hs.flatMap (·.names)) := by
  intro d
  have hclear : KeepsClear pairSchema d false := by
    decide +kernel
  have hx : Response.Asks ⟨pairSchema, fragmentsOf d⟩ (some pairType) [ofPair "x"] _ :=
    .leaf (by decide) rfl .nil
  have hy : Response.Asks ⟨pairSchema, fragmentsOf d⟩ (some pairType) [ofPair "y"] _ :=
    .leaf (by decide) rfl .nil
  have hf : Response.Shaped ⟨pairSchema, fragmentsOf d⟩ d.definitions _ :=
    .cons ⟨_, .node (by decide) rfl hx .nil, rfl⟩ (.cons ⟨_, hy, rfl⟩ .nil)
  obtain ⟨types, hs, w₁, w₂, ht, hoperations, hh, hrun⟩ := exists_combinedText
    (show Naming.packageOf "sdk.py" = .ok "generated" by rfl)
    (show (SchemaTypes.generate pairSchema {}).toOption.isSome by decide +kernel) hf
    (show Client.contextOf {} none = .ok ⟨Client.headRegistry {} none, "", ""⟩ by rfl)
    (by decide) []
  obtain ⟨package, types, operations, context, hs, w₁', ht, hoperations', -, hh, -, -, -, happly⟩ :=
    combined_parts_apart pairSchema pairDocuments {} "sdk.py" _ [] _ hrun rfl
  obtain ⟨rfl, rfl⟩ := (EStateM.Result.ok.injEq ..).mp (hoperations.symm.trans hoperations')
  exact ⟨hclear, _, _, types, _, context, hs, _, hrun, ht, hoperations, hh, by decide +kernel,
    happly hclear⟩

/-- The schema of a pair that is called like the model below a query `Q`. -/
def meetingSchema : Schema where
  roots := [(.query, "Query")]
  types := [{ name := "Query", body := .object [] [{ name := "a", type := .named "QQueryA" }] },
    { name := "QQueryA", body := .object [] [{ name := "x", type := .nonNull (.named "Int") }] }]

/-- The query `Q`, and a query that is called like the model of a fragment. -/
def meetingDocuments : List Document :=
  [⟨[.operation { name? := some "Q", selections := [pair [] [ofPair "x"]] },
    .operation { name? := some "FFragment", selections := [pair [] [ofPair "x"]] },
    .fragment { name := "F", on := "QQueryA", selections := [ofPair "x"] }]⟩]

/-- A type of the schema and a helper may be called like operation types. -/
theorem parts_meet :
    let d := Document.concat meetingDocuments
    ∃ text w types operations context hs w₁,
      (combinedText Generator.clientSet meetingSchema d {} "sdk.py").run [] = .ok text w ∧
      SchemaTypes.generate meetingSchema {} = .ok types ∧
      (OperationTypes.generate meetingSchema d {}).run [] = .ok operations w₁ ∧
      (Client.planOf meetingSchema d {} context).helpers = .ok hs ∧
      text = clientText "generated" .text types operations context hs ∧
      ("QQueryA" ∈ operations.blocks.flatMap (·.names) ∧
        "QQueryA" ∈ types.declarations.flatMap (·.names)) ∧
      "FFragment" ∈ operations.blocks.flatMap (·.names) ∧ "FFragment" ∈ hs.flatMap (·.names) := by
  intro d
  have hx :
      Response.Asks ⟨meetingSchema, fragmentsOf d⟩ (meetingSchema.type? "QQueryA") [ofPair "x"] _ :=
    .leaf (by decide) rfl .nil
  have ha :
      Response.Asks ⟨meetingSchema, fragmentsOf d⟩
      (meetingSchema.type? "Query") [pair [] [ofPair "x"]] _ :=
    .node (by decide) rfl hx .nil
  have hf : Response.Shaped ⟨meetingSchema, fragmentsOf d⟩ d.definitions _ :=
    .cons ⟨_, ha, rfl⟩ (.cons ⟨_, ha, rfl⟩ (.cons ⟨_, hx, rfl⟩ .nil))
  obtain ⟨types, hs, w₁, w₂, ht, hoperations, hh, hrun⟩ := exists_combinedText
    (show Naming.packageOf "sdk.py" = .ok "generated" by rfl)
    (show (SchemaTypes.generate meetingSchema {}).toOption.isSome by decide +kernel) hf
    (show Client.contextOf {} none = .ok ⟨Client.headRegistry {} none, "", ""⟩ by rfl)
    (by decide) []
  refine ⟨_, w₂, types, _, _, hs, w₁, hrun, ht, hoperations, hh, rfl, ⟨by decide +kernel, ?_⟩,
    by decide +kernel, ?_⟩
  · rw [SchemaTypes.names_generate ht]
    decide
  · rw [Client.names_helpersFrom hh]
    decide +kernel

end Graphwright
