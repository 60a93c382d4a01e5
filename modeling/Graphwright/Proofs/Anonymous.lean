import Graphwright.Proofs.Client.FirstUse
import Graphwright.Proofs.Together

/-!
# Operations without a name

A generator that reads operations looks at those without a name as well: what they select has to
exist, and what they spread is remembered for the operations behind them. Still nothing of them is
left in what it makes (`anonymous_invisible`): from the same documents without them it makes the
same part, and all it says about them is one warning for each, in the order of the documents.

* `Shaped.withoutAnonymous`: the shapes of definitions are those of the definitions without
  anonymous operations.
* `warnings_shapesFrom`: the warnings of a run over definitions are in step with its anonymous
  operations, whatever has been remembered.
-/
namespace Graphwright

open Graphwright.Document Graphwright.Module
open OperationTypes (pairSchema pairType pair ofPair)

/-! ## Documents without them -/

namespace Document

def Definition.isAnonymous : Definition → Bool
  | .operation o => o.name?.isNone
  | _ => false

theorem exists_of_isAnonymous {x : Definition} (h : x.isAnonymous) :
    ∃ o : Operation, x = .operation o ∧ o.name? = none := by
  cases x with
  | operation o => exact ⟨o, rfl, Option.isNone_iff_eq_none.mp h⟩
  | _ => cases h

end Document

def Document.withoutAnonymous (d : Document) : Document := ⟨d.definitions.filter (!·.isAnonymous)⟩

/-- Leaving anonymous operations out of each document is leaving them out of all of them
together. -/
theorem Document.concat_withoutAnonymous (ds : List Document) :
    Document.concat (ds.map Document.withoutAnonymous) = (Document.concat ds).withoutAnonymous := by
  simp only [Document.concat, Document.withoutAnonymous, List.flatMap_map, List.filter_flatMap]

/-- What anonymous operations contribute nothing to is made of the rest of the document. -/
theorem Document.flatMap_withoutAnonymous (d : Document) {α : Type} {f : Definition → List α}
    (h : ∀ x, x.isAnonymous → f x = []) :
    d.withoutAnonymous.definitions.flatMap f = d.definitions.flatMap f := by
  unfold Document.withoutAnonymous
  induction d.definitions with
  | nil => rfl
  | cons x rest ih =>
    cases hx : x.isAnonymous with
    | true =>
      rw [List.filter_cons_of_neg (by simp [hx]), ih, List.flatMap_cons, h x hx, List.nil_append]
    | false => rw [List.filter_cons_of_pos (by simp [hx]), List.flatMap_cons, ih, List.flatMap_cons]

theorem Document.filterMap_withoutAnonymous (d : Document) {α : Type} {f : Definition → Option α}
    (h : ∀ x, x.isAnonymous → f x = none) :
    d.withoutAnonymous.definitions.filterMap f = d.definitions.filterMap f := by
  rw [List.filterMap_eq_flatMap_toList, List.filterMap_eq_flatMap_toList]
  exact d.flatMap_withoutAnonymous fun x hx => by rw [h x hx]; rfl

theorem fragmentsOf_withoutAnonymous (d : Document) :
    fragmentsOf d.withoutAnonymous = fragmentsOf d := by
  unfold fragmentsOf
  rw [List.filterMap_reverse, List.filterMap_reverse, d.filterMap_withoutAnonymous]
  intro x hx
  obtain ⟨o, rfl, -⟩ := exists_of_isAnonymous hx
  rfl

theorem Client.namedOperations_withoutAnonymous (d : Document) :
    Client.namedOperations d.withoutAnonymous = Client.namedOperations d := by
  refine d.filterMap_withoutAnonymous fun x hx => ?_
  obtain ⟨o, rfl, hname⟩ := exists_of_isAnonymous hx
  simp [hname]

theorem OperationTypes.reservedNames_withoutAnonymous (dedupe : Bool) (d : Document) :
    OperationTypes.reservedNames dedupe d.withoutAnonymous =
      OperationTypes.reservedNames dedupe d := by
  refine d.flatMap_withoutAnonymous fun x hx => ?_
  obtain ⟨o, rfl, hname⟩ := exists_of_isAnonymous hx
  simp [hname]

theorem Client.anonymousOperations_withoutAnonymous (d : Document) :
    Client.anonymousOperations d.withoutAnonymous = [] := by
  refine List.filterMap_eq_nil_iff.mpr fun x hx => ?_
  have hnamed : x.isAnonymous = false := by simpa using (List.mem_filter.mp hx).2
  cases x with
  | operation o =>
    have hname : o.name?.isNone = false := hnamed
    exact if_neg (by simp [hname])
  | _ => rfl

/-- The anonymous operations of several documents are those of each, in order. -/
theorem Client.anonymousOperations_concat (ds : List Document) :
    Client.anonymousOperations (Document.concat ds) = ds.flatMap Client.anonymousOperations :=
  List.filterMap_flatMap ..

/-! ## Operation types -/

namespace Response

/-- **Shapes.** Anonymous operations have none. -/
theorem Shaped.withoutAnonymous {env : Env} {ds : List Definition} {found : List Shape}
    (h : Shaped env ds found) : Shaped env (ds.filter (!·.isAnonymous)) found := by
  induction h with
  | nil => exact .nil
  | @cons d fields ds found hf _ ih =>
    cases hd : d.isAnonymous with
    | true =>
      obtain ⟨o, rfl, hname⟩ := exists_of_isAnonymous hd
      rw [List.filter_cons_of_neg (by simp [hd])]
      simpa [shapeOf?, hname] using ih
    | false =>
      rw [List.filter_cons_of_pos (by simp [hd])]
      exact .cons hf ih

/-- **Warnings.** A run over definitions warns of their anonymous operations, one after another. -/
theorem warnings_shapesFrom {env : Env} {ds : List Definition} {st : Session} {w w' : List Warning}
    {found : List Shape} (h : (shapesFrom env st ds).run w = .ok found w') :
    w' = w ++ (Client.anonymousOperations ⟨ds⟩).map (⟨.operationTypes, ·⟩) := by
  induction ds generalizing st w found with
  | nil =>
    cases h
    simp [Client.anonymousOperations]
  | cons d rest ih =>
    rw [shapesFrom] at h
    cases hr : (fieldsOf env d).run st with
    | error e st' =>
      rw [hr] at h
      cases h
    | ok fields st' =>
      rw [hr] at h
      -- whatever the definition adds to the shapes, the warnings come from those behind it
      have hrest {act : List Shape → List Shape}
          (h : (do return act (← shapesFrom env st' rest) : Run (List Shape)).run w =
            .ok found w') :
          w' = w ++ (Client.anonymousOperations ⟨rest⟩).map (⟨.operationTypes, ·⟩) := by
        obtain ⟨more, _, hmore, h⟩ := run_bind_ok.mp h
        cases h
        exact ih hmore
      cases d with
      | operation o =>
        cases hname : o.name? with
        | some name =>
          simp only [hname] at h
          rw [hrest h]
          simp [Client.anonymousOperations, hname]
        | none =>
          simp only [hname] at h
          obtain ⟨_, w₁, hwarn, h⟩ := run_bind_ok.mp h
          cases hwarn
          rw [ih h]
          simp [Client.anonymousOperations, hname]
      | fragment f => exact hrest h
      | _ => exact ih h

end Response

namespace OperationTypes

theorem resultOf_withoutAnonymous (s : Schema) (d : Document) (o : Options)
    (found : List Response.Shape) :
    resultOf s d.withoutAnonymous o found = resultOf s d o found := by
  simp only [resultOf, blocksOf, reservedNames_withoutAnonymous]

/-- The warnings of operation types are those of the run over their definitions. -/
theorem warnings_generate {s : Schema} {d : Document} {o : Options} {w w' : List Warning}
    {r : Result} (h : (generate s d o).run w = .ok r w') :
    w' = w ++ (Client.anonymousOperations d).map (⟨.operationTypes, ·⟩) := by
  rw [generate_run, Response.run_map] at h
  cases hr : (Response.shapes s d).run w with
  | ok found w₁ =>
    rw [hr] at h
    cases h
    exact Response.warnings_shapesFrom hr
  | error e w₁ =>
    rw [hr] at h
    cases h

theorem part_unnamed {s : Schema} {d : Document} {o : Options} {path : String} {w w₁ : List Warning}
    {p : Part} (h : (part s d o path).run w = .ok p w₁) :
    w₁ = w ++ (Client.anonymousOperations d).map (⟨.operationTypes, ·⟩) ∧
      ∀ v, (part s d.withoutAnonymous o path).run v = .ok p v := by
  obtain ⟨package, found, hpackage, hshaped, hgenerate, rfl⟩ := part_ok h
  refine ⟨warnings_generate hgenerate, fun v => ?_⟩
  have hrest :
      Response.Shaped ⟨s, fragmentsOf d.withoutAnonymous⟩ d.withoutAnonymous.definitions found := by
    rw [fragmentsOf_withoutAnonymous]
    exact hshaped.withoutAnonymous
  obtain ⟨v', hgenerate', hpart⟩ := part_of_shaped o hpackage hrest v
  have hv := warnings_generate hgenerate'
  rw [Client.anonymousOperations_withoutAnonymous, List.map_nil, List.append_nil] at hv
  rwa [resultOf_withoutAnonymous, hv] at hpart

end OperationTypes

/-! ## Clients -/

namespace Client

theorem planOf_withoutAnonymous (s : Schema) (d : Document) (o : Options) (context : Context) :
    planOf s d.withoutAnonymous o context = planOf s d o context := by
  simp only [planOf, fragmentsOf_withoutAnonymous, namedOperations_withoutAnonymous]

theorem part_unnamed {s : Schema} {d : Document} {o : Options} {path : String} {w w₁ : List Warning}
    {p : Part} (h : (part s d o path).run w = .ok p w₁) :
    w₁ = w ++ (anonymousOperations d).map (⟨.client, ·⟩) ∧
      ∀ v, (part s d.withoutAnonymous o path).run v = .ok p v := by
  obtain ⟨package, context, hs, hpackage, hcontext, hhelpers, hp, hw⟩ := part_ok.mp h
  refine ⟨hw, fun v => part_ok.mpr ⟨package, context, hs, hpackage, hcontext, ?_, hp, ?_⟩⟩
  · rwa [planOf_withoutAnonymous]
  · rw [anonymousOperations_withoutAnonymous, List.map_nil, List.append_nil]

end Client

/-! ## Both -/

/-- The generator that leaves out anonymous operations. -/
def OperationReader.generator : OperationReader → Generator
  | operationTypes => .operationTypes
  | client => .client

/-- What is said of an anonymous operation before it is shown. -/
def OperationReader.notice : OperationReader → String
  | operationTypes =>
    "Anonymous GraphQL operation was ignored by the operation types generator, " ++
      "please make sure to name your operation:\n"
  | client =>
    "Anonymous GraphQL operation was ignored by the client generator, " ++
      "please make sure to name your operation:\n"

theorem message_eq (reader : OperationReader) (a : Operation) :
    (Warning.mk reader a).message = reader.notice ++ Print.operation a := by
  unfold Warning.message
  cases reader <;> rfl

/-- **Anonymous operations.** Let the operation types, or a client, be generated from documents. The
warnings are those of the anonymous operations of the documents, one for each in order, and each
shows its operation as it was written. From the documents without these operations the same part is
generated, hence the same text, and there are no warnings. -/
theorem anonymous_invisible (reader : OperationReader) (s : Schema) (ds : List Document)
    (o : Options) (path : String) (w w₁ : List Warning) (p : Part)
    (h : (reader.generator.part s (Document.concat ds) o path).run w = .ok p w₁) :
    w₁ = w ++ (ds.flatMap Client.anonymousOperations).map (⟨reader, ·⟩) ∧
      w₁.map (·.message) = w.map (·.message) ++
        (ds.flatMap Client.anonymousOperations).map (reader.notice ++ Print.operation ·) ∧
      ∀ v, (reader.generator.part s (Document.concat (ds.map Document.withoutAnonymous)) o path).run
        v = .ok p v := by
  have hboth : w₁ = w ++ (Client.anonymousOperations (Document.concat ds)).map (⟨reader, ·⟩) ∧
      ∀ v, (reader.generator.part s (Document.concat ds).withoutAnonymous o path).run v =
        .ok p v := by
    cases reader with
    | operationTypes => exact OperationTypes.part_unnamed h
    | client => exact Client.part_unnamed h
  obtain ⟨rfl, hrest⟩ := hboth
  rw [Client.anonymousOperations_concat, Document.concat_withoutAnonymous]
  refine ⟨rfl, ?_, hrest⟩
  rw [List.map_append, List.map_map]
  exact congrArg _ (List.map_congr_left fun a _ => message_eq reader a)

/-- Two documents with three operations, one of which has a name. The others ask for the pair in
different ways, one of them by the fragment that the first document needs. -/
def halfNamedDocuments : List Document := [
  ⟨[.operation { selections := [pair [] [.spread "F" []]] },
    .operation { name? := some "Q", selections := [pair [] [.spread "F" [], ofPair "y"]] }]⟩,
  ⟨[.fragment { name := "F", on := "A", selections := [ofPair "x"] },
    .operation { kind := .query, selections := [pair [] [ofPair "y"]] }]⟩]

theorem exists_part_halfNamed (reader : OperationReader) :
    ∃ p w, (reader.generator.part pairSchema (Document.concat halfNamedDocuments) {}
      "sdk.py").run [] = .ok p w := by
  let fs := fragmentsOf (Document.concat halfNamedDocuments)
  have hpackage : Naming.packageOf "sdk.py" = .ok "generated" := by rfl
  have hF : fs.lookup "F" = some { name := "F", on := "A", selections := [ofPair "x"] } := by rfl
  cases reader with
  | operationTypes =>
    have hx : Response.Asks ⟨pairSchema, fs⟩ (some pairType) [ofPair "x"] _ :=
      .leaf (by decide) rfl .nil
    have hy : Response.Asks ⟨pairSchema, fs⟩ (some pairType) [ofPair "y"] _ :=
      .leaf (by decide) rfl .nil
    have hshaped :
        Response.Shaped ⟨pairSchema, fs⟩ (Document.concat halfNamedDocuments).definitions _ :=
      .cons ⟨_, .node (by decide) rfl (.spread hF rfl hx .nil) .nil, rfl⟩
        (.cons ⟨_, .node (by decide) rfl (.spread hF rfl hx hy) .nil, rfl⟩
          (.cons ⟨_, hx, rfl⟩ (.cons ⟨_, .node (by decide) rfl hy .nil, rfl⟩ .nil)))
    obtain ⟨w, -, hp⟩ := OperationTypes.part_of_shaped {} hpackage hshaped []
    exact ⟨_, w, hp⟩
  | client =>
    have hreach : reachableFrom fs [] ["F"] = .ok ["F"] :=
      calc
        reachableFrom fs [] ["F"]
        _ = reachableFrom fs ["F"] [] := reachableFrom_new (by decide) hF
        _ = .ok ["F"] := by rw [reachableFrom]
    have hdocument : ∀ op ∈ Client.namedOperations (Document.concat halfNamedDocuments),
        ∃ document?, Client.documentOf
          ⟨⟨Client.headRegistry {} none, "", ""⟩, .text, false, fs⟩ op = .ok document? := by
      intro op hop
      obtain rfl := List.mem_singleton.mp hop
      have hspreads : spreads [pair [] [.spread "F" [], ofPair "y"]] = ["F"] := by rfl
      rw [Client.documentOf, if_neg (by decide), Client.NamedOperation.documentText,
        Client.NamedOperation.fragments, reachable]
      simp only [hspreads, hreach]
      exact ⟨_, rfl⟩
    obtain ⟨hs, hh⟩ := Client.exists_helpersFrom hdocument _
    exact ⟨_, _, Client.part_ok.mpr ⟨"generated", _, hs, hpackage, rfl, hh, rfl, rfl⟩⟩

theorem anonymous_invisible_halfNamed :
    let anonymous := halfNamedDocuments.flatMap Client.anonymousOperations
    anonymous.map Print.operation =
      ["\x7b\n  a \x7b\n    ...F\n  \x7d\n\x7d", "\x7b\n  a \x7b\n    y\n  \x7d\n\x7d"] ∧
    ∀ reader : OperationReader, ∃ p,
      (reader.generator.part pairSchema (Document.concat halfNamedDocuments) {} "sdk.py").run [] =
        .ok p (anonymous.map (⟨reader, ·⟩)) ∧
      (reader.generator.part pairSchema
        (Document.concat (halfNamedDocuments.map Document.withoutAnonymous)) {}
        "sdk.py").run [] = .ok p [] := by
  intro anonymous
  refine ⟨by decide, fun reader => ?_⟩
  obtain ⟨p, w, hp⟩ := exists_part_halfNamed reader
  obtain ⟨rfl, -, hrest⟩ :=
    anonymous_invisible reader pairSchema halfNamedDocuments {} "sdk.py" [] w p hp
  exact ⟨p, hp, hrest []⟩

end Graphwright
