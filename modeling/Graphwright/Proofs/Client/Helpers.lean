import Graphwright.Client.Helper
import Graphwright.Proofs.Naming.Fresh
import Graphwright.Proofs.Outcome

/-!
# Names in a client

A client asks one allocator for all its names, operation by operation: for a constant if the
document of the operation is put into the module, and then for the helper. What a client may not
redefine is reserved before, and that includes the types of operations whose helpers come later.

* `helpersFrom_cons_ok`: the helpers of operations are made one by one (`helperOf`), each from the
  names that the ones before it left in use.
* `names_helpersFrom`: they are named by one run of requests.
* `part_ok`: a client is the part that its plan describes.
* `part_names_fresh`: the constants and helpers of a client are new, and differ from each other.
-/
namespace Graphwright.Client

open Graphwright.Document Graphwright.Module
open Naming (Allocator)
open Naming.Allocator (Hands)

/-! ## One helper -/

/-- The document that a module holds for an operation; none if the module's documents are
elsewhere. -/
def documentOf (env : Env) (o : NamedOperation) : Except Error (Option String) :=
  if env.mode = .external then .ok none else some <$> o.documentText env.fragments

/-- How the document of an operation is referred to, and the names in use then. -/
def referenceOf (env : Env) (a : Allocator) (o : NamedOperation) :
    Option String → String × Allocator
  | none => (env.context.documentsQualifier ++ o.constant, a)
  | some _ => a.allocate o.constant

/-- The helper of an operation, and the names in use then. -/
def helperOf (env : Env) (a : Allocator) (o : NamedOperation) (document? : Option String) :
    Helper × Allocator :=
  let reference := referenceOf env a o document?
  let name := reference.2.allocate (Naming.safeIdentifier o.name)
  ({ operation := o, name := name.1, reference := reference.1, document?
     resultType := env.context.typesQualifier ++ o.resultType env.dedupe
     variablesType := env.context.typesQualifier ++ o.variablesType env.dedupe }, name.2)

variable {env : Env} {a : Allocator} {o : NamedOperation} {os : List NamedOperation}
    {hs : List Helper}

theorem isSome_documentOf {document? : Option String} (h : documentOf env o = .ok document?) :
    document?.isSome ↔ env.mode ≠ .external := by
  unfold documentOf at h
  by_cases hmode : env.mode = .external
  · rw [if_pos hmode] at h
    cases h
    simp [hmode]
  · rw [if_neg hmode, ← bind_pure_comp] at h
    obtain ⟨text, -, h⟩ := bind_eq_ok.mp h
    cases h
    simp [hmode]

theorem fragments_of_spreads_nil (fs : List (String × Fragment))
    (h : spreads o.operation.selections = []) : o.fragments fs = .ok [] := by
  unfold NamedOperation.fragments reachable
  rw [h, reachableFrom]
  rfl

theorem documentOf_of_spreads_nil (env : Env) (h : spreads o.operation.selections = []) :
    ∃ document?, documentOf env o = .ok document? := by
  unfold documentOf
  by_cases hmode : env.mode = .external
  · exact ⟨none, if_pos hmode⟩
  · rw [if_neg hmode, NamedOperation.documentText, fragments_of_spreads_nil _ h]
    exact ⟨_, rfl⟩

/-- The names that are asked for one operation. -/
def requests (mode : DocumentMode) (o : NamedOperation) : List String :=
  (if mode = .external then [] else [o.constant]) ++ [Naming.safeIdentifier o.name]

/-- A helper binds the names that are asked for it. -/
theorem allocateAll_requests {document? : Option String} (h : documentOf env o = .ok document?)
    (more : List String) :
    let first := helperOf env a o document?
    a.allocateAll (requests env.mode o ++ more) =
      (first.1.names ++ (first.2.allocateAll more).1, (first.2.allocateAll more).2) := by
  have hsome := isSome_documentOf h
  cases document? with
  | none =>
    have hmode : env.mode = .external := by simpa using hsome
    rw [requests, if_pos hmode]
    rfl
  | some text =>
    have hmode : env.mode ≠ .external := by simpa using hsome
    rw [requests, if_neg hmode]
    rfl

/-! ## All helpers -/

theorem helpersFrom_cons (env : Env) (a : Allocator) (o : NamedOperation)
    (os : List NamedOperation) :
    helpersFrom env a (o :: os) = do
      let document? ← documentOf env o
      let more ← helpersFrom env (helperOf env a o document?).2 os
      return (helperOf env a o document?).1 :: more := by
  rw [helpersFrom]
  unfold documentOf
  by_cases hmode : env.mode = .external
  · simp only [hmode, if_true, pure_bind]
    rfl
  · simp only [hmode, if_false]
    cases o.documentText env.fragments <;> rfl

theorem helpersFrom_cons_ok : helpersFrom env a (o :: os) = .ok hs ↔
    ∃ document? more, documentOf env o = .ok document? ∧
      helpersFrom env (helperOf env a o document?).2 os = .ok more ∧
      (helperOf env a o document?).1 :: more = hs := by
  rw [helpersFrom_cons, bind_eq_ok]
  simp only [bind_eq_ok, pure, Except.pure, Except.ok.injEq]
  grind

/-- Operations with documents have helpers, whatever names are in use. -/
theorem exists_helpersFrom (h : ∀ o ∈ os, ∃ document?, documentOf env o = .ok document?)
    (a : Allocator) : ∃ hs, helpersFrom env a os = .ok hs := by
  induction os generalizing a with
  | nil => exact ⟨[], rfl⟩
  | cons o os ih =>
    obtain ⟨document?, hd⟩ := h o List.mem_cons_self
    obtain ⟨more, hmore⟩ :=
      ih (fun o ho => h o (List.mem_cons_of_mem _ ho)) (helperOf env a o document?).2
    exact ⟨_, helpersFrom_cons_ok.mpr ⟨document?, more, hd, hmore, rfl⟩⟩

theorem operations_helpersFrom (h : helpersFrom env a os = .ok hs) : hs.map (·.operation) = os := by
  induction os generalizing a hs with
  | nil =>
    cases h
    rfl
  | cons o os ih =>
    obtain ⟨document?, more, -, hmore, rfl⟩ := helpersFrom_cons_ok.mp h
    rw [List.map_cons, ih hmore]
    rfl

theorem documentOf_helpersFrom (h : helpersFrom env a os = .ok hs) :
    ∀ x ∈ hs, documentOf env x.operation = .ok x.document? := by
  induction os generalizing a hs with
  | nil =>
    cases h
    simp
  | cons o os ih =>
    obtain ⟨document?, more, hd, hmore, rfl⟩ := helpersFrom_cons_ok.mp h
    intro x hx
    rcases List.mem_cons.mp hx with rfl | hx
    · exact hd
    · exact ih hmore x hx

theorem types_helpersFrom (h : helpersFrom env a os = .ok hs) : ∀ x ∈ hs,
    x.resultType = env.context.typesQualifier ++ x.operation.resultType env.dedupe ∧
      x.variablesType = env.context.typesQualifier ++ x.operation.variablesType env.dedupe := by
  induction os generalizing a hs with
  | nil =>
    cases h
    simp
  | cons o os ih =>
    obtain ⟨document?, more, -, hmore, rfl⟩ := helpersFrom_cons_ok.mp h
    intro x hx
    rcases List.mem_cons.mp hx with rfl | hx
    · exact ⟨rfl, rfl⟩
    · exact ih hmore x hx

theorem isSome_helpersFrom (h : helpersFrom env a os = .ok hs) :
    ∀ x ∈ hs, x.document?.isSome ↔ env.mode ≠ .external :=
  fun x hx => isSome_documentOf (documentOf_helpersFrom h x hx)

/-- Helpers and constants are called as was asked for, but for digits behind that. -/
theorem extends_helpersFrom (h : helpersFrom env a os = .ok hs) : ∀ x ∈ hs,
    Allocator.Extends (Naming.safeIdentifier x.operation.name) x.name ∧
      (x.document?.isSome → Allocator.Extends x.operation.constant x.reference) := by
  induction os generalizing a hs with
  | nil =>
    cases h
    simp
  | cons o os ih =>
    obtain ⟨document?, more, -, hmore, rfl⟩ := helpersFrom_cons_ok.mp h
    intro x hx
    rcases List.mem_cons.mp hx with rfl | hx
    · refine ⟨Allocator.extends_fresh _ _, fun hsome => ?_⟩
      obtain ⟨text, rfl⟩ := Option.isSome_iff_exists.mp hsome
      exact Allocator.extends_fresh a o.constant
    · exact ih hmore x hx

/-- **Requests.** All constants and helpers are named by one run of requests. -/
theorem names_helpersFrom (h : helpersFrom env a os = .ok hs) :
    hs.flatMap (·.names) = (a.allocateAll (os.flatMap (requests env.mode))).1 := by
  induction os generalizing a hs with
  | nil =>
    cases h
    rfl
  | cons o os ih =>
    obtain ⟨document?, more, hd, hmore, rfl⟩ := helpersFrom_cons_ok.mp h
    rw [List.flatMap_cons, List.flatMap_cons, allocateAll_requests hd, ih hmore]

theorem hands_helpersFrom (h : helpersFrom env a os = .ok hs) :
    ∃ b, Hands a (hs.flatMap (·.names)) b :=
  ⟨_, names_helpersFrom h ▸ Hands.allocateAll a _⟩

/-! ## Their texts -/

/-- The text assigns a value to the name, perhaps with a type hint. -/
def Assigns (name text : String) : Prop :=
  ∃ hint value, text = name ++ hint ++ " = " ++ value ∧
    (hint = "" ∨ ∃ type, hint = ": " ++ type)

theorem Assigns.append {name text : String} (h : Assigns name text) (more : String) :
    Assigns name (text ++ more) := by
  obtain ⟨hint, value, rfl, ha⟩ := h
  exact ⟨hint, value ++ more, String.append_assoc, ha⟩

/-- The texts of a helper assign to the names that it binds, one by one. -/
theorem blocks_assign (mode : DocumentMode) (h : Helper) :
    List.Forall₂ Assigns h.names (h.blocks mode) := by
  have hfirst : Assigns h.name (h.name ++ ": GraphQLOperation[" ++ h.variablesType ++ ", " ++
      h.resultType ++ "] = make_graphql_operation(") := by
    refine ⟨": GraphQLOperation[" ++ h.variablesType ++ ", " ++ h.resultType ++ "]",
      "make_graphql_operation(", ?_,
      .inr ⟨"GraphQLOperation[" ++ h.variablesType ++ ", " ++ h.resultType ++ "]", ?_⟩⟩
    · simp only [String.append_assoc]
      rfl
    · simp only [String.append_assoc]
      rfl
  unfold Helper.names Helper.blocks
  rw [String.intercalate_cons_cons, String.append_assoc]
  cases hd : h.document? with
  | none => exact .cons (hfirst.append _) .nil
  | some text =>
    exact .cons ⟨"", Helper.documentValue mode text, by simp, .inl rfl⟩
      (.cons (hfirst.append _) .nil)

theorem forall₂_assigns (mode : DocumentMode) (hs : List Helper) :
    List.Forall₂ Assigns (hs.flatMap (·.names)) (hs.flatMap (·.blocks mode)) := by
  induction hs with
  | nil => exact .nil
  | cons h hs ih =>
    rw [List.flatMap_cons, List.flatMap_cons]
    exact List.rel_append (blocks_assign mode h) ih

/-! ## Warnings -/

theorem run_warn (os : List Operation) (w : List Warning) :
    (forIn os PUnit.unit fun a _ => do
        Run.warn ⟨.client, a⟩
        pure (ForInStep.yield PUnit.unit)).run w = .ok PUnit.unit (w ++ os.map (⟨.client, ·⟩)) := by
  induction os generalizing w with
  | nil => simp
  | cons a os ih =>
    have hfirst : (Run.warn ⟨.client, a⟩).run w = .ok ⟨⟩ (w ++ [⟨.client, a⟩]) := rfl
    rw [List.forIn_cons, bind_assoc]
    simp only [pure_bind, EStateM.run_bind, hfirst, ih]
    simp

/-! ## A client -/

def planOf (s : Schema) (d : Document) (o : Options) (context : Context) : Plan where
  env := ⟨context, o.documentMode, o.dedupeSuffix, fragmentsOf d⟩
  reserved := reservedNames s context o.dedupeSuffix (namedOperations d)
  operations := namedOperations d

/-- The text of a client: the head of the module, and its helpers. -/
def textOf (mode : DocumentMode) (hs : List Helper) : String :=
  Prelude.text mode ++ String.join ((hs.flatMap (·.blocks mode)).map ("\n\n\n" ++ ·))

def partOf (package : String) (mode : DocumentMode) (context : Context) (hs : List Helper) :
    Part where
  header? := moduleDocstring "Generated GraphQL client." package
  imports := context.imports
  extras := [textOf mode hs]

theorem exists_helpers_of_spreads_nil (s : Schema) {d : Document} (o : Options) (context : Context)
    (h : ∀ op ∈ namedOperations d, spreads op.operation.selections = []) :
    ∃ hs, (planOf s d o context).helpers = .ok hs :=
  exists_helpersFrom (fun op hop => documentOf_of_spreads_nil _ (h op hop)) _

theorem text_eq_ok {c : Plan} {text : String} :
    c.text = .ok text ↔ ∃ hs, c.helpers = .ok hs ∧ textOf c.env.mode hs = text := by
  unfold Plan.text Plan.helpersText
  cases c.helpers with
  | ok hs => simp [bind, Except.bind, pure, Except.pure, textOf]
  | error e => simp [bind, Except.bind]

theorem run_collect_ok {s : Schema} {d : Document} {o : Options} {w w' : List Warning} {c : Plan} :
    (Plan.collect s d o).run w = .ok c w' ↔ ∃ context, contextOf o none = .ok context ∧
      c = planOf s d o context ∧ w' = w ++ (anonymousOperations d).map (⟨.client, ·⟩) := by
  unfold Plan.collect
  simp only [run_bind_ok, run_lift_ok, run_warn, EStateM.run_pure]
  constructor
  · rintro ⟨context, _, ⟨hc, rfl⟩, _, _, h, h'⟩
    cases h
    cases h'
    exact ⟨context, hc, rfl, rfl⟩
  · rintro ⟨context, hc, rfl, rfl⟩
    exact ⟨context, w, ⟨hc, rfl⟩, _, _, rfl, rfl⟩

/-- **Outcome.** A client is the part that its helpers make up, under the imports of its context;
all anonymous operations are warned of. -/
theorem part_ok {s : Schema} {d : Document} {o : Options} {path : String} {w w' : List Warning}
    {p : Part} : (part s d o path).run w = .ok p w' ↔
    ∃ package context hs, Naming.packageOf path = .ok package ∧
      contextOf o none = .ok context ∧ (planOf s d o context).helpers = .ok hs ∧
      p = partOf package o.documentMode context hs ∧
      w' = w ++ (anonymousOperations d).map (⟨.client, ·⟩) := by
  unfold part
  simp only [run_bind_ok, run_lift_ok, run_collect_ok, text_eq_ok, EStateM.run_pure]
  constructor
  · rintro ⟨package, _, ⟨hp, rfl⟩, _, _, ⟨context, hc, rfl, rfl⟩, _, _, ⟨⟨hs, hh, rfl⟩, rfl⟩, h⟩
    cases h
    exact ⟨package, context, hs, hp, hc, hh, rfl, rfl⟩
  · rintro ⟨package, context, hs, hp, hc, hh, rfl, rfl⟩
    exact ⟨package, w, ⟨hp, rfl⟩, _, _, ⟨context, hc, rfl, rfl⟩, _, _, ⟨⟨hs, hh, rfl⟩, rfl⟩, rfl⟩

/-! ## Reserved names -/

/-- The imports that a client has before those of operation types and documents. -/
def headRegistry (o : Options) (imports? : Option Registry) : Registry :=
  (headImports o.documentMode).foldl (fun r i => (r.record i).2)
    (Registry.orFresh imports? o.typeImports)

theorem contextOf_eq (o : Options) (imports? : Option Registry) :
    contextOf o imports? =
      let types := (headRegistry o imports?).qualify o.operationTypesFrom? typesName
      let documents := types.2.qualify o.documentsFrom? documentsName
      if o.documentMode = .external then
        if documents.1.isEmpty then .error .noDocumentsModule
        else .ok ⟨documents.2, types.1, documents.1⟩
      else .ok ⟨types.2, types.1, ""⟩ := rfl

theorem typesQualifier_eq {o : Options} {imports? : Option Registry} {context : Context}
    (h : contextOf o imports? = .ok context) :
    context.typesQualifier =
      ((headRegistry o imports?).qualify o.operationTypesFrom? typesName).1 := by
  rw [contextOf_eq] at h
  dsimp only at h
  split at h
  · split at h
    · cases h
    · injection h with h
      rw [← h]
  · injection h with h
    rw [← h]

/-- Operation types that come from no module are called by their own names. -/
theorem typesQualifier_of_local {o : Options} {imports? : Option Registry} {context : Context}
    (h : contextOf o imports? = .ok context)
    (hlocal : o.operationTypesFrom?.filter (· ≠ "") = none) :
    context.typesQualifier = "" := by
  rw [typesQualifier_eq h, Registry.qualify, hlocal]

/-- The names of helpers are none of those that their plan keeps clear of. -/
theorem names_clear {s : Schema} {d : Document} {o : Options} {context : Context} {hs : List Helper}
    (hc : contextOf o none = .ok context) (hh : (planOf s d o context).helpers = .ok hs) :
    ∀ n ∈ hs.flatMap (·.names), n ∉ Prelude.names ∧ n ∉ context.imports.imports.map (·.localName) ∧
      n ∉ s.typeNames.map Naming.className ∧
      (o.operationTypesFrom?.filter (· ≠ "") = none → ∀ op ∈ namedOperations d,
        n ≠ op.resultType o.dedupeSuffix ∧ n ≠ op.variablesType o.dedupeSuffix) := by
  intro n hn
  obtain ⟨b, hands⟩ := hands_helpersFrom hh
  have hfree := hands.not_mem_of_reserved n hn
  simp only [planOf, reservedNames, List.mem_append, not_or] at hfree
  obtain ⟨⟨⟨hprelude, himports⟩, htypes⟩, hops⟩ := hfree
  refine ⟨hprelude, himports, htypes, fun hnone op hop => ?_⟩
  have hqualifier : context.typesQualifier = "" := typesQualifier_of_local hc hnone
  rw [if_pos (by rw [hqualifier]; rfl)] at hops
  simpa [not_or] using fun hn => hops (List.mem_flatMap.mpr ⟨op, hop, hn⟩)

/-- **Names.** Let a client be generated that holds its documents itself. Then its constants and
helpers, one of each for every named operation, differ from each other and from the names of the
head, of imports and of the classes of schema types. Unless operation types are imported from a
module, they also differ from the result and the variables of all operations, wherever these are in
the documents. -/
theorem part_names_fresh (s : Schema) (ds : List Document) (o : Options) (path : String)
    (w w₁ : List Warning) (p : Part) (h : (part s (Document.concat ds) o path).run w = .ok p w₁)
    (hmode : o.documentMode ≠ .external) :
    ∃ context hs, contextOf o none = .ok context ∧
      (planOf s (Document.concat ds) o context).helpers = .ok hs ∧
      p.imports = context.imports ∧ p.extras = [textOf o.documentMode hs] ∧
      List.Forall₂ Assigns (hs.flatMap (·.names)) (hs.flatMap (·.blocks o.documentMode)) ∧
      hs.map (·.operation) = namedOperations (Document.concat ds) ∧
      (∀ x ∈ hs, x.names = [x.reference, x.name]) ∧
      (hs.flatMap (·.names)).Nodup ∧
      ∀ n ∈ hs.flatMap (·.names), n ∉ Prelude.names ∧ n ∉ p.imports.imports.map (·.localName) ∧
        n ∉ s.typeNames.map Naming.className ∧
        (o.operationTypesFrom?.filter (· ≠ "") = none → ∀ op ∈ namedOperations (Document.concat ds),
          n ≠ op.resultType o.dedupeSuffix ∧ n ≠ op.variablesType o.dedupeSuffix) := by
  obtain ⟨package, context, hs, -, hc, hh, rfl, -⟩ := part_ok.mp h
  obtain ⟨b, hands⟩ := hands_helpersFrom hh
  refine ⟨context, hs, hc, hh, rfl, rfl, forall₂_assigns _ hs, operations_helpersFrom hh,
    fun x hx => ?_, hands.nodup, names_clear hc hh⟩
  simp [Helper.names, (isSome_helpersFrom hh x hx).mpr hmode]

def oneField : Schema where
  roots := [(.query, "Query")]
  types := [{ name := "Query", body := .object [] [{ name := "x", type := .named "Int" }] }]

/-- Queries named like the result of another one, like an import and like a type. -/
def lookalikes : List Document := [
  ⟨["AQuery", "httpx", "Query"].map fun name =>
    .operation { name? := some name, selections := [.field none "x" [] [] none] }⟩,
  ⟨[.operation { name? := some "A", selections := [.field none "x" [] [] none] }]⟩]

theorem part_names_fresh_lookalikes :
    ∃ p hs w, (part oneField (Document.concat lookalikes) {} "sdk.py").run [] = .ok p w ∧
      hs.flatMap Helper.names = ["A_QUERY_DOCUMENT", "AQuery2", "HTTPX_DOCUMENT", "httpx2",
        "QUERY_DOCUMENT", "Query2", "A_DOCUMENT", "A"] ∧
      p.extras = [textOf .text hs] ∧ (hs.flatMap Helper.names).Nodup ∧
      ∀ n ∈ hs.flatMap Helper.names, n ∉ p.imports.imports.map (·.localName) ∧
        ∀ op ∈ namedOperations (Document.concat lookalikes), n ≠ op.resultType false := by
  let c : Plan := planOf oneField (Document.concat lookalikes) {} ⟨headRegistry {} none, "", ""⟩
  have hspreads : ∀ o ∈ c.operations, spreads o.operation.selections = [] := by
    decide
  obtain ⟨hs, hh⟩ := exists_helpersFrom
    (fun o ho => documentOf_of_spreads_nil c.env (hspreads o ho))
    (.reserveAll {} c.reserved)
  have hnames :
      hs.flatMap Helper.names = ["A_QUERY_DOCUMENT", "AQuery2", "HTTPX_DOCUMENT", "httpx2",
      "QUERY_DOCUMENT", "Query2", "A_DOCUMENT", "A"] := by
    rw [names_helpersFrom hh]
    decide +kernel
  have hp : (part oneField (Document.concat lookalikes) {} "sdk.py").run [] = .ok _ _ :=
    part_ok.mpr ⟨"generated", c.env.context, hs, by rfl, rfl, hh, rfl, rfl⟩
  obtain ⟨context, hs', hc, hh', -, hextras, -, -, -, hnodup, hfresh⟩ :=
    part_names_fresh oneField lookalikes {} "sdk.py" [] _ _ hp (by decide)
  obtain rfl : c.env.context = context := Except.ok.inj hc
  obtain rfl : hs = hs' := Except.ok.inj (hh.symm.trans hh')
  exact ⟨_, hs, _, hp, hnames, hextras, hnodup,
    fun n hn => ⟨(hfresh n hn).2.1, fun op hop => ((hfresh n hn).2.2.2 rfl op hop).1⟩⟩

end Graphwright.Client
