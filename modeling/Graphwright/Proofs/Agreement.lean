import Graphwright.Proofs.Module.Order
import Graphwright.Proofs.Together

/-!
# Helpers and operation types

A client and the operation types of a module are made by two generators that look at the same
documents. The client names the types of an operation from the name and the kind of the operation
alone, and puts all its helpers into one block behind everything; the operation types declare a
block for each named operation and each fragment, in order. The two agree (`helpers_agree`): helpers
and the blocks of operations belong to the same operations in the same order, a helper refers to the
two types that the block of its operation declares, and in every module that has both parts the
block comes first.
-/
namespace Graphwright

open Graphwright.Document Graphwright.Module
open OperationTypes (pairSchema pairType pair ofPair)

/-! ## Blocks of operations -/

namespace OperationTypes

open Graphwright.Types Graphwright.Response

/-- The block declares the variables of an operation, and the model of what the operation asks
for. -/
structure DeclaredFor (env : Env) (m : Mapper) (dedupe : Bool) (op : Client.NamedOperation)
    (b : Block) : Prop where
  entries : b.variables? = some (variablesOf m (op.resultType dedupe) op.operation)
  model : ∃ fields a, AsksFor env (.operation op.operation) fields ∧
    b.model = ((modelOf m (op.resultType dedupe) fields).run a).1

namespace DeclaredFor

variable {env : Env} {m : Mapper} {dedupe : Bool} {op : Client.NamedOperation} {b : Block}

theorem name_model (h : DeclaredFor env m dedupe op b) : b.model.name = op.resultType dedupe := by
  obtain ⟨fields, a, -, hmodel⟩ := h.model
  rw [hmodel]
  rfl

theorem declarations (h : DeclaredFor env m dedupe op b) :
    ∃ v, b.declarations = [.mapping v, .model b.model] ∧
    v.name = op.variablesType dedupe ∧
    v.entries.map (·.key) = op.operation.variableDefinitions.map (·.name) := by
  refine ⟨_, by rw [Block.declarations, h.entries]; rfl, rfl, ?_⟩
  rw [variablesOf, List.map_map]
  rfl

end DeclaredFor

/-- **Blocks.** The blocks with variables are those of the named operations, one for each in
order. -/
theorem declaredFor_mapM_blockOf {env : Env} {ds : List Definition} {found : List Shape}
    (h : Shaped env ds found) (m : Mapper) (dedupe : Bool) (a : Naming.Allocator) :
    List.Forall₂ (DeclaredFor env m dedupe) (Client.namedOperations ⟨ds⟩)
      (((found.mapM (blockOf m dedupe)).run a).1.filter (·.variables?.isSome)) := by
  induction h generalizing a with
  | nil => exact .nil
  | @cons d fields ds shapes hf _ ih =>
    cases d with
    | operation o =>
      cases hname : o.name? with
      | none => simpa [shapeOf?, Client.namedOperations, hname] using ih a
      | some name =>
        have hshape : (shapeOf? (.operation o) fields).toList = [.operation name o fields] := by
          simp [shapeOf?, hname]
        have hoperations : Client.namedOperations ⟨.operation o :: ds⟩ =
            ⟨name, o⟩ :: Client.namedOperations ⟨ds⟩ := by
          simp [Client.namedOperations, hname]
        rw [hshape, hoperations, List.singleton_append, run_mapM_cons]
        exact .cons ⟨rfl, fields, a, hf, rfl⟩ (ih _)
    | fragment f =>
      have hshape : (shapeOf? (.fragment f) fields).toList = [.fragment f fields] := rfl
      rw [hshape, List.singleton_append, run_mapM_cons]
      exact ih _
    | _ => exact ih a

theorem text_model_ne_empty (r : Registry) (m : Model) : m.text r ≠ "" := by
  cases m with
  | mk name description? members =>
    exact Holds.ne_empty (Holds.intercalate List.mem_cons_self "\n") (by simp)

theorem text_block_ne_empty (r : Registry) (b : Block) : b.text r ≠ "" := by
  refine Holds.ne_empty (Holds.intercalate (t := b.model.text r) ?_ _)
    (text_model_ne_empty r b.model)
  refine List.mem_flatMap.mpr
    ⟨.model b.model, List.mem_append_right _ (List.mem_singleton_self _), ?_⟩
  refine List.mem_map_of_mem ?_
  cases b.model with
  | mk name description? members => exact List.mem_append_right _ (List.mem_singleton_self _)

end OperationTypes

/-! ## The text of a client -/

namespace Client

theorem holds_textOf {mode : DocumentMode} {hs : List Helper} {x : Helper} {t : String}
    (hx : x ∈ hs) (ht : t ∈ x.blocks mode) : Holds (textOf mode hs) t := by
  have hmem : "\n\n\n" ++ t ∈ (hs.flatMap (·.blocks mode)).map ("\n\n\n" ++ ·) :=
    List.mem_map_of_mem (List.mem_flatMap.mpr ⟨x, hx, ht⟩)
  exact ((Holds.join hmem).append_left _).trans ((Holds.refl t).append_left _)

theorem exists_last_block (mode : DocumentMode) (x : Helper) :
    ∃ texts lines, lines ≠ [] ∧ x.blocks mode = texts ++ ["\n".intercalate (lines ++ [")"])] := by
  unfold Helper.blocks
  exact ⟨_, [_, _, _, _], List.cons_ne_nil _ _, rfl⟩

theorem exists_textOf_concat (mode : DocumentMode) (hs : List Helper) (x : Helper) :
    ∃ text, textOf mode (hs ++ [x]) = text ++ ")" := by
  obtain ⟨texts, lines, hne, hblocks⟩ := exists_last_block mode x
  have hlast : "\n".intercalate (lines ++ [")"]) = "\n".intercalate lines ++ "\n" ++ ")" := by
    rw [String.intercalate_append_of_ne_nil hne (List.cons_ne_nil _ _),
      String.intercalate_singleton]
  rw [textOf, List.flatMap_append, List.flatMap_singleton, hblocks, hlast]
  simp only [List.map_append, List.map_cons, List.map_nil, String.join_append, String.join_cons,
    String.join_nil, String.append_empty, ← String.append_assoc]
  exact ⟨_, rfl⟩

theorem exists_text_prelude (mode : DocumentMode) :
    ∃ more, Prelude.text mode = "DataT" ++ more := by
  have hfirst : ∃ more, "\n".intercalate Prelude.typesAndHeaders = "DataT" ++ more := by
    have hline : "DataT = TypeVar(\"DataT\")" = "DataT" ++ " = TypeVar(\"DataT\")" := by rfl
    rw [Prelude.typesAndHeaders, String.intercalate_cons_cons, hline]
    simp only [String.append_assoc]
    exact ⟨_, rfl⟩
  obtain ⟨more, hmore⟩ := hfirst
  rw [Prelude.text, Prelude.sections, List.map_cons, List.map_cons,
    String.intercalate_cons_cons, hmore]
  simp only [String.append_assoc]
  exact ⟨_, rfl⟩

theorem textOf_ne_empty (mode : DocumentMode) (hs : List Helper) : textOf mode hs ≠ "" := by
  obtain ⟨more, hmore⟩ := exists_text_prelude mode
  simp [textOf, hmore, String.append_eq_empty_iff]

/-- The text of a client with helpers is laid out as it is. -/
theorem strip_textOf {mode : DocumentMode} {hs : List Helper} (hne : hs ≠ []) :
    Text.strip (· == '\n') (textOf mode hs) = textOf mode hs := by
  refine strip_eq_self ?_ ?_
  · obtain ⟨more, hmore⟩ := exists_text_prelude mode
    simp [textOf, hmore]
  · obtain ⟨init, x, rfl⟩ := (List.eq_nil_or_concat hs).resolve_left hne
    obtain ⟨text, htext⟩ := exists_textOf_concat mode init x
    simp [htext]

end Client

/-! ## Both -/

/-- A helper and a block of operation types belong together: the block is declared for the operation
of the helper, and declares the two types that the helper refers to, one mapping of variables and
one model of the result. -/
structure Agrees (env : Response.Env) (m : Types.Mapper) (dedupe : Bool) (x : Client.Helper)
    (b : OperationTypes.Block) : Prop where
  declared : OperationTypes.DeclaredFor env m dedupe x.operation b
  names : ∃ v, b.declarations = [.mapping v, .model b.model] ∧
    x.variablesType = v.name ∧ x.resultType = b.model.name

/-- **Helpers and operation types.** Let the operation types and a client of documents be generated,
the client without a module that it takes operation types from. The helpers of the client are those
of the named operations of the documents, one for each in order, and so are the blocks of operation
types that have variables. The helper and the block of an operation agree. In every module that has
both parts, in whatever order, the block stands before all texts of the helper. -/
theorem helpers_agree (s : Schema) (ds : List Document) (o : Options) (path : String)
    (w w₁ v v₁ : List Warning) (q r : Part)
    (hq : (OperationTypes.part s (Document.concat ds) o path).run w = .ok q w₁)
    (hr : (Client.part s (Document.concat ds) o path).run v = .ok r v₁)
    (hlocal : o.operationTypesFrom?.filter (· ≠ "") = none) :
    ∃ operations context hs,
      (OperationTypes.generate s (Document.concat ds) o).run w = .ok operations w₁ ∧
      q.body = operations.body ∧
      Client.contextOf o none = .ok context ∧
      (Client.planOf s (Document.concat ds) o context).helpers = .ok hs ∧
      r.extras = [Client.textOf o.documentMode hs] ∧
      hs.map (·.operation) = Client.namedOperations (Document.concat ds) ∧
      List.Forall₂ (fun x b =>
        Agrees ⟨s, fragmentsOf (Document.concat ds)⟩
          (OperationTypes.startOf s o).1 o.dedupeSuffix x b ∧
        ∀ parts : List Part, q ∈ parts → r ∈ parts → ∀ t ∈ x.blocks o.documentMode,
          Precedes (Part.combine parts) (Text.strip (· == '\n') (b.text operations.imports)) t)
        hs (operations.blocks.filter (·.variables?.isSome)) := by
  obtain ⟨package, found, -, hshaped, hoperations, rfl⟩ := OperationTypes.part_ok hq
  obtain ⟨package', context, hs, -, hcontext, hhelpers, rfl, -⟩ := Client.part_ok.mp hr
  have hnamed : hs.map (·.operation) = Client.namedOperations (Document.concat ds) :=
    Client.operations_helpersFrom hhelpers
  refine ⟨_, context, hs, hoperations, rfl, hcontext, hhelpers, rfl, hnamed, ?_⟩
  have hblocks := OperationTypes.declaredFor_mapM_blockOf hshaped
    (OperationTypes.startOf s o).1 o.dedupeSuffix
    (.reserveAll {} (OperationTypes.reservedNames o.dedupeSuffix (Document.concat ds)))
  have hzip : List.Forall₂ (OperationTypes.DeclaredFor _ _ _) (hs.map (·.operation)) _ :=
    hnamed.symm ▸ hblocks
  obtain ⟨hlength, hall⟩ := List.forall₂_iff_zip.mp (List.forall₂_map_left_iff.mp hzip)
  refine List.forall₂_iff_zip.mpr ⟨hlength, fun {x b} hxb => ⟨?_, fun parts hq hr t ht => ?_⟩⟩
  · have hdeclared := hall hxb
    obtain ⟨entries, hdeclarations, hname, -⟩ := hdeclared.declarations
    obtain ⟨hresult, hvariables⟩ := Client.types_helpersFrom hhelpers x (List.of_mem_zip hxb).1
    have hqualifier : context.typesQualifier = "" := Client.typesQualifier_of_local hcontext hlocal
    rw [Client.planOf, hqualifier, String.empty_append] at hresult hvariables
    refine ⟨hdeclared, entries, hdeclarations, ?_, ?_⟩
    · rw [hvariables, hname]
    · rw [hresult, hdeclared.name_model]
  · obtain ⟨hx, hb⟩ := List.of_mem_zip hxb
    let operations := OperationTypes.resultOf s (Document.concat ds) o found
    have hne : b.text operations.imports ≠ "" := OperationTypes.text_block_ne_empty _ b
    have hsection : b.text operations.imports ∈ nonempty operations.body :=
      mem_nonempty (List.mem_map_of_mem (List.mem_of_mem_filter hb)) hne
    have hbefore := Part.precedes_combine hq hr hsection (List.mem_singleton_self _) hne
      (Client.textOf_ne_empty o.documentMode hs)
    rw [Client.strip_textOf (List.ne_nil_of_mem hx)] at hbefore
    exact hbefore.holds (Client.holds_textOf hx ht)

/-- Two queries with names in two documents, and a query without a name and a fragment between
them. -/
def mixedDocuments : List Document := [
  ⟨[.operation { name? := some "Q", selections := [pair [] [ofPair "x"]] },
    .operation { selections := [pair [] [ofPair "y"]] },
    .fragment { name := "F", on := "A", selections := [ofPair "x"] }]⟩,
  ⟨[.operation { name? := some "R", selections := [pair [] [ofPair "y"]] }]⟩]

theorem helpers_agree_mixedDocuments :
    let d := Document.concat mixedDocuments
    ∃ (q r : Part) (w v : List Warning) (operations : OperationTypes.Result)
    (hs : List Client.Helper), (OperationTypes.part pairSchema d {} "sdk.py").run [] = .ok q w ∧
      (Client.part pairSchema d {} "sdk.py").run [] = .ok r v ∧ q.body = operations.body ∧
      (hs.map (·.operation)).map (·.name) = ["Q", "R"] ∧
      List.Forall₂ (fun x b => x.resultType = b.model.name ∧ ∀ t ∈ x.blocks .text,
        Precedes (Part.combine [r, q]) (Text.strip (· == '\n') (b.text operations.imports)) t)
        hs (operations.blocks.filter (·.variables?.isSome)) := by
  intro d
  have hpackage : Naming.packageOf "sdk.py" = .ok "generated" := by rfl
  have hx : Response.Asks ⟨pairSchema, fragmentsOf d⟩ (some pairType) [ofPair "x"] _ :=
    .leaf (by decide) rfl .nil
  have hy : Response.Asks ⟨pairSchema, fragmentsOf d⟩ (some pairType) [ofPair "y"] _ :=
    .leaf (by decide) rfl .nil
  have hshaped : Response.Shaped ⟨pairSchema, fragmentsOf d⟩ d.definitions _ :=
    .cons ⟨_, .node (by decide) rfl hx .nil, rfl⟩ (.cons ⟨_, .node (by decide) rfl hy .nil, rfl⟩
      (.cons ⟨_, hx, rfl⟩ (.cons ⟨_, .node (by decide) rfl hy .nil, rfl⟩ .nil)))
  obtain ⟨w, -, hq⟩ := OperationTypes.part_of_shaped {} hpackage hshaped []
  obtain ⟨hs, hh⟩ := Client.exists_helpers_of_spreads_nil pairSchema {}
    ⟨Client.headRegistry {} none, "", ""⟩
    (show ∀ op ∈ Client.namedOperations d, spreads op.operation.selections = [] by decide)
  have hr : (Client.part pairSchema d {} "sdk.py").run [] = .ok _ _ :=
    Client.part_ok.mpr ⟨"generated", _, hs, hpackage, rfl, hh, rfl, rfl⟩
  obtain ⟨operations, context, hs', -, hbody, -, -, -, hnamed, hagree⟩ :=
    helpers_agree pairSchema mixedDocuments {} "sdk.py" [] w [] _ _ _ hq hr rfl
  refine ⟨_, _, w, _, operations, hs', hq, hr, hbody, ?_,
    hagree.imp fun x b ⟨hagrees, hbefore⟩ => ?_⟩
  · rw [hnamed]
    rfl
  · obtain ⟨entries, -, -, hresult⟩ := hagrees.names
    exact ⟨hresult, hbefore _ (by simp) (by simp)⟩

end Graphwright
