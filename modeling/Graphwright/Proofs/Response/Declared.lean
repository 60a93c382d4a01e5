import Graphwright.Proofs.Naming.Fresh
import Graphwright.Proofs.Response.Models

/-!
# Names that operation types declare

A named operation declares its result and its variables under names of its own, and a fragment its
model; these names are reserved before any model is made. The models below them ask an allocator for
their names, in the order in which they are met, over all definitions of the documents. Hence a name
that was asked for is neither one that some definition takes, be it a later one, nor one that was
handed out before.

* `hands_membersOf`: the models below a model are named by one run of requests.
* `names_mapM_blockOf`: the names of all blocks are those of the definitions and those asked for.
* `part_declares_distinct`: if the definitions differ in their names, all declarations do.
-/
namespace Graphwright.OperationTypes

open Graphwright.Document Graphwright.Module Graphwright.Types Graphwright.Response
open Naming.Allocator (Hands)

/-! ## Models below a model -/

/-- The names of the models that are declared for members of a model. -/
def namesBelow (ms : List Member) : List String := (Model.allBelow ms).map (·.name)

theorem names_model (name : String) (description? : Option String) (ms : List Member) :
    (Model.mk name description? ms).names = namesBelow ms ++ [name] := by
  simp [Model.names, Model.all, namesBelow, Model.name]

theorem namesBelow_cons_node (a : Attribute) (name : String) (description? : Option String)
    (below ms : List Member) :
    namesBelow (.node a (.mk name description? below) :: ms) =
      namesBelow below ++ [name] ++ namesBelow ms := by
  simp [namesBelow, Model.allBelow, Model.allOf, Model.all, Model.name]

theorem namesBelow_cons (member : Member) (ms : List Member) :
    namesBelow (member :: ms) = namesBelow [member] ++ namesBelow ms := by
  simp [namesBelow, Model.allBelow]

mutual

theorem hands_memberOf (m : Mapper) (owner : String) : ∀ (f : Field) (a : Naming.Allocator),
    Hands a (namesBelow [((memberOf m owner f).run a).1]) ((memberOf m owner f).run a).2
  | .mk key (some type) (some fields) conditional, a => by
    have hname := Hands.allocate a (owner ++ Naming.pascalCase key)
    have hbelow := hands_membersOf m (a.allocate (owner ++ Naming.pascalCase key)).1 fields
      (a.allocate (owner ++ Naming.pascalCase key)).2
    rw [run_memberOf_node, namesBelow_cons_node]
    -- the name is asked for before those below it, and declared after them
    refine (hname.append hbelow).perm (List.perm_append_comm.trans ?_)
    exact .of_eq (List.append_nil _).symm
  | .mk key none children? conditional, a => by
    rw [run_memberOf_leaf _ _ _ _ (.inl rfl)]
    exact Hands.refl a
  | .mk key (some type) none conditional, a => by
    rw [run_memberOf_leaf _ _ _ _ (.inr rfl)]
    exact Hands.refl a

theorem hands_membersOf (m : Mapper) (owner : String) : ∀ (fs : List Field) (a : Naming.Allocator),
    Hands a (namesBelow ((membersOf m owner fs).run a).1) ((membersOf m owner fs).run a).2
  | [], a => by
    rw [membersOf]
    exact Hands.refl a
  | f :: rest, a => by
    rw [run_membersOf_cons, namesBelow_cons]
    exact (hands_memberOf m owner f a).append (hands_membersOf m owner rest _)

end

/-! ## Blocks -/

/-- The names that the definition of a shape takes by itself. -/
def ownNames (dedupe : Bool) : Shape → List String
  | .operation name o _ =>
    [resultName dedupe name o.kind, variablesName (resultName dedupe name o.kind)]
  | .fragment f _ => [Naming.fragmentTypeName f.name]

/-- The names that definitions take are those reserved for a document. -/
theorem ownNames_shaped {env : Env} {ds : List Definition} {found : List Shape}
    (h : Shaped env ds found) (dedupe : Bool) :
    found.flatMap (ownNames dedupe) = reservedNames dedupe ⟨ds⟩ := by
  induction h with
  | nil => rfl
  | @cons d fields ds shapes _ _ ih =>
    rw [List.flatMap_append, ih]
    cases d with
    | operation o => cases hname : o.name? <;> simp [shapeOf?, hname, ownNames, reservedNames]
    | _ => simp [shapeOf?, ownNames, reservedNames]

/-- The names that the definition of a block takes, and those asked for below its model. -/
theorem names_blockOf (m : Mapper) (dedupe : Bool) (sh : Shape) (a : Naming.Allocator) :
    ((blockOf m dedupe sh).run a).1.names.Perm
      (ownNames dedupe sh ++ namesBelow ((blockOf m dedupe sh).run a).1.model.members) := by
  cases sh with
  | operation name o fields =>
    let result := resultName dedupe name o.kind
    let below := ((membersOf m result fields).run a).1
    change (variablesName result :: ((Model.mk result none below).names ++ [])).Perm
      (result :: variablesName result :: namesBelow below)
    rw [List.append_nil, names_model]
    exact ((List.perm_append_singleton result _).cons _).trans (.swap ..)
  | fragment f fields =>
    let result := Naming.fragmentTypeName f.name
    let below := ((membersOf m result fields).run a).1
    change ((Model.mk result none below).names ++ []).Perm (result :: namesBelow below)
    rw [List.append_nil, names_model]
    exact List.perm_append_singleton result _

theorem hands_blockOf (m : Mapper) (dedupe : Bool) (sh : Shape) (a : Naming.Allocator) :
    Hands a (namesBelow ((blockOf m dedupe sh).run a).1.model.members)
      ((blockOf m dedupe sh).run a).2 := by
  cases sh <;> exact hands_membersOf ..

theorem run_mapM_cons {α β σ : Type} (act : α → StateM σ β) (x : α) (rest : List α) (a : σ) :
    let first := (act x).run a
    let more := (rest.mapM act).run first.2
    ((x :: rest).mapM act).run a = (first.1 :: more.1, more.2) := by
  rw [List.mapM_cons]
  rfl

/-- What holds between each input and its result, wherever a run begins, holds of several inputs one
by one. -/
theorem forall₂_run_mapM {α β σ : Type} {R : α → β → Prop} {act : α → StateM σ β} {xs : List α}
    (h : ∀ x ∈ xs, ∀ a, R x ((act x).run a).1) (a : σ) :
    List.Forall₂ R xs ((xs.mapM act).run a).1 := by
  induction xs generalizing a with
  | nil => exact .nil
  | cons x rest ih =>
    obtain ⟨hx, hrest⟩ := List.forall_mem_cons.mp h
    rw [run_mapM_cons]
    exact .cons (hx a) (ih hrest _)

/-- What holds of the result of each input, wherever a run begins, holds of all results of a run. -/
theorem forall_mem_run_mapM {α β σ : Type} {P : β → Prop} {act : α → StateM σ β} {xs : List α}
    (h : ∀ x ∈ xs, ∀ a, P ((act x).run a).1) (a : σ) : ∀ y ∈ ((xs.mapM act).run a).1, P y := by
  induction xs generalizing a with
  | nil => exact nofun
  | cons x rest ih =>
    obtain ⟨hx, hrest⟩ := List.forall_mem_cons.mp h
    rw [run_mapM_cons]
    exact List.forall_mem_cons.mpr ⟨hx a, ih hrest _⟩

/-- The names of the models below those of blocks are handed out by one run of requests. -/
theorem hands_mapM_blockOf (m : Mapper) (dedupe : Bool) (found : List Shape)
    (a : Naming.Allocator) :
    Hands a (((found.mapM (blockOf m dedupe)).run a).1.flatMap fun b => namesBelow b.model.members)
      ((found.mapM (blockOf m dedupe)).run a).2 := by
  induction found generalizing a with
  | nil => exact Hands.refl a
  | cons sh rest ih =>
    rw [run_mapM_cons]
    exact (hands_blockOf m dedupe sh a).append (ih _)

/-- The names that blocks declare are those of their definitions, and those that one run of requests
hands out. -/
theorem names_mapM_blockOf (m : Mapper) (dedupe : Bool) (found : List Shape)
    (a : Naming.Allocator) :
    ∃ asked, Hands a asked ((found.mapM (blockOf m dedupe)).run a).2 ∧
      (((found.mapM (blockOf m dedupe)).run a).1.flatMap (·.names)).Perm
        (found.flatMap (ownNames dedupe) ++ asked) := by
  refine ⟨_, hands_mapM_blockOf m dedupe found a, ?_⟩
  induction found generalizing a with
  | nil => exact .nil
  | cons sh rest ih =>
    rw [run_mapM_cons, List.flatMap_cons, List.flatMap_cons, List.flatMap_cons]
    refine ((names_blockOf m dedupe sh a).append (ih _)).trans ?_
    rw [List.append_assoc, List.append_assoc]
    exact (List.perm_append_comm_assoc ..).append_left _

/-- **Blocks.** If the definitions of a document differ in the names they take, then all the names
that its blocks declare are different. -/
theorem nodup_names_blocksOf {s : Schema} {d : Document} {found : List Shape} (o : Options)
    (h : Shaped ⟨s, fragmentsOf d⟩ d.definitions found)
    (hd : (reservedNames o.dedupeSuffix d).Nodup) :
    ((blocksOf s d o found).flatMap (·.names)).Nodup := by
  have hown : found.flatMap (ownNames o.dedupeSuffix) = reservedNames o.dedupeSuffix d :=
    ownNames_shaped h o.dedupeSuffix
  obtain ⟨asked, hands, hperm⟩ := names_mapM_blockOf (startOf s o).1 o.dedupeSuffix found
    (.reserveAll {} (reservedNames o.dedupeSuffix d))
  rw [hown] at hperm
  refine hperm.nodup_iff.mpr (List.nodup_append.mpr ⟨hd, hands.nodup, fun n hn n' hn' heq => ?_⟩)
  exact hands.not_mem_of_reserved n' hn' (heq ▸ hn)

/-- **Declarations.** Let the operation types of documents be generated, and let the results,
variables and fragments of their definitions have different names. Then the names of all
declarations differ, those of the models below included. -/
theorem part_declares_distinct (s : Schema) (ds : List Document) (o : Options) (path : String)
    (w w₁ : List Warning) (p : Part) (h : (part s (Document.concat ds) o path).run w = .ok p w₁)
    (hd : (reservedNames o.dedupeSuffix (Document.concat ds)).Nodup) :
    ∃ r : Result, (generate s (Document.concat ds) o).run w = .ok r w₁ ∧ p.body = r.body ∧
      (r.blocks.flatMap (·.names)).Nodup := by
  obtain ⟨package, found, -, hs, hg, rfl⟩ := part_ok h
  exact ⟨_, hg, rfl, nodup_names_blocksOf o hs hd⟩

/-- Two occurrences of the pair whose models would both be called like that of a fragment further
down. -/
def fragmentLikePairs : List Document := [
  ⟨[.operation { name? := some "Q", selections := [
      .field (some "fFragment") "a" [] [] (some [ofPair "x"]),
      .field (some "FFragment") "a" [] [] (some [ofPair "y"])] }]⟩,
  ⟨[.fragment { name := "QQueryF", on := "A", selections := [ofPair "x"] }]⟩]

theorem part_declares_distinct_fragmentLikePairs :
    let d := Document.concat fragmentLikePairs
    reservedNames false d = ["QQuery", "QQueryVariables", "QQueryFFragment"] ∧
      (reservedNames false d).Nodup ∧
      ∃ p r w, (part pairSchema d {} "operations.py").run [] = .ok p w ∧
        (generate pairSchema d {}).run [] = .ok r w ∧ p.body = r.body ∧
        (r.blocks.flatMap (·.names)).Nodup := by
  intro d
  have hnames : reservedNames false d = ["QQuery", "QQueryVariables", "QQueryFFragment"] := by
    decide +kernel
  have hnodup : (reservedNames false d).Nodup := by
    rw [hnames]
    decide
  have hx : Asks ⟨pairSchema, fragmentsOf d⟩ (some pairType) [ofPair "x"] _ :=
    .leaf (by decide) rfl .nil
  have hy : Asks ⟨pairSchema, fragmentsOf d⟩ (some pairType) [ofPair "y"] _ :=
    .leaf (by decide) rfl .nil
  have hs : Shaped ⟨pairSchema, fragmentsOf d⟩ d.definitions _ :=
    .cons ⟨_, .node (by decide) rfl hx (.node (by decide) rfl hy .nil), rfl⟩
      (.cons ⟨_, hx, rfl⟩ .nil)
  obtain ⟨w, -, hp⟩ :=
    part_of_shaped {} (show Naming.packageOf "operations.py" = .ok "generated" by rfl) hs []
  obtain ⟨r, hg, hb, hr⟩ := part_declares_distinct _ fragmentLikePairs _ _ _ _ _ hp hnodup
  exact ⟨hnames, hnodup, _, r, w, hp, hg, hb, hr⟩

end Graphwright.OperationTypes
