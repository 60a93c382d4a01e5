import Graphwright.Document.Handlers
import Graphwright.Document.Node

/-!
# Walks over documents from the bottom

A walk over the nodes of a document calls the handler of every node of a handled kind, after it has
done so for the parts of the node. What a handler gives takes the place of the node; if it gives
nothing, a node of a list is deleted and any other node stays.

Where nothing changes a node is kept as it is: the members of a list are not replaced one by one,
but their edits are noted by position and made all at once.
-/
namespace Graphwright.Document

/-- A change of a member of a list. -/
inductive Edit (α : Type) where
  | put (n : Node α)
  | delete

/-- Makes edits from the left, the positions being those of the list before any of them. Deletions
shift what is behind them, which `gone` accounts for. -/
def applyEdits {α : Type} (gone : Nat) : List (Nat × Edit α) → List (Node α) → List (Node α)
  | [], ns => ns
  | (i, .put n) :: rest, ns => applyEdits gone rest (ns.set (i - gone) n)
  | (i, .delete) :: rest, ns => applyEdits (gone + 1) rest (ns.eraseIdx (i - gone))

/-- How a walk goes about its nodes: what is known inside a node given what is known around it, and
the handlers, which are told both what is known and the node with its parts as edited. -/
structure Walk (m : Type → Type) (γ α : Type) where
  inside : γ → Node α → γ
  handlers : Handlers (γ → Node α → m (Option (Node α)))

namespace Walk

variable {m : Type → Type} [Monad m] {γ α : Type}

/-- The change of a node given the change of its parts, none if it is kept. -/
def settle (w : Walk m γ α) (known : γ) (listed : Bool) (kind : NodeKind) (text : String)
    (parts : List (Part α)) (changed? : Option (List (Part α))) : m (Option (Edit α)) := do
  let now : Node α := .branch kind text (changed?.getD parts)
  let below? : Option (Edit α) := changed?.map fun _ => .put now
  match w.handlers.get? kind with
  | none => return below?
  | some handler =>
    match ← handler known now with
    | some n => return some (.put n)
    | none => return if listed then some .delete else below?

mutual

/-- The change of a node, which is a member of a list or not. -/
def visit (w : Walk m γ α) (known : γ) (listed : Bool) : Node α → m (Option (Edit α))
  | .value _ => return none
  | .branch kind text parts => do
    let known := w.inside known (.branch kind text parts)
    w.settle known listed kind text parts (← visitParts w known parts)

/-- The parts of a node, if one of them changes. -/
def visitParts (w : Walk m γ α) (known : γ) : List (Part α) → m (Option (List (Part α)))
  | [] => return none
  | p :: rest => do
    let first? ← visitPart w known p
    let rest? ← visitParts w known rest
    return if first?.isNone && rest?.isNone then none
      else some (first?.getD p :: rest?.getD rest)

/-- A part of a node, if it changes. -/
def visitPart (w : Walk m γ α) (known : γ) : Part α → m (Option (Part α))
  | .one role n => do
    match ← visit w known false n with
    | some (.put n) => return some (.one role n)
    | _ => return none
  | .many role ns => do
    let edits ← visitMembers w known 0 ns
    return if edits.isEmpty then none else some (.many role (applyEdits 0 edits ns))

/-- The changes of the members of a list from a position on. -/
def visitMembers (w : Walk m γ α) (known : γ) (i : Nat) : List (Node α) → m (List (Nat × Edit α))
  | [] => return []
  | n :: rest => do
    let edit? ← visit w known true n
    let edits ← visitMembers w known (i + 1) rest
    return (edit?.map (i, ·)).toList ++ edits

end

/-- A node after the walk over it and everything below it. -/
def run (w : Walk m γ α) (known : γ) (n : Node α) : m (Node α) := do
  match ← w.visit known false n with
  | some (.put n) => return n
  | _ => return n

end Walk

/-- The values that have taken the place of definitions, in the order of the document. -/
def Node.definitionValues {α : Type} (n : Node α) : List α :=
  (n.all .definitions).filterMap Node.value?

end Graphwright.Document
