import Graphwright.Document.NodeKind

/-!
# Handlers of kinds of nodes

Handlers by the kind of node that they are for. Every kind of definition is either handled or passed
on purpose, so that no kind is overlooked; tables that leave one out are refused.
-/
namespace Graphwright.Document

inductive HandlersFault where
  /-- No such kinds of nodes. -/
  | unknown (kinds : List String)
  /-- Kinds both handled and passed. -/
  | ambiguous (kinds : List String)
  /-- Kinds of definitions neither handled nor passed. -/
  | overlooked (kinds : List String)
  deriving Repr

def HandlersFault.message : HandlersFault → String
  | unknown kinds => "Unknown AST node kinds: " ++ ", ".intercalate kinds
  | ambiguous kinds => "Kinds both handled and passed through: " ++ ", ".intercalate kinds
  | overlooked kinds => "Unhandled definition kinds: " ++ ", ".intercalate kinds

/-- Handlers by kind, and the kinds that are passed. -/
structure Handlers (β : Type) where
  handlers : List (NodeKind × β)
  passed : List NodeKind
  not_passed : ∀ k ∈ passed, handlers.lookup k = none
  covered : ∀ k ∈ NodeKind.definitions, handlers.lookup k = none → k ∈ passed

namespace Handlers

variable {β : Type}

def get? (h : Handlers β) (k : NodeKind) : Option β := h.handlers.lookup k

/-- Names in order, each once. -/
def sorted (names : List String) : List String :=
  (names.mergeSort fun a b => decide (a ≤ b)).eraseDups

/-- The table of handlers by the names of kinds, and names of kinds that are passed. -/
def ofNames (named : List (String × β)) (passed : List String) :
    Except HandlersFault (Handlers β) :=
  let unknown := (named.map (·.1) ++ passed).filter fun n => (NodeKind.ofText? n).isNone
  let handlers := named.filterMap fun (n, b) => (NodeKind.ofText? n).map (·, b)
  let kinds := passed.filterMap NodeKind.ofText?
  if unknown.isEmpty then
    if h : ∀ k ∈ kinds, handlers.lookup k = none then
      if hc : ∀ k ∈ NodeKind.definitions, handlers.lookup k = none → k ∈ kinds then
        .ok ⟨handlers, kinds, h, hc⟩
      else
        .error (.overlooked (sorted ((NodeKind.definitions.filter fun k =>
          (handlers.lookup k).isNone && !kinds.contains k).map (·.text))))
    else
      .error (.ambiguous (sorted ((kinds.filter fun k => (handlers.lookup k).isSome).map (·.text))))
  else .error (.unknown (sorted unknown))

/-- Passes all kinds of definitions that are not handled. -/
def passingRest (named : List (String × β)) : List String :=
  (NodeKind.definitions.map (·.text)).filter fun n => (named.lookup n).isNone

end Handlers

end Graphwright.Document
