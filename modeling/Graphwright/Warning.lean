import Graphwright.Document.Printer

/-!
# Warnings

Operations without a name cannot be referred to from generated code. The generators that look at
operations leave them out and say so, once per operation.
-/
namespace Graphwright

/-- The generators that leave out anonymous operations. -/
inductive OperationReader where
  | operationTypes
  | client
  deriving Repr, DecidableEq

/-- An anonymous operation that a generator left out. -/
structure Warning where
  reader : OperationReader
  operation : Document.Operation
  deriving Repr

/-- The text of a warning: the operation as it was written, in the usual layout. -/
def Warning.message (w : Warning) : String :=
  "Anonymous GraphQL operation was ignored by the " ++
    (match w.reader with
      | .operationTypes => "operation types generator"
      | .client => "client generator") ++
    ", please make sure to name your operation:\n" ++ Document.Print.operation w.operation

end Graphwright
