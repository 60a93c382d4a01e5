import Graphwright.Document.Syntax
import Graphwright.Text.Similar

/-!
# What is wrong with type system documents

The ways in which definitions contradict each other or refer to what is not there, with their texts.
-/
namespace Graphwright.Schema

open Document

inductive Problem where
  | secondSchema
  | secondRoot (kind : OperationKind)
  | secondType (name : String)
  | secondEnumValue (type value : String)
  | secondField (type field : String)
  | secondArgumentDefinition (owner argument : String)
  | secondDirectiveDefinition (name : String)
  | unknownType (name : String) (suggestions : List String)
  | unknownDirective (name : String)
  | misplacedDirective (name : String) (location : Location)
  | repeatedDirective (name : String)
  | wrongExtension (kind : TypeKind) (name : String)
  | unknownExtension (name : String) (suggestions : List String)
  | unknownArgument (argument directive : String) (suggestions : List String)
  | secondArgument (name : String)
  | secondInputField (name : String)
  | missingArgument (directive argument : String) (type : TypeRef)
  deriving Repr

def Problem.message : Problem → String
  | secondSchema => "Must provide only one schema definition."
  | secondRoot kind => "There can be only one " ++ kind.keyword ++ " type in schema."
  | secondType name => "There can be only one type named '" ++ name ++ "'."
  | secondEnumValue type value =>
    "Enum value '" ++ type ++ "." ++ value ++ "' can only be defined once."
  | secondField type field => "Field '" ++ type ++ "." ++ field ++ "' can only be defined once."
  | secondArgumentDefinition owner argument =>
    "Argument '" ++ owner ++ "(" ++ argument ++ ":)' can only be defined once."
  | secondDirectiveDefinition name => "There can be only one directive named '@" ++ name ++ "'."
  | unknownType name suggestions => "Unknown type '" ++ name ++ "'." ++ Text.didYouMean suggestions
  | unknownDirective name => "Unknown directive '@" ++ name ++ "'."
  | misplacedDirective name location =>
    "Directive '@" ++ name ++ "' may not be used on " ++ location.text ++ "."
  | repeatedDirective name =>
    "The directive '@" ++ name ++ "' can only be used once at this location."
  | wrongExtension kind name => "Cannot extend non-" ++ kind.text ++ " type '" ++ name ++ "'."
  | unknownExtension name suggestions =>
    "Cannot extend type '" ++ name ++ "' because it is not defined." ++ Text.didYouMean suggestions
  | unknownArgument argument directive suggestions =>
    "Unknown argument '" ++ argument ++ "' on directive '@" ++ directive ++ "'." ++
      Text.didYouMean suggestions
  | secondArgument name => "There can be only one argument named '" ++ name ++ "'."
  | secondInputField name => "There can be only one input field named '" ++ name ++ "'."
  | missingArgument directive argument type =>
    "Argument '@" ++ directive ++ "(" ++ argument ++ ":)' of type '" ++ type.text ++
      "' is required, but it was not provided."

end Graphwright.Schema
