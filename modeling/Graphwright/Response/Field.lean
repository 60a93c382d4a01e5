import Graphwright.Document.Syntax

/-!
# Response fields

The shape of the answer to an operation: fields by response name, each with its type and the fields
below it. `merge` joins fields with one response name, in order of first occurrence: the first one
decides the type, and the joint field is conditional only if all of them are.
-/
namespace Graphwright.Response

open Document (TypeRef)

/-- A field of a response. The name of the object's own type has no type reference; a field without
children is a leaf. A conditional field may be absent from a response. -/
inductive Field where
  | mk (name : String) (type? : Option TypeRef) (children? : Option (List Field))
      (conditional : Bool)
  deriving Repr, Inhabited

namespace Field

def name : Field → String
  | mk name _ _ _ => name

def type? : Field → Option TypeRef
  | mk _ type? _ _ => type?

def children? : Field → Option (List Field)
  | mk _ _ children? _ => children?

/-- May be absent. -/
def conditional : Field → Bool
  | mk _ _ _ conditional => conditional

/-- The same field, absent from some responses. -/
def asConditional : Field → Field
  | mk name type? children? _ => mk name type? children? true

mutual

def size : Field → Nat
  | mk _ _ children? _ => 1 + sizeOption children?

def sizeOption : Option (List Field) → Nat
  | none => 0
  | some fields => sizeAll fields

def sizeAll : List Field → Nat
  | [] => 0
  | f :: rest => f.size + sizeAll rest

end

theorem sizeAll_append (fs gs : List Field) : sizeAll (fs ++ gs) = sizeAll fs + sizeAll gs := by
  induction fs with
  | nil => simp [sizeAll]
  | cons f rest ih => simp [sizeAll, ih]; omega

theorem size_eq (f : Field) : f.size = 1 + sizeOption f.children? := by
  cases f; simp [size, children?]

def childrenOf (fs : List Field) : List Field := fs.flatMap fun f => f.children?.getD []

theorem sizeAll_childrenOf_le (fs : List Field) : sizeAll (childrenOf fs) ≤ sizeAll fs := by
  induction fs with
  | nil => simp [childrenOf, sizeAll]
  | cons f rest ih =>
    have h : childrenOf (f :: rest) = f.children?.getD [] ++ childrenOf rest := by simp [childrenOf]
    rw [h, sizeAll_append, sizeAll, size_eq]
    cases f.children? <;> simp [sizeOption, sizeAll] <;> omega

def named (name : String) (fs : List Field) : List Field := fs.filter (·.name == name)

def unnamed (name : String) (fs : List Field) : List Field := fs.filter (·.name != name)

theorem sizeAll_filter_le (p : Field → Bool) (fs : List Field) :
    sizeAll (fs.filter p) ≤ sizeAll fs := by
  induction fs with
  | nil => simp
  | cons f rest ih =>
    rw [List.filter_cons]
    split <;> simp [sizeAll] <;> omega

end Field

/-- Joins fields with one response name. The fields below the first of them are joined with those
below the others that are no leaves; where there are none they stay as they are. -/
def merge : List Field → List Field
  | [] => []
  | .mk name type? children? conditional :: rest =>
    let same := Field.named name rest
    let joined? := match children? with
      | none => none
      | some own =>
        if same.any (·.children?.isSome) then some (merge (own ++ Field.childrenOf same))
        else some own
    .mk name type? joined? (conditional && same.all (·.conditional)) ::
      merge (Field.unnamed name rest)
termination_by fs => Field.sizeAll fs
decreasing_by
  · have h1 := Field.sizeAll_childrenOf_le (Field.named name rest)
    have h2 := Field.sizeAll_filter_le (·.name == name) rest
    simp only [Field.named] at h1
    simp only [Field.sizeAll_append, Field.sizeAll, Field.size, Field.sizeOption, Field.named]
    omega
  · have h2 := Field.sizeAll_filter_le (·.name != name) rest
    simp only [Field.sizeAll, Field.size, Field.unnamed]
    omega

/-- Fields that are absent from some responses if the place they are selected at is. -/
def markConditional (conditional : Bool) (fs : List Field) : List Field :=
  if conditional then fs.map (·.asConditional) else fs

end Graphwright.Response
