import Graphwright.Proofs.Naming.Letters
import Graphwright.Response.Declare
import Mathlib.Data.List.Nodup

/-!
# When definitions have different types

Each definition of a document takes names made of its own name in Pascal case and a word for what
the name stands for: the kind of operation for a result, `Variables` behind that for variables,
`Fragment` for the model of a fragment. None of these words is the end of another one, so such a
name can be taken apart again (`append_word_injective`), and two definitions only ever take the same
name if they are of one kind and their names are the same in Pascal case.

Then they do: Pascal case forgets underscores and capitals, and without repeated kinds `Add` and
`AddQuery` are the same as well. Names of operations and fragments that differ are not enough
(`reserved_twice`), and `reservedNames_nodup_iff` says what is.
-/
namespace Graphwright.OperationTypes

open Graphwright.Document

/-! ## Names of definitions -/

/-- The named operations of a document, by name and kind. -/
def operationNames (d : Document) : List (String × OperationKind) :=
  d.definitions.filterMap fun
    | .operation o => o.name?.map fun name => (name, o.kind)
    | _ => none

def fragmentNames (d : Document) : List String :=
  d.definitions.filterMap fun
    | .fragment f => some f.name
    | _ => none

/-- What a reserved name stands for. -/
inductive Role where
  | result (kind : OperationKind)
  | variables
  | fragment
  deriving DecidableEq

def Role.word : Role → String
  | .result kind => Naming.pascalCase kind.keyword
  | .variables => "Variables"
  | .fragment => "Fragment"

def Role.all : List Role := OperationKind.all.map .result ++ [.variables, .fragment]

theorem Role.mem_all (r : Role) : r ∈ all := by
  rcases r with (_ | _ | _) | _ | _ <;> decide

/-- No word for a role is the end of another one. -/
theorem Role.eq_of_suffix {r r' : Role} (h : r.word.toList <:+ r'.word.toList) : r = r' := by
  have hall : ∀ r ∈ all, ∀ r' ∈ all, r.word.toList <:+ r'.word.toList → r = r' := by
    decide +kernel
  exact hall r r.mem_all r' r'.mem_all h

/-- A stem and the word behind it can be told apart. -/
theorem append_word_injective : Function.Injective fun x : String × Role => x.1 ++ x.2.word := by
  rintro ⟨s, r⟩ ⟨t, r'⟩ h
  have hchars : s.toList ++ r.word.toList = t.toList ++ r'.word.toList := by
    simpa using congrArg String.toList h
  obtain rfl : r = r' := by
    have hends : r.word.toList <:+ t.toList ++ r'.word.toList := hchars ▸ List.suffix_append _ _
    rcases List.suffix_or_suffix_of_suffix (List.suffix_append _ _) hends with hs | hs
    · exact (Role.eq_of_suffix hs).symm
    · exact Role.eq_of_suffix hs
  exact Prod.ext ((String.append_left_inj _).mp h) rfl

/-! ## Stems -/

/-- What the name of an operation contributes to that of its result: its Pascal case, without the
kind of operation at its end if that is not to be repeated. -/
def stem (dedupe : Bool) (name : String) (kind : OperationKind) : String :=
  let base := (Naming.pascalCase name).toList
  let word := (Naming.pascalCase kind.keyword).toList
  String.ofList (if dedupe && word.isSuffixOf base then base.take (base.length - word.length)
    else base)

theorem resultName_eq (dedupe : Bool) (name : String) (kind : OperationKind) :
    resultName dedupe name kind = stem dedupe name kind ++ (Role.result kind).word := by
  rw [resultName, Naming.operationTypeName, stem, Role.word]
  split
  · rename_i h
    have hs : (Naming.pascalCase kind.keyword).toList <:+ (Naming.pascalCase name).toList :=
      List.isSuffixOf_iff_suffix.mp (Bool.and_eq_true_iff.mp h).2
    rw [← String.toList_inj, String.toList_append, String.toList_ofList]
    exact (List.suffix_iff_eq_append.mp hs).symm
  · rw [String.ofList_toList]

/-- What definitions contribute to the names they take, with what those stand for. -/
def stems (dedupe : Bool) (d : Document) : List (String × Role) :=
  d.definitions.flatMap fun
    | .fragment f => [(Naming.pascalCase f.name, .fragment)]
    | .operation o =>
      match o.name? with
      | some name =>
        [(stem dedupe name o.kind, .result o.kind), (resultName dedupe name o.kind, .variables)]
      | none => []
    | _ => []

theorem reservedNames_eq (dedupe : Bool) (d : Document) :
    reservedNames dedupe d = (stems dedupe d).map fun x => x.1 ++ x.2.word := by
  unfold reservedNames stems
  rw [List.map_flatMap]
  congr 1
  funext x
  cases x with
  | operation o => cases h : o.name? <;> simp [h, resultName_eq, variablesName, Role.word]
  | _ => rfl

/-- The contributions are those for results, for variables and for fragments. -/
theorem stems_perm (dedupe : Bool) (d : Document) :
    let results := (operationNames d).map fun o => (stem dedupe o.1 o.2, Role.result o.2)
    (stems dedupe d).Perm (results ++ results.map (fun x => (x.1 ++ x.2.word, .variables)) ++
      (fragmentNames d).map fun name => (Naming.pascalCase name, .fragment)) := by
  obtain ⟨ds⟩ := d
  induction ds with
  | nil => exact .nil
  | cons x rest ih =>
    dsimp only at ih ⊢
    cases x with
    | operation o =>
      cases h : o.name? with
      | none => simpa [stems, operationNames, fragmentNames, h] using ih
      | some name =>
        rw [List.append_assoc] at ih
        have hvariables :=
          (ih.cons (stem dedupe name o.kind ++ (Role.result o.kind).word, .variables)).trans
            List.perm_middle.symm
        simpa [stems, operationNames, fragmentNames, h, resultName_eq] using hvariables
    | fragment f =>
      have hfragment := (ih.cons (Naming.pascalCase f.name, .fragment)).trans List.perm_middle.symm
      simpa [stems, operationNames, fragmentNames] using hfragment
    | _ => simpa [stems, operationNames, fragmentNames] using ih

/-- **Names.** The names that definitions take are different exactly if no two operations of one
kind contribute the same, and no two fragments are the same in Pascal case. Names of ASCII
characters that are the same in Pascal case differ in underscores and capitals only. -/
theorem reservedNames_nodup_iff (dedupe : Bool) (d : Document) :
    ((reservedNames dedupe d).Nodup ↔
      ((operationNames d).map fun o => (stem dedupe o.1 o.2, o.2)).Nodup ∧
        ((fragmentNames d).map Naming.pascalCase).Nodup) ∧
    ∀ a b : String, Naming.IsAscii a.toList → Naming.IsAscii b.toList →
      Naming.pascalCase a = Naming.pascalCase b →
      Naming.letters a.toList = Naming.letters b.toList := by
  refine ⟨?_, fun a b => Naming.letters_of_pascalCase_eq⟩
  have hresults : ((operationNames d).map fun o => (stem dedupe o.1 o.2, Role.result o.2)).Nodup ↔
      ((operationNames d).map fun o => (stem dedupe o.1 o.2, o.2)).Nodup := by
    have hmap : Function.Injective fun x : String × OperationKind => (x.1, Role.result x.2) := by
      rintro ⟨s, k⟩ ⟨t, l⟩ h
      simpa using h
    rw [← List.nodup_map_iff hmap, List.map_map]
    rfl
  have hfragments :
      ((fragmentNames d).map fun name => (Naming.pascalCase name, Role.fragment)).Nodup ↔
      ((fragmentNames d).map Naming.pascalCase).Nodup := by
    have hmap : Function.Injective fun name : String => (name, Role.fragment) := fun s t h => by
      simpa using h
    rw [← List.nodup_map_iff hmap, List.map_map]
    rfl
  have hvariables : Function.Injective fun x : String × Role => (x.1 ++ x.2.word, Role.variables) :=
    fun x y h => append_word_injective (Prod.mk.inj h).1
  rw [reservedNames_eq, List.nodup_map_iff append_word_injective, (stems_perm dedupe d).nodup_iff,
    List.nodup_append, List.nodup_append, List.nodup_map_iff hvariables, hresults, hfragments]
  grind

/-- A query, a mutation and a fragment of one name. -/
def namesakes : Document :=
  ⟨[.operation { name? := some "Add", selections := [.field none "x" [] [] none] },
    .operation {
      kind := .mutation, name? := some "Add", selections := [.field none "x" [] [] none] },
    .fragment { name := "Add", on := "A", selections := [.field none "x" [] [] none] }]⟩

theorem reservedNames_nodup_iff_namesakes :
    (∀ dedupe, (reservedNames dedupe namesakes).Nodup) ∧
      Naming.letters "foo_bar".toList = Naming.letters "fooBar".toList := by
  refine ⟨fun dedupe => (reservedNames_nodup_iff dedupe namesakes).1.mpr ?_,
    (reservedNames_nodup_iff false namesakes).2 "foo_bar" "fooBar" (by decide) (by decide)
      (by decide +kernel)⟩
  cases dedupe <;> decide +kernel

/-- Two queries whose names differ in a capital. -/
def twins : Document :=
  ⟨["fooBar", "FooBar"].map fun name =>
    .operation { name? := some name, selections := [.field none "x" [] [] none] }⟩

/-- Definitions with different names may take the same ones. -/
theorem reserved_twice :
    ((operationNames twins).map (·.1)).Nodup ∧ (fragmentNames twins).Nodup ∧
      ∀ dedupe, ¬ (reservedNames dedupe twins).Nodup := by
  refine ⟨by decide, by decide, fun dedupe => ?_⟩
  cases dedupe <;> decide +kernel

end Graphwright.OperationTypes
