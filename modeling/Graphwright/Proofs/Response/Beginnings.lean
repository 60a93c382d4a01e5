import Graphwright.Proofs.Response.Declared
import Graphwright.Proofs.Response.Reserved
import Mathlib.Data.List.Infix

/-!
# How names of operation types begin

A model below another one is called like that one, with the name of its field and perhaps a number
behind it. So every name that operation types declare begins with the one that some definition
takes, the result of an operation or the model of a fragment (`begins_of_mem_names`). In it is the
word for what that one stands for (`hasWord_of_mem_names`), hence a small letter.
-/
namespace Graphwright.OperationTypes

open Graphwright.Document Graphwright.Module Graphwright.Types Graphwright.Response

def Begins (first name : String) : Prop := first.toList <+: name.toList

instance (first name : String) : Decidable (Begins first name) :=
  inferInstanceAs (Decidable (first.toList <+: name.toList))

theorem Begins.refl (name : String) : Begins name name := List.prefix_refl _

theorem Begins.trans {a b c : String} (h : Begins a b) (h' : Begins b c) : Begins a c :=
  List.IsPrefix.trans h h'

theorem begins_append (a b : String) : Begins a (a ++ b) := by
  unfold Begins
  rw [String.toList_append]
  exact List.prefix_append _ _

theorem begins_fresh (a : Naming.Allocator) (name : String) : Begins name (a.fresh name) := by
  obtain ⟨digits, -, h⟩ := Naming.Allocator.extends_fresh a name
  unfold Begins
  rw [h]
  exact List.prefix_append _ _

/-! ## Models below a model -/

mutual

theorem begins_memberOf (m : Mapper) (owner : String) : ∀ (f : Field) (a : Naming.Allocator),
    ∀ n ∈ namesBelow [((memberOf m owner f).run a).1], Begins owner n
  | .mk key (some type) (some fields) conditional, a => by
    intro n hn
    rw [run_memberOf_node, namesBelow_cons_node] at hn
    have hname : Begins owner (a.fresh (owner ++ Naming.pascalCase key)) :=
      (begins_append _ _).trans (begins_fresh a _)
    rcases List.mem_append.mp hn with hn | hn
    · rcases List.mem_append.mp hn with hn | hn
      · exact hname.trans (begins_membersOf m _ fields _ n hn)
      · rw [List.mem_singleton.mp hn]
        exact hname
    · cases hn
  | .mk key none children? conditional, a => by
    rw [run_memberOf_leaf _ _ _ _ (.inl rfl)]
    exact nofun
  | .mk key (some type) none conditional, a => by
    rw [run_memberOf_leaf _ _ _ _ (.inr rfl)]
    exact nofun

theorem begins_membersOf (m : Mapper) (owner : String) : ∀ (fs : List Field) (a : Naming.Allocator),
    ∀ n ∈ namesBelow ((membersOf m owner fs).run a).1, Begins owner n
  | [], a => by
    rw [membersOf]
    exact nofun
  | f :: rest, a => by
    rw [run_membersOf_cons, namesBelow_cons]
    intro n hn
    rcases List.mem_append.mp hn with hn | hn
    · exact begins_memberOf m owner f a n hn
    · exact begins_membersOf m owner rest _ n hn

end

/-! ## Blocks -/

theorem begins_blockOf (m : Mapper) (dedupe : Bool) (sh : Shape) (a : Naming.Allocator) :
    ∀ n ∈ ((blockOf m dedupe sh).run a).1.names, ∃ r ∈ ownNames dedupe sh, Begins r n := by
  intro n hn
  rcases List.mem_append.mp ((names_blockOf m dedupe sh a).mem_iff.mp hn) with hn | hn
  · exact ⟨n, hn, .refl n⟩
  · cases sh with
    | operation name o fields => exact ⟨_, List.mem_cons_self, begins_membersOf m _ fields a n hn⟩
    | fragment f fields => exact ⟨_, List.mem_cons_self, begins_membersOf m _ fields a n hn⟩

theorem begins_mapM_blockOf (m : Mapper) (dedupe : Bool) (found : List Shape)
    (a : Naming.Allocator) :
    ∀ n ∈ ((found.mapM (blockOf m dedupe)).run a).1.flatMap (·.names),
      ∃ r ∈ found.flatMap (ownNames dedupe), Begins r n := by
  induction found generalizing a with
  | nil => exact nofun
  | cons sh rest ih =>
    rw [run_mapM_cons]
    intro n hn
    simp only [List.flatMap_cons, List.mem_append] at hn ⊢
    rcases hn with hn | hn
    · obtain ⟨r, hr, hb⟩ := begins_blockOf m dedupe sh a n hn
      exact ⟨r, .inl hr, hb⟩
    · obtain ⟨r, hr, hb⟩ := ih _ n hn
      exact ⟨r, .inr hr, hb⟩

/-- **Beginnings.** Every name that the operation types of a document declare begins with one that
its definitions take. -/
theorem begins_of_mem_names {s : Schema} {d : Document} {found : List Shape} (o : Options)
    (h : Shaped ⟨s, fragmentsOf d⟩ d.definitions found) :
    ∀ n ∈ (blocksOf s d o found).flatMap (·.names),
      ∃ r ∈ reservedNames o.dedupeSuffix d, Begins r n := by
  intro n hn
  obtain ⟨r, hr, hb⟩ := begins_mapM_blockOf _ o.dedupeSuffix found _ n hn
  rw [ownNames_shaped h] at hr
  exact ⟨r, hr, hb⟩

/-! ## Words -/

/-- The word for a result or for the model of a fragment is in the name. -/
def HasWord (name : String) : Prop :=
  ∃ r ∈ Role.all, r ≠ .variables ∧ r.word.toList <:+: name.toList

theorem hasWord_of_begins {first name : String} (h : HasWord first) (hb : Begins first name) :
    HasWord name := by
  obtain ⟨r, hr, hne, hword⟩ := h
  exact ⟨r, hr, hne, hword.trans hb.isInfix⟩

theorem hasWord_append_word (s : String) {r : Role} (hne : r ≠ .variables) :
    HasWord (s ++ r.word) := by
  refine ⟨r, r.mem_all, hne, ?_⟩
  rw [String.toList_append]
  exact (List.suffix_append _ _).isInfix

/-- A reserved name ends in a word for what it stands for, and has one for a result or a fragment in
it. -/
theorem hasWord_of_reserved {dedupe : Bool} {d : Document} :
    ∀ n ∈ reservedNames dedupe d, HasWord n ∧ ∃ s r, n = s ++ Role.word r := by
  intro n hn
  obtain ⟨x, -, hx⟩ := List.mem_flatMap.mp hn
  cases x with
  | fragment f =>
    obtain rfl := List.mem_singleton.mp hx
    exact ⟨hasWord_append_word _ (r := .fragment) nofun, _, .fragment, rfl⟩
  | operation o =>
    cases hname : o.name? with
    | none => simp [hname] at hx
    | some name =>
      have hresult : HasWord (resultName dedupe name o.kind) := by
        rw [resultName_eq]
        exact hasWord_append_word _ nofun
      simp only [hname, List.mem_cons, List.not_mem_nil, or_false] at hx
      rcases hx with rfl | rfl
      · exact ⟨hresult, _, .result o.kind, resultName_eq ..⟩
      · exact ⟨hasWord_of_begins hresult (begins_append _ _), _, .variables, rfl⟩
  | _ => cases hx

theorem HasWord.exists_isLower {name : String} (h : HasWord name) :
    ∃ c ∈ name.toList, c.isLower := by
  have hall : ∀ r ∈ Role.all, r.word.toList.any Char.isLower := by
    decide +kernel
  obtain ⟨r, hr, -, hword⟩ := h
  obtain ⟨c, hc, hlower⟩ := List.any_eq_true.mp (hall r hr)
  exact ⟨c, hword.subset hc, hlower⟩

theorem exists_last_isLower {dedupe : Bool} {d : Document} {n : String}
    (h : n ∈ reservedNames dedupe d) : ∃ c, n.toList.getLast? = some c ∧ c.isLower := by
  have hall : ∀ r ∈ Role.all, r.word.toList.getLast?.any Char.isLower := by
    decide +kernel
  obtain ⟨-, s, r, rfl⟩ := hasWord_of_reserved n h
  obtain ⟨c, hc, hlower⟩ := (Option.any_eq_true ..).mp (hall r r.mem_all)
  exact ⟨c, by simp [List.getLast?_append, hc], hlower⟩

end Graphwright.OperationTypes
