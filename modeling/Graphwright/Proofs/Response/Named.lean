import Graphwright.Proofs.Naming.Identifiers
import Graphwright.Proofs.Response.Declared

/-!
# Characters of the names of models

The names that operation types declare are made of names of the documents, which are turned into
Pascal case and put behind one another, of a few words, and of numbers. So all their characters are
those of names (`isNameText_blockOf`), for documents with names.
-/
namespace Graphwright.OperationTypes

open Graphwright.Document Graphwright.Module Graphwright.Types Graphwright.Response
open Naming (IsNameText isNameText_append isNameText_pascalCase)

theorem isNameText_allocate (a : Naming.Allocator) {owner key : String}
    (howner : IsNameText owner.toList) (hkey : IsName key) :
    IsNameText (a.allocate (owner ++ Naming.pascalCase key)).1.toList := by
  obtain ⟨digits, hdigits, hname⟩ := a.extends_fresh (owner ++ Naming.pascalCase key)
  have hchosen : (a.allocate (owner ++ Naming.pascalCase key)).1.toList =
      owner.toList ++ (Naming.pascalCase key).toList ++ digits := by
    rw [← String.toList_append, ← hname]
    rfl
  have hnumber : IsNameText digits :=
    fun c hc => by simp [isNameRest, Char.isAlphanum, hdigits c hc]
  rw [hchosen]
  exact isNameText_append.mpr ⟨isNameText_append.mpr ⟨howner, isNameText_pascalCase hkey⟩, hnumber⟩

mutual

theorem isNameText_memberOf (m : Mapper) {owner : String} (howner : IsNameText owner.toList) :
    ∀ (f : Field) (a : Naming.Allocator), Keyed IsName [f] →
      ∀ n ∈ namesBelow [((memberOf m owner f).run a).1], IsNameText n.toList
  | .mk key (some type) (some fields) conditional, a, .cons hkey hbelow _ => by
    have hname := isNameText_allocate a howner hkey
    rw [run_memberOf_node, namesBelow_cons_node, List.forall_mem_append, List.forall_mem_append]
    exact ⟨⟨isNameText_membersOf m hname fields _ (hbelow fields rfl),
      List.forall_mem_singleton.mpr hname⟩, nofun⟩
  | .mk key none children? conditional, a, _ => by
    rw [run_memberOf_leaf _ _ _ _ (.inl rfl)]
    exact nofun
  | .mk key (some type) none conditional, a, _ => by
    rw [run_memberOf_leaf _ _ _ _ (.inr rfl)]
    exact nofun

theorem isNameText_membersOf (m : Mapper) {owner : String} (howner : IsNameText owner.toList) :
    ∀ (fs : List Field) (a : Naming.Allocator), Keyed IsName fs →
      ∀ n ∈ namesBelow ((membersOf m owner fs).run a).1, IsNameText n.toList
  | [], a, _ => by
    rw [membersOf]
    exact nofun
  | f :: rest, a, hfields => by
    obtain ⟨hf, hrest⟩ := keyed_append.mp (show Keyed IsName ([f] ++ rest) from hfields)
    rw [run_membersOf_cons, namesBelow_cons]
    exact List.forall_mem_append.mpr
      ⟨isNameText_memberOf m howner f a hf, isNameText_membersOf m howner rest _ hrest⟩

end

theorem isNameText_resultName (dedupe : Bool) {name : String} (h : IsName name)
    (kind : OperationKind) : IsNameText (resultName dedupe name kind).toList := by
  have hkind : IsNameText (Naming.pascalCase kind.keyword).toList :=
    (Naming.role_word_spec (.result kind)).2.1
  unfold resultName Naming.operationTypeName
  dsimp only
  split
  · exact isNameText_pascalCase h
  · rw [String.toList_append]
    exact isNameText_append.mpr ⟨isNameText_pascalCase h, hkind⟩

theorem isNameText_fragmentTypeName {name : String} (h : IsName name) :
    IsNameText (Naming.fragmentTypeName name).toList := by
  rw [Naming.fragmentTypeName, String.toList_append]
  exact isNameText_append.mpr ⟨isNameText_pascalCase h, by decide⟩

/-- The names that a definition with a name takes by itself. -/
theorem isNameText_ownNames (dedupe : Bool) {sh : Shape} (h : sh.IsNamed) :
    ∀ n ∈ ownNames dedupe sh, IsNameText n.toList := by
  cases sh with
  | operation name o fields =>
    have hresult := isNameText_resultName dedupe h.1 o.kind
    refine List.forall_mem_cons.mpr ⟨hresult, List.forall_mem_singleton.mpr ?_⟩
    rw [variablesName, String.toList_append]
    exact isNameText_append.mpr ⟨hresult, by decide⟩
  | fragment f fields => exact List.forall_mem_singleton.mpr (isNameText_fragmentTypeName h.1)

/-- **Names.** A definition with names declares names whose characters are those of names. -/
theorem isNameText_blockOf (m : Mapper) (dedupe : Bool) {sh : Shape} (h : sh.IsNamed)
    (a : Naming.Allocator) : ∀ n ∈ ((blockOf m dedupe sh).run a).1.names, IsNameText n.toList := by
  intro n hn
  have hown := isNameText_ownNames dedupe h
  rcases List.mem_append.mp ((names_blockOf m dedupe sh a).mem_iff.mp hn) with hn | hn
  · exact hown n hn
  · cases sh with
    | operation name o fields =>
      exact isNameText_membersOf m (hown _ List.mem_cons_self) fields a h.2 n hn
    | fragment f fields =>
      exact isNameText_membersOf m (hown _ List.mem_cons_self) fields a h.2 n hn

end Graphwright.OperationTypes
