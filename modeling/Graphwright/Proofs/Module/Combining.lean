import Graphwright.Proofs.Module.Block
import Graphwright.Proofs.Module.Merging

/-!
# Combined parts

The text of each part relies on the names that its own imports bind. A combined module has one block
of imports for all parts, in which an import that several parts have keeps the name that the first
of them gives it. So parts that bind what they need when each is a module of its own may lose names
together: one import may have other names in other parts, and one name may stand for other imports.

* `Compatible`: the parts give one import one name, and no import of theirs binds a name of another
  one.
* `serves_of_compatible`: then the combined block provides the imports of all parts.
* `compatible_of_serves`: nothing less will do, as long as no import comes with another one.
* `combine_keeps_names`: both for the parts of a module.
-/
namespace Graphwright.Module

/-! ## Imports that go together -/

/-- An import gives one name to each thing, and what the imports bind leaves the names of all of
them alone. The flag that the block tests counts among them. What comes from the future runs. -/
structure Compatible (b : ImportBlock) (is : List Import) : Prop where
  names : ∀ i ∈ is ++ b.tested, ∀ j ∈ is ++ b.tested, i.key = j.key → i.localName = j.localName
  bindings : ∀ i ∈ is ++ b.tested, ∀ j ∈ is ++ b.tested, ∀ x ∈ j.bindings, i.Tolerates x
  future : ∀ s ∈ b.checking, s.source ≠ Registry.futureModule

/-- What is imported by one import comes with no other one, nor is it the flag of type checkers. -/
structure Apart (is : List Import) : Prop where
  flag : ∀ i ∈ is, i.target ≠ Registry.checkingFlag.target
  sole : ∀ i ∈ is, ∀ j ∈ is, ∀ x ∈ j.bindings, x.target = i.target → j.key = i.key

instance (b : ImportBlock) (is : List Import) : Decidable (Compatible b is) :=
  decidable_of_iff
    ((∀ i ∈ is ++ b.tested, ∀ j ∈ is ++ b.tested, i.key = j.key → i.localName = j.localName) ∧
      (∀ i ∈ is ++ b.tested, ∀ j ∈ is ++ b.tested, ∀ x ∈ j.bindings, i.Tolerates x) ∧
      ∀ s ∈ b.checking, s.source ≠ Registry.futureModule)
    ⟨fun h => ⟨h.1, h.2.1, h.2.2⟩, fun h => ⟨h.1, h.2, h.3⟩⟩

instance (is : List Import) : Decidable (Apart is) :=
  decidable_of_iff
    ((∀ i ∈ is, i.target ≠ Registry.checkingFlag.target) ∧
      ∀ i ∈ is, ∀ j ∈ is, ∀ x ∈ j.bindings, x.target = i.target → j.key = i.key)
    ⟨fun h => ⟨h.1, h.2⟩, fun h => ⟨h.1, h.2⟩⟩

/-- The import follows the grammar, and can be referred to. -/
structure Import.IsSound (i : Import) : Prop where
  valid : i.statement.isValid
  head : i.localName.toList.head? ≠ some '.'

theorem isSound_of_serves {r : Registry} (h : r.block.Serves r.imports) :
    ∀ i ∈ r.imports, i.IsSound := by
  intro i hi
  have hbound := ImportBlock.bindingsFor_mono (h.provides i hi).bound
  obtain ⟨s, hs, hx⟩ := List.mem_flatMap.mp hbound
  exact ⟨Registry.isValid_block.mp h.runs.valid i hi,
    Statement.head?_of_mem_bindings (h.runs.valid s hs) hx⟩

theorem isSound_checkingFlag : Registry.checkingFlag.IsSound := ⟨by decide, by decide⟩

theorem bindings_checkingFlag : Registry.checkingFlag.bindings =
    [⟨Registry.checkingFlag.localName, Registry.checkingFlag.target⟩] := rfl

/-! ## Merged imports -/

section Merged

/-- The registry that holds the imports of several ones. -/
def merged (separate : Bool) (is : List Import) : Registry := ⟨separate, Registry.joint is⟩

variable {separate : Bool} {is : List Import}

/-- A merged registry has the imports of the registries, but for when they are needed. -/
theorem exists_like {k : Import} (h : k ∈ (merged separate is).imports) :
    ∃ i ∈ is, k.key = i.key ∧ k.localName = i.localName ∧ k.statement = i.statement := by
  obtain ⟨i, hi, hkey, hname⟩ := Registry.exists_of_mem_joint h
  obtain ⟨hsymbol, hsource⟩ := Prod.mk.inj hkey
  refine ⟨i, hi, hkey, ?_, ?_⟩
  · simp only [Import.localName, Import.rename?, hsymbol, hsource, hname]
  · simp only [Import.statement, Import.rename?, hsymbol, hsource, hname]

/-- All that is bound comes from an import of the registries, or from the flag. -/
theorem exists_binding {x : Binding} (h : x ∈ (merged separate is).block.bindingsFor .typing) :
    ∃ i ∈ is ++ (merged separate is).block.tested, x ∈ i.bindings := by
  obtain ⟨k, hk, hx⟩ := Registry.exists_of_mem_bindingsFor h
  rcases List.mem_append.mp hk with hk | hk
  · obtain ⟨i, hi, -, -, hstatement⟩ := exists_like hk
    exact ⟨i, List.mem_append_left _ hi, by rwa [Import.bindings, ← hstatement]⟩
  · exact ⟨k, List.mem_append_right _ hk, hx⟩

/-- Imports that go together are named in the merged registry as any import with their key. -/
theorem Compatible.localName_eq (h : Compatible (merged separate is).block is) {i k : Import}
    (hi : i ∈ is ++ (merged separate is).block.tested) (hk : k ∈ (merged separate is).imports)
    (hkey : k.key = i.key) : k.localName = i.localName := by
  obtain ⟨j, hj, hjkey, hjname, -⟩ := exists_like hk
  exact hjname.trans (h.names j (List.mem_append_left _ hj) i hi (hjkey.symm.trans hkey))

theorem Compatible.tolerates (h : Compatible (merged separate is).block is) {i : Import}
    (hi : i ∈ is ++ (merged separate is).block.tested) {x : Binding}
    (hx : x ∈ (merged separate is).block.bindingsFor .typing) : i.Tolerates x := by
  obtain ⟨j, hj, hx⟩ := exists_binding hx
  exact h.bindings i hi j hj x hx

variable (hsound : ∀ i ∈ is, i.IsSound)

include hsound

theorem isSound_merged : ∀ k ∈ (merged separate is).imports, k.IsSound := by
  intro k hk
  obtain ⟨i, hi, -, hname, hstatement⟩ := exists_like hk
  exact ⟨hstatement ▸ (hsound i hi).valid, hname ▸ (hsound i hi).head⟩

/-- What an import binds is bound where it is needed, if the merged registry has it under its
name. -/
theorem mem_bindingsFor_of_name {i : Import} (hi : i ∈ is)
    (hname : ∀ k ∈ (merged separate is).imports, k.key = i.key → k.localName = i.localName)
    {x : Binding} (hx : x ∈ i.bindings) : x ∈ (merged separate is).block.bindingsFor i.kind := by
  obtain ⟨k, hjoint, hkey, hkind⟩ := Registry.exists_joint hi
  have hk : k ∈ (merged separate is).imports := hjoint
  have hks : k.IsSound := isSound_merged hsound k hk
  have hbindings : k.bindings = i.bindings :=
    Import.bindings_congr hks.valid hks.head (hsound i hi).valid hkey (hname k hk hkey)
  have hbound : x ∈ (merged separate is).block.bindingsFor k.kind :=
    Registry.mem_bindingsFor_of_mem hk (hbindings ▸ hx)
  cases hi : i.kind with
  | runtime => rwa [hkind hi] at hbound
  | typing => exact ImportBlock.bindingsFor_mono hbound

/-! ### What suffices -/

theorem provides_flag (h : Compatible (merged separate is).block is)
    (hne : (merged separate is).block.checking ≠ []) :
    (merged separate is).block.Provides Registry.checkingFlag := by
  have htested := List.mem_append_right is (ImportBlock.mem_tested hne)
  obtain ⟨k, hk, hkey, hbound⟩ := Registry.exists_flag hne
  refine ⟨hbound _ ?_, fun x => h.tolerates htested⟩
  have hself := Import.self_mem_bindings isSound_checkingFlag.valid isSound_checkingFlag.head
  rcases List.mem_append.mp hk with hk | hk
  · -- the flag is recorded, under its own name
    have hks := isSound_merged hsound k hk
    rwa [Import.bindings_congr hks.valid hks.head isSound_checkingFlag.valid hkey
      (h.localName_eq htested hk hkey)]
  · rwa [(ImportBlock.eq_of_mem_tested hk).2]

/-- **Sufficient.** A merged block provides imports that go together. -/
theorem serves_of_compatible (h : Compatible (merged separate is).block is) :
    (merged separate is).block.Serves is := by
  refine ⟨⟨?_, h.future, provides_flag hsound h⟩, fun i hi => ⟨?_, fun x => ?_⟩⟩
  · exact Registry.isValid_block.mpr fun k hk => (isSound_merged hsound k hk).valid
  · exact mem_bindingsFor_of_name hsound hi (fun k => h.localName_eq (List.mem_append_left _ hi))
      (Import.self_mem_bindings (hsound i hi).valid (hsound i hi).head)
  · exact h.tolerates (List.mem_append_left _ hi)

/-! ### What is necessary -/

variable (ha : Apart is) (h : (merged separate is).block.Serves is)

include ha h

/-- If an import is provided, the merged registry has it under its name. -/
theorem localName_of_serves {i k : Import} (hi : i ∈ is) (hk : k ∈ (merged separate is).imports)
    (hkey : k.key = i.key) : k.localName = i.localName := by
  have hbound := ImportBlock.bindingsFor_mono (h.provides i hi).bound
  obtain ⟨l, hl, hx⟩ := Registry.exists_of_mem_bindingsFor hbound
  rcases List.mem_append.mp hl with hl | hl
  · -- the import that binds the name is the one with the key of the import
    obtain ⟨j, hj, hljkey, hljname, hstatement⟩ := exists_like hl
    have hxj : ⟨i.localName, i.target⟩ ∈ j.bindings := by rwa [Import.bindings, ← hstatement]
    have hjkey : j.key = i.key := ha.sole i hi j hj _ hxj rfl
    have hkl : k = l := Registry.eq_of_key_joint hk hl (hkey.trans (hjkey.symm.trans hljkey.symm))
    have hname : i.localName = j.localName :=
      Import.name_of_mem_bindings (hsound j hj).valid (hsound j hj).head hxj
        (Import.target_congr hjkey).symm
    rw [hkl, hljname, hname]
  · rw [(ImportBlock.eq_of_mem_tested hl).2, bindings_checkingFlag] at hx
    exact absurd (Binding.mk.inj (List.mem_singleton.mp hx)).2 (ha.flag i hi)

/-- Whatever the imports bind is bound in the merged block. -/
theorem mem_bindingsFor_of_serves {j : Import} (hj : j ∈ is ++ (merged separate is).block.tested)
    {x : Binding} (hx : x ∈ j.bindings) : x ∈ (merged separate is).block.bindingsFor .typing := by
  rcases List.mem_append.mp hj with hj | hj
  · exact ImportBlock.bindingsFor_mono
      (mem_bindingsFor_of_name hsound hj (fun k => localName_of_serves hsound ha h hj) hx)
  · obtain ⟨hne, rfl⟩ := ImportBlock.eq_of_mem_tested hj
    rw [List.mem_singleton.mp hx]
    exact ImportBlock.bindingsFor_mono (h.runs.flag hne).bound

/-- **Necessary.** A merged block provides imports that do not come with each other only if they go
together. -/
theorem compatible_of_serves : Compatible (merged separate is).block is := by
  have hkey {i j : Import} (hi : i ∈ is) (hj : j ∈ (merged separate is).block.tested) :
      i.key ≠ j.key :=
    fun hkey => ha.flag i hi
      ((Import.target_congr hkey).trans
        (congrArg Import.target (ImportBlock.eq_of_mem_tested hj).2))
  refine ⟨fun i hi j hj hij => ?_, fun i hi j hj x hx => ?_, h.runs.future⟩
  · rcases List.mem_append.mp hi with hi | hi <;> rcases List.mem_append.mp hj with hj | hj
    · obtain ⟨k, hk, hki, -⟩ := Registry.exists_joint hi
      exact (localName_of_serves hsound ha h hi hk hki).symm.trans
        (localName_of_serves hsound ha h hj hk (hki.trans hij))
    · exact absurd hij (hkey hi hj)
    · exact absurd hij.symm (hkey hj hi)
    · rw [(ImportBlock.eq_of_mem_tested hi).2, (ImportBlock.eq_of_mem_tested hj).2]
  · have hx := mem_bindingsFor_of_serves hsound ha h hj hx
    rcases List.mem_append.mp hi with hi | hi
    · exact (h.provides i hi).only x hx
    · obtain ⟨hne, rfl⟩ := ImportBlock.eq_of_mem_tested hi
      exact (h.runs.flag hne).only x hx

end Merged

/-! ## Parts -/

def importsOf (parts : List Part) : List Import := parts.flatMap (·.imports.imports)

namespace Part

/-- The imports of a module made of parts. -/
def joined : List Part → Registry
  | [] => {}
  | first :: rest => (join first (first :: rest)).imports

theorem joined_eq (parts : List Part) :
    ∃ separate, joined parts = merged separate (importsOf parts) := by
  cases parts with
  | nil => exact ⟨false, rfl⟩
  | cons first rest => exact ⟨first.imports.separateTyping, imports_join first (first :: rest)⟩

/-- The module made of parts has the one block of their imports. -/
theorem combine_eq {parts : List Part} (h : parts ≠ []) : ∃ header? body extras,
    combine parts = assemble header? (joined parts).texts body extras none := by
  cases parts with
  | nil => exact absurd rfl h
  | cons first rest => exact ⟨_, _, _, rfl⟩

/-- **Combining.** Let each of several parts have an import block that provides its own imports. The
block of the module made of them provides the imports of all parts if these go together; as long as
none of them comes with another one, it does so only then. -/
theorem combine_keeps_names (parts : List Part)
    (h : ∀ p ∈ parts, p.imports.block.Serves p.imports.imports) :
    (parts ≠ [] → ∃ header? body extras,
      combine parts = assemble header? (joined parts).block.texts body extras none) ∧
    (Compatible (joined parts).block (importsOf parts) →
      (joined parts).block.Serves (importsOf parts)) ∧
    (Apart (importsOf parts) → (joined parts).block.Serves (importsOf parts) →
      Compatible (joined parts).block (importsOf parts)) := by
  have hsound : ∀ i ∈ importsOf parts, i.IsSound := by
    intro i hi
    obtain ⟨p, hp, hi⟩ := List.mem_flatMap.mp hi
    exact isSound_of_serves (h p hp) i hi
  obtain ⟨separate, hjoined⟩ := joined_eq parts
  refine ⟨combine_eq, ?_, ?_⟩
  · rw [hjoined]
    exact serves_of_compatible hsound
  · rw [hjoined]
    exact compatible_of_serves hsound

def ofImports (is : List Import) : Part := { imports := { separateTyping := true, imports := is } }

/-- Two parts that share a module and a symbol; the first also has an import for type checkers
only. -/
def sharing : List Part := [
  ofImports [⟨"Optional", "typing", .runtime, none⟩,
    ⟨wholeModule, "app.types", .runtime, some "Types"⟩, ⟨"User", "app.models", .typing, none⟩],
  ofImports [⟨wholeModule, "httpx", .runtime, none⟩, ⟨"Optional", "typing", .typing, none⟩,
    ⟨wholeModule, "app.types", .runtime, some "Types"⟩]]

theorem combine_keeps_names_sharing :
    Compatible (joined sharing).block (importsOf sharing) ∧
    (joined sharing).block.Serves (importsOf sharing) := by
  have hown : ∀ p ∈ sharing, p.imports.block.Serves p.imports.imports := by decide
  have hc : Compatible (joined sharing).block (importsOf sharing) := by decide
  exact ⟨hc, (combine_keeps_names sharing hown).2.1 hc⟩

/-- A part that imports a symbol under a name of its own. -/
def calling (name : String) : Part := ofImports [⟨"X", "m", .runtime, some name⟩]

/-- A part that imports a module under the name of a module of types. -/
def typesFrom (source : String) : Part :=
  ofImports [⟨wholeModule, source, .runtime, some typesName⟩]

/-- Two parts bind what they need; the module made of them does not bind the name of the second one,
or binds it to something else as well. -/
theorem combine_loses_names :
    (∀ p ∈ [calling "A", calling "B"], p.imports.block.Serves p.imports.imports) ∧
    (∀ x ∈ (joined [calling "A", calling "B"]).block.bindingsFor .typing, x.name ≠ "B") ∧
    ¬ (joined [calling "A", calling "B"]).block.Serves (importsOf [calling "A", calling "B"]) ∧
    (∀ p ∈ [typesFrom "a", typesFrom "b"], p.imports.block.Serves p.imports.imports) ∧
    ¬ (joined [typesFrom "a", typesFrom "b"]).block.Serves
      (importsOf [typesFrom "a", typesFrom "b"]) := by
  decide

end Part

end Graphwright.Module
