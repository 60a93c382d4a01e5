import Graphwright.Proofs.Document.Proper
import Graphwright.Proofs.Response.Joining
import Graphwright.Proofs.Response.Shapes

/-!
# Keys of response fields

The keys of a response are names of fields, or other names that selections give them. What is asked
of all these names holds of the keys of all fields that selections ask for, at every depth: merging
and conditions change no key (`keyed_merge`, `Asks.keyed`). The documents that are read from texts
have names only, so the shapes of such a document are named (`named_shaped`).
-/
namespace Graphwright.Response

open Document

/-! ## Keys in a forest -/

/-- The keys of fields, and of those below them, have a property. -/
inductive Keyed (P : String → Prop) : List Field → Prop
  | nil : Keyed P []
  | cons {key type? children? conditional rest} : P key →
      (∀ own, children? = some own → Keyed P own) → Keyed P rest →
      Keyed P (.mk key type? children? conditional :: rest)

variable {P : String → Prop}

theorem keyed_iff {fs : List Field} :
    Keyed P fs ↔ ∀ f ∈ fs, P f.name ∧ ∀ own, f.children? = some own → Keyed P own := by
  constructor
  · intro h
    induction fs with
    | nil => exact nofun
    | cons f rest ih =>
      cases h with
      | cons hkey hown hrest => exact List.forall_mem_cons.mpr ⟨⟨hkey, hown⟩, ih hrest⟩
  · intro h
    induction fs with
    | nil => exact .nil
    | cons f rest ih =>
      obtain ⟨⟨hkey, hown⟩, hrest⟩ := List.forall_mem_cons.mp h
      cases f
      exact .cons hkey hown (ih hrest)

theorem keyed_append {fs gs : List Field} : Keyed P (fs ++ gs) ↔ Keyed P fs ∧ Keyed P gs :=
  (keyed_iff.trans List.forall_mem_append).trans (and_congr keyed_iff.symm keyed_iff.symm)

theorem Keyed.of_subset {fs gs : List Field} (h : Keyed P gs) (hsub : fs ⊆ gs) : Keyed P fs :=
  keyed_iff.mpr fun f hf => keyed_iff.mp h f (hsub hf)

theorem Keyed.childrenOf {fs : List Field} (h : Keyed P fs) : Keyed P (Field.childrenOf fs) := by
  refine keyed_iff.mpr fun g hg => ?_
  obtain ⟨f, hf, hg⟩ := List.mem_flatMap.mp hg
  cases hown : f.children? with
  | none =>
    rw [hown] at hg
    cases hg
  | some own =>
    rw [hown] at hg
    exact keyed_iff.mp ((keyed_iff.mp h f hf).2 own hown) g hg

theorem keyed_merge : ∀ {fs : List Field}, Keyed P fs → Keyed P (merge fs)
  | [], _ => by
    rw [merge]
    exact .nil
  | f :: rest, h => by
    obtain ⟨g, hj, hm⟩ := merge_cons f rest
    obtain ⟨⟨hkey, hown⟩, hrest⟩ := List.forall_mem_cons.mp (keyed_iff.mp h)
    have hrest := keyed_iff.mpr hrest
    have hunnamed := keyed_merge
      (hrest.of_subset (List.filter_sublist.subset : Field.unnamed f.name rest ⊆ rest))
    rw [hm]
    refine keyed_iff.mpr
      (List.forall_mem_cons.mpr ⟨⟨hj.name ▸ hkey, fun below hbelow => ?_⟩, keyed_iff.mp hunnamed⟩)
    cases hchildren : f.children? with
    | none =>
      rw [hj.leaf hchildren] at hbelow
      cases hbelow
    | some own =>
      have hsame := (hrest.of_subset
        (List.filter_sublist.subset : Field.named f.name rest ⊆ rest)).childrenOf
      rcases hj.node own hchildren with hjoined | ⟨hjoined, -⟩
      · rw [hjoined] at hbelow
        obtain rfl := Option.some.inj hbelow
        exact keyed_merge (keyed_append.mpr ⟨hown own hchildren, hsame⟩)
      · rw [hjoined] at hbelow
        obtain rfl := Option.some.inj hbelow
        exact hown own hchildren
termination_by fs => Field.sizeAll fs
decreasing_by
  · have h := Field.sizeAll_filter_le (·.name != f.name) rest
    simp only [Field.sizeAll, Field.size_eq]
    omega
  · have h := Field.sizeAll_childrenOf_le (Field.named f.name rest)
    have h' := Field.sizeAll_filter_le (·.name == f.name) rest
    simp only [Field.sizeAll_append, Field.sizeAll, Field.size_eq, hchildren, Field.sizeOption,
      Field.named] at h ⊢
    omega

/-- A condition changes no key. -/
theorem Keyed.mark {fs : List Field} (h : Keyed P fs) (conditional : Bool) :
    Keyed P (markConditional conditional fs) := by
  rw [markConditional]
  split_ifs
  · refine keyed_iff.mpr fun g hg => ?_
    obtain ⟨f, hf, rfl⟩ := List.mem_map.mp hg
    have hf := keyed_iff.mp h f hf
    cases f
    exact hf
  · exact h

/-! ## Keys that selections ask for -/

/-- The fragments that can be spread select fields with names. -/
def NamedFragments (fragments : List (String × Fragment)) : Prop :=
  ∀ name f, fragments.lookup name = some f → ∀ s ∈ f.selections, s.IsNamed

theorem Asks.keyed {env : Env} {parent? : Option TypeDefinition} {ss : List Selection}
    {fields : List Field} (h : Asks env parent? ss fields)
    (hfragments : NamedFragments env.fragments) (hss : ∀ s ∈ ss, s.IsNamed) :
    Keyed IsName fields := by
  have hgetD {alias? : Option String} {name : String} (halias : ∀ a ∈ alias?, IsName a)
      (hname : IsName name) :
      IsName (alias?.getD name) := by
    cases alias? with
    | none => exact hname
    | some a => exact halias a rfl
  induction h with
  | nil => exact .nil
  | typename _ ih | typenameOver _ _ _ ih | leaf _ _ _ ih =>
    obtain ⟨hs, hrest⟩ := List.forall_mem_cons.mp hss
    cases hs with
    | field halias hname _ => exact .cons (hgetD halias hname) nofun (ih hrest)
  | node _ _ _ _ ihBelow ih =>
    obtain ⟨hs, hrest⟩ := List.forall_mem_cons.mp hss
    cases hs with
    | field halias hname hsub =>
      refine .cons (hgetD halias hname) (fun own hown => ?_) (ih hrest)
      obtain rfl := Option.some.inj hown
      exact keyed_merge (ihBelow (hsub _ rfl))
  | inline _ _ ihBelow ih =>
    obtain ⟨hs, hrest⟩ := List.forall_mem_cons.mp hss
    cases hs with
    | inline hsub => exact keyed_append.mpr ⟨(keyed_merge (ihBelow hsub)).mark _, ih hrest⟩
  | spread hlookup _ _ _ ihBelow ih =>
    obtain ⟨-, hrest⟩ := List.forall_mem_cons.mp hss
    exact keyed_append.mpr ⟨(keyed_merge (ihBelow (hfragments _ _ hlookup))).mark _, ih hrest⟩

/-! ## Shapes -/

/-- A definition with a name whose fields have names. -/
def Shape.IsNamed : Shape → Prop
  | .operation name _ fields => IsName name ∧ Keyed IsName fields
  | .fragment f fields => IsName f.name ∧ Keyed IsName fields

theorem isNamed_concat {ds : List Document}
    (hds : ∀ d ∈ ds, ∃ source, Document.read source = .ok d) :
    ∀ x ∈ (Document.concat ds).definitions, x.IsNamed := by
  intro x hx
  obtain ⟨d, hd, hx⟩ := List.mem_flatMap.mp hx
  obtain ⟨source, hread⟩ := hds d hd
  exact isNamed_of_read hread x hx

theorem namedFragments_of_isNamed {d : Document} (h : ∀ x ∈ d.definitions, x.IsNamed) :
    NamedFragments (fragmentsOf d) :=
  fun _ _ hlookup => (h _ (mem_of_fragmentsOf hlookup).2).selections

theorem named_shaped {env : Env} {ds : List Definition} {found : List Shape}
    (h : Shaped env ds found) (hfragments : NamedFragments env.fragments)
    (hds : ∀ x ∈ ds, x.IsNamed) : ∀ sh ∈ found, sh.IsNamed := by
  induction h with
  | nil => exact nofun
  | @cons d fields ds shapes hfields _ ih =>
    obtain ⟨hd, hds⟩ := List.forall_mem_cons.mp hds
    refine List.forall_mem_append.mpr ⟨fun sh hsh => ?_, ih hds⟩
    cases d with
    | operation o =>
      obtain ⟨below, hbelow, rfl⟩ := hfields
      obtain ⟨name, hname, rfl⟩ := Option.map_eq_some_iff.mp (Option.mem_toList.mp hsh)
      exact ⟨hd.name name hname, keyed_merge (hbelow.keyed hfragments hd.selections)⟩
    | fragment f =>
      obtain ⟨below, hbelow, rfl⟩ := hfields
      obtain rfl := List.mem_singleton.mp hsh
      exact ⟨hd.name, keyed_merge (hbelow.keyed hfragments hd.selections)⟩
    | schema | type | directive => cases hsh

end Graphwright.Response
