import Graphwright.Proofs.Module.Block
import Graphwright.Proofs.Module.Reached
import Graphwright.Module.Declaration

/-!
# Names that declarations refer to

The annotations of a module refer to types by name. What a name has to be found among is said by
`Known`: the types that are built in, what the import block binds when the module runs, and the
declarations. What it is found among is worked out in two steps. Where a type expression is made,
every name in it is built in, is a symbol that has to be imported, or is left to some declaration;
that is carried from expressions to declarations and to the types of a module (`Refers`). The
symbols are then recorded, and a symbol that is recorded under its own name is bound in the block of
the module, after merging too (`exists_binding_of_recorded`).
-/
namespace Graphwright.Types

/-! ## Names in type expressions -/

/-- The names in a type expression, from the outside to the inside. -/
def Expr.names : Expr → List String
  | name text => [text]
  | list item => listSymbol.1 :: item.names
  | optional inner => optionalSymbol.1 :: inner.names

theorem Expr.names_ne_nil (e : Expr) : e.names ≠ [] := by
  cases e <;> exact List.cons_ne_nil _ _

/-- Names, each around the next one. -/
def nested (names : List String) : String :=
  "[".intercalate names ++ Text.repeated (names.length - 1) ']'

theorem nested_cons (first : String) {names : List String} (h : names ≠ []) :
    nested (first :: names) = first ++ "[" ++ nested names ++ "]" := by
  obtain ⟨n, hn⟩ : ∃ n, names.length = n + 1 :=
    Nat.exists_eq_add_one.mpr (List.length_pos_iff.mpr h)
  have hclosing : Text.repeated (n + 1) ']' = Text.repeated n ']' ++ "]" := by
    rw [Text.repeated, List.replicate_succ', String.ofList_append]
    rfl
  rw [nested, nested, String.intercalate_cons_of_ne_nil h, List.length_cons, Nat.add_sub_cancel, hn,
    hclosing, Nat.add_sub_cancel]
  simp only [String.append_assoc]

theorem nested_singleton (name : String) : nested [name] = name := by
  simp [nested, Text.repeated]

/-- The text of a type expression is its names, each around the next one. -/
theorem Expr.text_eq (e : Expr) : e.text = nested e.names := by
  induction e with
  | name own => exact (nested_singleton own).symm
  | list item ih =>
    rw [text, names, nested_cons _ item.names_ne_nil, ih]
    rfl
  | optional inner ih =>
    rw [text, names, nested_cons _ inner.names_ne_nil, ih]
    rfl

/-- The types in the table of scalars that are built in. -/
def ScalarTable.builtins (t : ScalarTable) : List String :=
  t.entries.filterMap fun e => if e.2.source?.isNone then some e.2.name else none

end Graphwright.Types

namespace Graphwright.Module

open Graphwright.Types (Resolved Symbol ScalarTable)

/-! ## Names in declarations -/

/-- The names that an annotation refers to. A given text is none. -/
def Annotation.names (r : Registry) : Annotation → List String
  | type t => t.expr.names
  | sometimes t => r.local Types.optionalSymbol :: t.expr.names
  | literal _ => [r.local literalSymbol]

/-- The text that an annotation gives for itself. -/
def Annotation.given : Annotation → List String
  | type _ | sometimes _ => []
  | literal value => ["\"" ++ value ++ "\""]

/-- The text of an annotation is its names and what it gives, each around the next one. -/
theorem Annotation.text_eq (r : Registry) (a : Annotation) :
    a.text r = Types.nested (a.names r ++ a.given) := by
  cases a with
  | type t =>
    rw [names, given, List.append_nil]
    exact t.expr.text_eq
  | sometimes t =>
    rw [names, given, List.append_nil, Types.nested_cons _ t.expr.names_ne_nil, ← t.expr.text_eq]
    rfl
  | literal value =>
    have hopening : "[\"" = "[" ++ "\"" := rfl
    have hclosing : "\"]" = "\"" ++ "]" := rfl
    rw [names, given, List.singleton_append, Types.nested_cons _ (List.cons_ne_nil _ _),
      Types.nested_singleton, text, hopening, hclosing]
    simp only [String.append_assoc]

def Entry.names (r : Registry) (e : Entry) : List String :=
  (if e.optional then [r.local missingSymbol] else []) ++ e.type.expr.names

def annotationsOf (as : List Attribute) : List Annotation := as.map fun a => a.annotation

/-- The annotations of the fields of a model, those of its members' models first. -/
def Model.annotations (m : Model) : List Annotation :=
  m.all.flatMap fun m => annotationsOf m.attributes

/-- The names that a declaration refers to, in the annotations of fields and variables and as
members of a union. -/
def Declaration.references (r : Registry) : Declaration → List String
  | model m => m.annotations.flatMap (·.names r)
  | enum _ _ _ => []
  | union _ _ members => members
  | mapping v => v.entries.flatMap (·.names r)

/-- A name is known in a module: it is built in, the import block binds it when the module runs, or
it is declared. -/
def Known (b : ImportBlock) (declared : List String) (n : String) : Prop :=
  n ∈ ScalarTable.initial.builtins ∨ n ∈ (b.bindingsFor .runtime).map (·.name) ∨ n ∈ declared

instance (b : ImportBlock) (declared : List String) (n : String) : Decidable (Known b declared n) :=
  inferInstanceAs (Decidable (_ ∨ _ ∨ _))

/-! ## What is accounted for -/

/-- A symbol with this name has to be imported. -/
def Imported (needs : List Symbol) (n : String) : Prop :=
  n ≠ wholeModule ∧ ∃ source, (n, source) ∈ needs

/-- The name is built in, or a symbol that has to be imported, or one of those that are left to
others. -/
def Accounted (needs : List Symbol) (owed : List String) (n : String) : Prop :=
  n ∈ ScalarTable.initial.builtins ∨ Imported needs n ∨ n ∈ owed

theorem Imported.mono {needs needs' : List Symbol} (h : needs ⊆ needs') {n : String}
    (hn : Imported needs n) : Imported needs' n :=
  ⟨hn.1, hn.2.imp fun _ hs => h hs⟩

theorem Accounted.mono {needs needs' : List Symbol} {owed owed' : List String}
    (hneeds : needs ⊆ needs') (howed : owed ⊆ owed') {n : String} (h : Accounted needs owed n) :
    Accounted needs' owed' n :=
  h.imp_right (Or.imp (Imported.mono hneeds) (fun hn => howed hn))

/-- Names that are accounted for, but for those that are left to declarations: the promised ones,
all of which are among the names, and own ones. -/
structure Refers (needs : List Symbol) (promised own names : List String) : Prop where
  accounted : ∀ n ∈ names, Accounted needs (promised ++ own) n
  mentions : promised ⊆ names

namespace Refers

variable {needs needs' : List Symbol} {promised promised' own own' names names' : List String}

theorem nil (needs : List Symbol) (own : List String) : Refers needs [] own [] := ⟨nofun, nofun⟩

theorem mono (hneeds : needs ⊆ needs') (hown : own ⊆ own') (h : Refers needs promised own names) :
    Refers needs' promised own' names :=
  ⟨fun n hn => (h.accounted n hn).mono hneeds (List.append_subset.mpr
    ⟨List.subset_append_left _ _, List.subset_append_of_subset_right _ hown⟩), h.mentions⟩

theorem append (h : Refers needs promised own names) (h' : Refers needs' promised' own' names') :
    Refers (needs ++ needs') (promised ++ promised') (own ++ own') (names ++ names') where
  accounted n hn := by
    rcases List.mem_append.mp hn with hn | hn
    · refine (h.accounted n hn).mono (List.subset_append_left _ _) (List.append_subset.mpr ⟨?_, ?_⟩)
      · exact List.subset_append_of_subset_left _ (List.subset_append_left _ _)
      · exact List.subset_append_of_subset_right _ (List.subset_append_left _ _)
    · refine (h'.accounted n hn).mono (List.subset_append_right _ _)
        (List.append_subset.mpr ⟨?_, ?_⟩)
      · exact List.subset_append_of_subset_left _ (List.subset_append_right _ _)
      · exact List.subset_append_of_subset_right _ (List.subset_append_right _ _)
  mentions := List.append_subset.mpr ⟨List.subset_append_of_subset_left _ h.mentions,
    List.subset_append_of_subset_right _ h'.mentions⟩

theorem flatMap {α : Type} {xs : List α} {needs : α → List Symbol}
    {promised names : α → List String} (h : ∀ x ∈ xs, Refers (needs x) (promised x) [] (names x)) :
    Refers (xs.flatMap needs) (xs.flatMap promised) [] (xs.flatMap names) := by
  induction xs with
  | nil => exact nil _ _
  | cons x rest ih =>
    exact (h x List.mem_cons_self).append (ih fun y hy => h y (List.mem_cons_of_mem _ hy))

theorem perm (h : Refers needs promised own names) (hp : names.Perm names') :
    Refers needs promised own names' :=
  ⟨fun n hn => h.accounted n (hp.mem_iff.mpr hn), fun _ hc => hp.mem_iff.mp (h.mentions hc)⟩

/-- One more name, of a symbol that a registry has under its own name. -/
theorem cons {r : Registry} {symbol : Symbol} (h : Refers needs promised own names)
    (hsymbol : r.local symbol = symbol.1) (hne : symbol.1 ≠ wholeModule) (hneeds : symbol ∈ needs) :
    Refers needs promised own (r.local symbol :: names) where
  accounted n hn := by
    rcases List.mem_cons.mp hn with rfl | hn
    · exact .inr (.inl (hsymbol ▸ ⟨hne, symbol.2, hneeds⟩))
    · exact h.accounted n hn
  mentions := List.subset_cons_of_subset _ h.mentions

end Refers

/-! ## Recorded symbols -/

namespace Registry

/-- Everything is imported under its own name, for the running module. -/
def Plain (r : Registry) : Prop := ∀ i ∈ r.imports, i.kind = .runtime ∧ i.asName? = none

theorem plain_empty (separate : Bool) : Plain ⟨separate, []⟩ := nofun

theorem mem_record {r : Registry} {i j : Import} (h : j ∈ (r.record i).2.imports) :
    j ∈ r.imports ∨ j = i := by
  unfold record at h
  split at h
  · exact .inl h
  · unfold insert at h
    split at h
    · exact .inl h
    · simpa using h

theorem subset_record (r : Registry) (i : Import) : r.imports ⊆ (r.record i).2.imports := by
  unfold record
  split
  · exact List.Subset.refl _
  · unfold insert
    split
    · exact List.Subset.refl _
    · exact List.subset_append_left _ _

theorem exists_mem_record (r : Registry) (i : Import) :
    ∃ j ∈ (r.record i).2.imports, j.key = i.key := by
  unfold record
  split
  · rename_i old hget
    exact ⟨old, of_find?_key hget⟩
  · unfold insert
    split
    · rename_i hany
      simpa using hany
    · exact ⟨i, List.mem_append_right _ (List.mem_singleton_self i), rfl⟩

theorem mem_recordAll {r : Registry} {pairs : List Symbol} {i : Import}
    (h : i ∈ (r.recordAll pairs).imports) :
    i ∈ r.imports ∨ i.kind = .runtime ∧ i.asName? = none := by
  unfold recordAll at h
  induction pairs generalizing r with
  | nil => exact .inl h
  | cons p rest ih =>
    rcases ih h with h | h
    · rcases mem_record h with h | rfl
      · exact .inl h
      · exact .inr ⟨rfl, rfl⟩
    · exact .inr h

theorem Plain.recordAll {r : Registry} (h : Plain r) (pairs : List Symbol) :
    Plain (r.recordAll pairs) :=
  fun i hi => (mem_recordAll hi).elim (h i) id

theorem subset_recordAll (r : Registry) (pairs : List Symbol) {kind : ImportKind} :
    r.imports ⊆ (r.recordAll pairs kind).imports := by
  unfold recordAll
  induction pairs generalizing r with
  | nil => exact List.Subset.refl _
  | cons p rest ih => exact List.Subset.trans (subset_record r _) (ih _)

theorem exists_mem_recordAll (r : Registry) {pairs : List Symbol} {kind : ImportKind} {p : Symbol}
    (h : p ∈ pairs) : ∃ i ∈ (r.recordAll pairs kind).imports, i.key = p := by
  unfold recordAll
  induction pairs generalizing r with
  | nil => cases h
  | cons q rest ih =>
    rcases List.mem_cons.mp h with rfl | h
    · obtain ⟨i, hi, hkey⟩ := exists_mem_record r ⟨p.1, p.2, kind, none⟩
      exact ⟨i, subset_recordAll _ rest hi, hkey⟩
    · exact ih _ h

theorem subset_keys_recordAll (r : Registry) (pairs : List Symbol) {kind : ImportKind} :
    pairs ⊆ (r.recordAll pairs kind).imports.map (·.key) :=
  fun _ hp => List.mem_map.mpr (exists_mem_recordAll r hp)

/-- A registry without modules takes up one as a whole, under the name that is given for it, or
none. -/
theorem qualify_of_symbols {r : Registry} (h : ∀ i ∈ r.imports, i.symbol ≠ wholeModule)
    (source? : Option String) {asName : String} (hname : asName ≠ "") :
    (r.qualify source? asName).1 ∈ ["", asName ++ "."] ∧
      ∀ i ∈ (r.qualify source? asName).2.imports, i ∈ r.imports ∨ i.symbol = wholeModule := by
  unfold qualify
  cases source?.filter (· ≠ "") with
  | none => exact ⟨List.mem_cons_self, fun i hi => .inl hi⟩
  | some source =>
    have hnew : r.get? wholeModule source = none :=
      List.find?_eq_none.mpr fun i hi hkey => h i hi (congrArg Prod.fst (of_decide_eq_true hkey))
    have hrecord : (r.recordModule source (some asName)).1 = asName := by
      simp [recordModule, record, hnew, Import.localName, Import.rename?, Option.filter, hname]
    refine ⟨?_, fun i hi => ?_⟩
    · dsimp only
      rw [hrecord]
      exact List.mem_cons_of_mem _ (List.mem_singleton_self _)
    · exact (mem_record hi).imp_right (congrArg Import.symbol)

/-- A symbol that is imported under no other name is called by its own. -/
theorem local_eq_of_forall {r : Registry} {s : Symbol}
    (h : ∀ i ∈ r.imports, i.key = s → i.asName? = none) (hs : s.1 ≠ wholeModule) :
    r.local s = s.1 := by
  unfold Registry.local nameOf
  split
  · rename_i i hget
    obtain ⟨hi, hkey⟩ := of_find?_key hget
    obtain ⟨hsymbol, -⟩ := Prod.mk.inj hkey
    rw [Import.localName, Import.rename?, h i hi hkey]
    exact (if_neg (hsymbol ▸ hs)).trans hsymbol
  · rfl

/-- Symbols are called by their own names in a registry that imports them so. -/
theorem Plain.local_eq {r : Registry} (h : Plain r) {s : Symbol} (hs : s.1 ≠ wholeModule) :
    r.local s = s.1 :=
  local_eq_of_forall (fun i hi _ => (h i hi).2) hs

/-- What several registries import under its own name, and one of them for the running module, their
merged registry binds when the module runs. -/
theorem exists_binding_of_recorded {separate : Bool} {is : List Import}
    (hplain : ∀ i ∈ is, i.asName? = none) {n source : String} (hn : n ≠ wholeModule) {i : Import}
    (hi : i ∈ is) (hkey : i.key = (n, source)) (hkind : i.kind = .runtime) :
    n ∈ (((Registry.mk separate (joint is)).block.bindingsFor .runtime)).map (·.name) := by
  obtain ⟨k, hk, hkkey, hkkind⟩ := exists_joint hi
  obtain ⟨j, hj, -, hkname⟩ := exists_of_mem_joint hk
  rw [hplain j hj] at hkname
  obtain ⟨hsymbol, hsource⟩ := Prod.mk.inj (hkkey.trans hkey)
  have hbindings : k.bindings = [⟨n, (n, source)⟩] := by
    rw [Import.bindings, Import.statement, Import.rename?, hkname, hsymbol, hsource, if_neg hn]
    rfl
  have hmem : ⟨n, (n, source)⟩ ∈ (Registry.mk separate (joint is)).block.bindingsFor k.kind :=
    mem_bindingsFor_of_mem hk (by rw [hbindings]; exact List.mem_singleton_self _)
  rw [hkkind hkind] at hmem
  exact List.mem_map_of_mem hmem

/-- What is accounted for by the symbols of one of several plain registries is known where they are
merged, if the rest of it is declared. -/
theorem known_of_accounted {separate : Bool} {is : List Import}
    (hplain : ∀ i ∈ is, i.asName? = none) {r : Registry} (hr : r.Plain) (hsub : r.imports ⊆ is)
    {left : List String} {n : String} (h : Accounted (r.imports.map (·.key)) left n)
    (declared : List String) :
    Known (Registry.mk separate (joint is)).block declared n ∨ n ∈ left := by
  rcases h with hbuiltin | ⟨hn, source, hkey⟩ | hleft
  · exact .inl (.inl hbuiltin)
  · obtain ⟨i, hi, hkey⟩ := List.mem_map.mp hkey
    exact .inl (.inr (.inl (exists_binding_of_recorded hplain hn (hsub hi) hkey (hr i hi).1)))
  · exact .inr hleft

end Registry

end Graphwright.Module
