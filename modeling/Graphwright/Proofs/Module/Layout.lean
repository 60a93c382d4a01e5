import Graphwright.Proofs.Module.Block
import Graphwright.Proofs.Module.Reached
import Graphwright.Proofs.Module.Rereading
import Mathlib.Data.List.Nodup
import Mathlib.Data.List.Perm.Basic

/-!
# What the text of an import block imports

The text of the import block of a registry, read again, is the registry laid out (`Registry.Lays`):
every import once under its name and nothing else but the flag that the test for type checkers
reads, module by module, in the order in which modules and names were recorded
(`Registry.readBlock_lays`).
-/
namespace Graphwright.Module

/-! ## Names of imports -/

namespace Import

/-- What an import asks for. A relative module is a name of the package that holds it. -/
def item (i : Import) : Item :=
  if i.symbol = wholeModule then
    match Statement.placeOf? i.source with
    | none => ⟨none, i.source, i.rename?.getD i.source⟩
    | some (package, name) => ⟨some package, name, i.rename?.getD name⟩
  else ⟨some i.source, i.symbol, i.rename?.getD i.symbol⟩

/-- The names of an import are identifiers, and its module is identifiers with dots, the last of
them not empty. -/
structure IsWellNamed (i : Import) : Prop where
  symbol : i.symbol = wholeModule ∨ Text.isIdentifier i.symbol.toList
  rename : ∀ name ∈ i.rename?, Text.isIdentifier name.toList
  source : ∀ piece ∈ Text.fields '.' i.source.toList, piece = [] ∨ Text.isIdentifier piece
  last : (Text.splitLast '.' i.source.toList).2 ≠ []

instance (i : Import) : Decidable i.IsWellNamed :=
  decidable_of_iff ((i.symbol = wholeModule ∨ Text.isIdentifier i.symbol.toList) ∧
      (∀ name ∈ i.rename?, Text.isIdentifier name.toList) ∧
      (∀ piece ∈ Text.fields '.' i.source.toList, piece = [] ∨ Text.isIdentifier piece) ∧
      (Text.splitLast '.' i.source.toList).2 ≠ [])
    ⟨fun h => ⟨h.1, h.2.1, h.2.2.1, h.2.2.2⟩, fun h => ⟨h.1, h.2, h.3, h.4⟩⟩

theorem isWellNamed_checkingFlag : Registry.checkingFlag.IsWellNamed := by
  decide

end Import

theorem splitLast_subset (sep : Char) (cs : List Char) :
    (Text.splitLast sep cs).1 ⊆ cs ∧ (Text.splitLast sep cs).2 ⊆ cs :=
  ⟨List.take_subset _ _,
    fun _ hc => List.mem_reverse.mp ((List.takeWhile_subset _) (List.mem_reverse.mp hc))⟩

theorem splitLast_append_snd {sep : Char} {before : List Char} (h : ∀ c ∈ before, c = sep)
    (cs : List Char) : (Text.splitLast sep (before ++ cs)).2 = (Text.splitLast sep cs).2 := by
  have hstop : (before.reverse).takeWhile (· != sep) = [] := by
    cases hbefore : before.reverse with
    | nil => rfl
    | cons c rest =>
      have hc : c ∈ before := List.mem_reverse.mp (hbefore ▸ List.mem_cons_self)
      exact List.takeWhile_cons_of_neg (by simp [h c hc])
  have htake : (cs.reverse ++ before.reverse).takeWhile (· != sep) =
      cs.reverse.takeWhile (· != sep) := by
    induction cs.reverse with
    | nil => exact hstop
    | cons c rest ih => rw [List.cons_append, List.takeWhile_cons, List.takeWhile_cons, ih]
  rw [Text.splitLast, Text.splitLast]
  dsimp only
  rw [List.reverse_append, htake]

/-! ## Statements of imports -/

namespace Statement

theorem isReadable_ofModule {source : String} {rename? : Option String}
    (hsource : IsPlain source.toList) (hlast : (Text.splitLast '.' source.toList).2 ≠ [])
    (hrename : ∀ name ∈ rename?, IsPlain name.toList) : (ofModule source rename?).IsReadable := by
  rw [ofModule_eq]
  cases hplace : placeOf? source with
  | none =>
    exact ⟨nofun, List.cons_ne_nil _ _, List.forall_mem_singleton.mpr ⟨hsource, hrename⟩⟩
  | some place =>
    obtain ⟨package, name⟩ := place
    rw [placeOf?] at hplace
    dsimp only at hplace
    split_ifs at hplace with hdots
    have hall : ∀ c ∈ source.toList.takeWhile (· == '.'), c = '.' := fun c hc =>
      beq_iff_eq.mp (List.all_eq_true.mp List.all_takeWhile c hc)
    have hsplit := List.prefix_iff_eq_append.mp
      (List.takeWhile_prefix (l := source.toList) (· == '.'))
    generalize source.toList.takeWhile (· == '.') = dots at hplace hdots hall hsplit
    generalize source.toList.drop dots.length = rest at hplace hsplit
    obtain ⟨rfl, rfl⟩ := Prod.mk.inj (Option.some.inj hplace)
    rw [← hsplit, splitLast_append_snd hall] at hlast
    have hfirst : IsPlain (dots ++ (Text.splitLast '.' rest).1) := by
      refine hsource.of_subset (List.append_ne_nil_of_left_ne_nil (by simpa using hdots) _) ?_
      rw [← hsplit]
      exact List.append_subset.mpr ⟨List.subset_append_left _ _,
        List.Subset.trans (splitLast_subset '.' rest).1 (List.subset_append_right _ _)⟩
    have hname : IsPlain (Text.splitLast '.' rest).2 := by
      refine hsource.of_subset hlast ?_
      rw [← hsplit]
      exact List.Subset.trans (splitLast_subset '.' rest).2 (List.subset_append_right _ _)
    refine ⟨?_, List.cons_ne_nil _ _, List.forall_mem_singleton.mpr ⟨?_, fun other hother => ?_⟩⟩
    · intro package hpackage
      obtain rfl := Option.some.inj hpackage
      rwa [String.toList_ofList]
    · rwa [String.toList_ofList]
    · exact hrename other (Option.mem_filter_iff.mp hother).1

end Statement

theorem Import.IsWellNamed.plain_source {i : Import} (h : i.IsWellNamed) :
    IsPlain i.source.toList := by
  refine isPlain_of_fields (fun hnil => h.last ?_) h.source
  rw [hnil]
  rfl

theorem Import.IsWellNamed.plain_rename {i : Import} (h : i.IsWellNamed) :
    ∀ name ∈ i.rename?, IsPlain name.toList :=
  fun name hname => isPlain_of_isIdentifier (h.rename name hname)

/-- Imports of one module in the order of its statements: the module as a whole, then its
symbols. -/
def entriesOf (is : List Import) : List Import :=
  is.filter (·.symbol = wholeModule) ++ is.filter (·.symbol ≠ wholeModule)

section EntriesOf

variable {source : String} {is : List Import} (h : ∀ i ∈ is, i.source = source)

include h

/-- The statements for the imports of a module import what the imports ask for. -/
theorem items_statementsOf :
    (statementsOf source is).flatMap (·.items) = (entriesOf is).map (·.item) := by
  have hwhole : ∀ i ∈ is.filter (·.symbol = wholeModule),
      (Statement.ofModule source i.rename?).items = [i.item] := by
    intro i hi
    obtain ⟨hi, hs⟩ := List.mem_filter.mp hi
    rw [Import.item, if_pos (of_decide_eq_true hs), h i hi, Statement.ofModule_eq]
    cases Statement.placeOf? source with
    | none => rfl
    | some place => exact congrArg (fun bound => [Item.mk _ _ bound]) (Import.getD_filter_ne _ _)
  have hsymbols : (if (is.filter (·.symbol ≠ wholeModule)).isEmpty then []
      else [Statement.names source ((is.filter (·.symbol ≠ wholeModule)).map
        fun i => (i.symbol, i.rename?.filter (· ≠ i.symbol)))]).flatMap (·.items) =
        (is.filter (·.symbol ≠ wholeModule)).map (·.item) := by
    have hitem : ∀ i ∈ is.filter (·.symbol ≠ wholeModule),
        Item.mk (some source) i.symbol ((i.rename?.filter (· ≠ i.symbol)).getD i.symbol) =
          i.item := by
      intro i hi
      obtain ⟨hi, hs⟩ := List.mem_filter.mp hi
      rw [Import.item, if_neg (of_decide_eq_true hs), h i hi, Import.getD_filter_ne]
    split_ifs with hempty
    · rw [List.isEmpty_iff.mp hempty]
      rfl
    · rw [List.flatMap_singleton, Statement.items, Statement.said, List.map_map]
      exact List.map_congr_left hitem
  rw [statementsOf, List.flatMap_append, List.flatMap_map, List.flatMap_congr hwhole, hsymbols,
    entriesOf, List.map_append, ← List.map_eq_flatMap]

theorem isReadable_statementsOf (hnamed : ∀ i ∈ is, i.IsWellNamed) {s : Statement}
    (hs : s ∈ statementsOf source is) : s.IsReadable := by
  rcases (mem_statementsOf h).mp hs with ⟨i, hi, hwhole, rfl⟩ | ⟨rfl, j, hj, hsymbol⟩
  · rw [Import.statement, if_pos hwhole]
    exact Statement.isReadable_ofModule (hnamed i hi).plain_source (hnamed i hi).last
      (hnamed i hi).plain_rename
  · refine ⟨?_, List.ne_nil_of_mem (mem_symbolsOf.mpr ⟨j, hj, hsymbol, rfl⟩), fun item hitem => ?_⟩
    · intro _ hsource
      obtain rfl := Option.some.inj hsource
      exact h j hj ▸ (hnamed j hj).plain_source
    · obtain ⟨i, hi, hne, rfl⟩ := mem_symbolsOf.mp hitem
      have hid := (hnamed i hi).symbol.resolve_left hne
      exact ⟨isPlain_of_isIdentifier hid,
        fun other hother => (hnamed i hi).plain_rename other (Option.mem_filter_iff.mp hother).1⟩

end EntriesOf

theorem perm_entriesOf (is : List Import) : (entriesOf is).Perm is := by
  have hsplit := List.filter_append_perm (fun i : Import => decide (i.symbol = wholeModule)) is
  simpa [entriesOf] using hsplit

theorem mem_entriesOf {is : List Import} {i : Import} : i ∈ entriesOf is ↔ i ∈ is :=
  (perm_entriesOf is).mem_iff

namespace Registry

/-! ## Imports under their modules -/

/-- The imports of modules in the order of their statements. -/
def entries (gs : List (String × List Import)) : List Import := gs.flatMap fun g => entriesOf g.2

theorem entries_cons (g : String × List Import) (gs : List (String × List Import)) :
    entries (g :: gs) = entriesOf g.2 ++ entries gs := List.flatMap_cons

theorem perm_entries (gs : List (String × List Import)) : (entries gs).Perm (gs.flatMap (·.2)) :=
  List.Perm.flatMap_left gs fun g _ => perm_entriesOf g.2

theorem mem_entries {gs : List (String × List Import)} {i : Import} :
    i ∈ entries gs ↔ ∃ g ∈ gs, i ∈ g.2 :=
  (perm_entries gs).mem_iff.trans List.mem_flatMap

section Grouped

variable {gs : List (String × List Import)} (h : Grouped gs)

include h

theorem Grouped.items_layOut : (layOut gs).flatMap (·.items) = (entries gs).map (·.item) := by
  rw [layOut, List.flatMap_assoc, entries, List.map_flatMap]
  exact List.flatMap_congr fun g hg => items_statementsOf (h g hg).2

theorem Grouped.isReadable_layOut (hnamed : ∀ i ∈ entries gs, i.IsWellNamed) {s : Statement}
    (hs : s ∈ layOut gs) : s.IsReadable := by
  obtain ⟨g, hg, hs⟩ := List.mem_flatMap.mp hs
  exact isReadable_statementsOf (h g hg).2 (fun i hi => hnamed i (mem_entries.mpr ⟨g, hg, hi⟩)) hs

theorem Grouped.filter_entries (p : String → Bool) :
    (entries gs).filter (fun i => p i.source) = entries (gs.filter fun g => p g.1) := by
  induction gs with
  | nil => rfl
  | cons g rest ih =>
    obtain ⟨hg, hrest⟩ := List.forall_mem_cons.mp h
    have hsource : ∀ i ∈ entriesOf g.2, p i.source = p g.1 :=
      fun i hi => by rw [hg.2 i (mem_entriesOf.mp hi)]
    rw [entries_cons, List.filter_append, ih hrest, List.filter_cons]
    by_cases hp : p g.1
    · rw [if_pos hp, entries_cons, List.filter_eq_self.mpr fun i hi => (hsource i hi).trans hp]
    · rw [if_neg hp, List.filter_eq_nil_iff.mpr fun i hi => (hsource i hi).symm ▸ hp,
        List.nil_append]

end Grouped

/-- The modules of imports that come first are all modules of the first, and the other ones of the
second. -/
theorem sources_append (is js : List Import) :
    sources (is ++ js) = sources is ++ (sources js).filter (· ∉ sources is) := by
  induction is with
  | nil => simp [sources]
  | cons i rest ih =>
    rw [List.cons_append, sources, sources, ih, List.filter_append, List.filter_filter,
      List.cons_append]
    refine congrArg _ (congrArg _ (List.filter_congr fun s _ => ?_))
    by_cases hs : s = i.source <;> simp [hs]

/-- The modules of imports that are chosen by their modules are chosen. -/
theorem sources_filter (p : String → Bool) (is : List Import) :
    sources (is.filter fun i => p i.source) = (sources is).filter p := by
  induction is with
  | nil => rfl
  | cons i rest ih =>
    rw [List.filter_cons, sources, List.filter_cons]
    by_cases hp : p i.source
    · rw [if_pos hp, if_pos hp, sources, ih, List.filter_comm]
    · rw [if_neg hp, if_neg hp, ih, List.filter_filter]
      refine List.filter_congr fun s _ => ?_
      by_cases hs : s = i.source <;> simp [hs, hp]

theorem nodup_sources (is : List Import) : (sources is).Nodup := by
  induction is with
  | nil => exact List.nodup_nil
  | cons i rest ih => exact List.nodup_cons.mpr ⟨by simp, ih.filter _⟩

theorem sources_of_forall {is : List Import} {source : String} (hne : is ≠ [])
    (h : ∀ i ∈ is, i.source = source) : sources is = [source] := by
  induction is with
  | nil => exact absurd rfl hne
  | cons i rest ih =>
    obtain ⟨hi, hrest⟩ := List.forall_mem_cons.mp h
    rw [sources, hi]
    cases rest with
    | nil => rfl
    | cons j more =>
      rw [ih (List.cons_ne_nil _ _) hrest, List.filter_cons_of_neg (by simp), List.filter_nil]

section Grouped

variable {gs : List (String × List Import)} (h : Grouped gs) (hnodup : (gs.map (·.1)).Nodup)

include h hnodup

theorem Grouped.sources_entries : sources (entries gs) = gs.map (·.1) := by
  induction gs with
  | nil => rfl
  | cons g rest ih =>
    obtain ⟨⟨hne, hg⟩, hrest⟩ := List.forall_mem_cons.mp h
    obtain ⟨hnot, hnodup⟩ := List.nodup_cons.mp hnodup
    have hfirst : sources (entriesOf g.2) = [g.1] :=
      sources_of_forall (fun hnil => hne ((hnil ▸ perm_entriesOf g.2).symm.eq_nil))
        fun i hi => hg i (mem_entriesOf.mp hi)
    rw [entries_cons, sources_append, hfirst, ih hrest hnodup,
      List.filter_eq_self.mpr fun s hs => decide_eq_true ?_]
    · rfl
    · rintro hmem
      rw [List.mem_singleton.mp hmem] at hs
      exact hnot hs

/-- The imports of one module are next to each other. -/
theorem Grouped.filter_entries_source (source : String) : ∃ is before after,
    entries gs = before ++ entriesOf is ++ after ∧
      (entries gs).filter (·.source = source) = entriesOf is ∧ (is = [] ∨ (source, is) ∈ gs) := by
  induction gs with
  | nil => exact ⟨[], [], [], rfl, rfl, .inl rfl⟩
  | cons g rest ih =>
    obtain ⟨⟨-, hg⟩, hrest⟩ := List.forall_mem_cons.mp h
    obtain ⟨hnot, hnodup⟩ := List.nodup_cons.mp hnodup
    rw [entries_cons, List.filter_append]
    by_cases hs : g.1 = source
    · have hnone : (entries rest).filter (·.source = source) = [] := by
        refine List.filter_eq_nil_iff.mpr fun i hi hsource => hnot ?_
        obtain ⟨g', hg', hi⟩ := mem_entries.mp hi
        exact List.mem_map.mpr
          ⟨g', hg', ((hrest g' hg').2 i hi).symm.trans ((of_decide_eq_true hsource).trans hs.symm)⟩
      refine ⟨g.2, [], entries rest, rfl, ?_, .inr (hs ▸ List.mem_cons_self)⟩
      rw [hnone, List.append_nil]
      exact List.filter_eq_self.mpr fun i hi =>
        decide_eq_true ((hg i (mem_entriesOf.mp hi)).trans hs)
    · obtain ⟨is, before, after, hentries, hfilter, his⟩ := ih hrest hnodup
      have hnone : (entriesOf g.2).filter (·.source = source) = [] :=
        List.filter_eq_nil_iff.mpr fun i hi hsource =>
          hs ((hg i (mem_entriesOf.mp hi)).symm.trans (of_decide_eq_true hsource))
      refine ⟨is, entriesOf g.2 ++ before, after, ?_, ?_, his.imp_right (List.mem_cons_of_mem _)⟩
      · rw [hentries]
        simp only [List.append_assoc]
      · rw [hnone, hfilter, List.nil_append]

end Grouped

/-! ## The flag among them -/

theorem map_fst_addFlag (gs : List (String × List Import)) : (addFlag gs).map (·.1) =
    if "typing" ∈ gs.map (·.1) then gs.map (·.1) else gs.map (·.1) ++ ["typing"] := by
  induction gs with
  | nil => rfl
  | cons g rest ih =>
    rw [addFlag_cons]
    by_cases hs : g.1 = "typing"
    · simp [hs]
    · rw [if_neg hs, List.map_cons, ih]
      by_cases hrest : "typing" ∈ rest.map (·.1) <;> simp [hrest, Ne.symm hs]

theorem nodup_map_fst_addFlag {gs : List (String × List Import)} (h : (gs.map (·.1)).Nodup) :
    ((addFlag gs).map (·.1)).Nodup := by
  rw [map_fst_addFlag]
  split_ifs with hflag
  · exact h
  · exact List.nodup_append.mpr ⟨h, List.nodup_singleton _, by grind⟩

theorem sublist_addFlag {gs : List (String × List Import)} {is : List Import}
    (h : ∀ g ∈ gs, List.Sublist g.2 is) :
    ∀ g ∈ addFlag gs, List.Sublist g.2 (is ++ [checkingFlag]) := by
  induction gs with
  | nil => exact List.forall_mem_singleton.mpr (List.sublist_append_right is [checkingFlag])
  | cons g rest ih =>
    obtain ⟨hg, hrest⟩ := List.forall_mem_cons.mp h
    have hleft {js : List Import} (hjs : List.Sublist js is) :
        List.Sublist js (is ++ [checkingFlag]) :=
      hjs.trans (List.sublist_append_left is _)
    rw [addFlag_cons]
    split_ifs
    · refine List.forall_mem_cons.mpr ⟨?_, fun g' hg' => hleft (hrest g' hg')⟩
      rw [withFlag]
      split_ifs
      · exact hleft hg
      · exact hg.append (List.Sublist.refl _)
    · exact List.forall_mem_cons.mpr ⟨hleft hg, ih hrest⟩

section Unflagged

variable {gs : List (String × List Import)} (h : ∀ i ∈ entries gs, i.key ≠ checkingFlag.key)

include h

theorem withFlag_eq {g : String × List Import} (hg : g ∈ gs) :
    withFlag g.2 = g.2 ++ [checkingFlag] := by
  refine if_neg fun hany => ?_
  obtain ⟨i, hi, hkey⟩ := List.any_eq_true.mp hany
  exact h i (mem_entries.mpr ⟨g, hg, hi⟩) (of_decide_eq_true hkey)

theorem entries_addFlag : ∃ before after, entries gs = before ++ after ∧
    entries (addFlag gs) = before ++ checkingFlag :: after := by
  induction gs with
  | nil => exact ⟨[], [], rfl, rfl⟩
  | cons g rest ih =>
    have hrest : ∀ i ∈ entries rest, i.key ≠ checkingFlag.key :=
      fun i hi => h i (by rw [entries_cons]; exact List.mem_append_right _ hi)
    rw [addFlag_cons]
    split_ifs
    · refine ⟨entriesOf g.2, entries rest, entries_cons g rest, ?_⟩
      have hflag : entriesOf (withFlag g.2) = entriesOf g.2 ++ [checkingFlag] := by
        rw [withFlag_eq h List.mem_cons_self, entriesOf, List.filter_append, List.filter_append,
          entriesOf]
        simp [checkingFlag, wholeModule]
      rw [entries_cons]
      dsimp only
      rw [hflag, List.append_assoc]
      rfl
    · obtain ⟨before, after, hentries, hflagged⟩ := ih hrest
      refine ⟨entriesOf g.2 ++ before, after, ?_, ?_⟩
      · rw [entries_cons, hentries, List.append_assoc]
      · rw [entries_cons, hflagged, List.append_assoc]

end Unflagged

/-! ## The layout of a registry -/

/-- The imports of a registry are laid out in those that run and those that are checked only. -/
structure Lays (r : Registry) (running checked : List Import) : Prop where
  /-- Every import is there once, and nothing else but the flag, if anything is checked only. -/
  once : (running ++ checked).Perm (r.imports ++ if checked = [] then [] else [checkingFlag])
  /-- An import is checked only if and only if types are kept apart and all imports of its module
  are for types. -/
  checked_iff : ∀ i ∈ r.imports, i ∈ checked ↔
    r.separateTyping ∧ ∀ j ∈ r.imports, j.source = i.source → j.kind = .typing
  /-- The flag runs if and only if something is checked only. -/
  flag_iff : checkingFlag ∈ running ↔ checked ≠ []
  /-- The imports of one module are next to each other. -/
  adjacent : ∀ part ∈ [running, checked], ∀ source, part.filter (·.source = source) <:+: part
  /-- The names of one module are in the order in which they were recorded, the flag behind them. -/
  names : ∀ part ∈ [running, checked], ∀ source,
    List.Sublist (part.filter fun i => i.source = source ∧ i.symbol ≠ wholeModule)
    (r.imports ++ [checkingFlag])
  /-- What comes from the future comes first, and runs. -/
  future : running.filter (·.source = futureModule) <+: running ∧
    ∀ i ∈ checked, i.source ≠ futureModule
  /-- The other modules are in the order in which they were first recorded, when they run. -/
  runningOrder : sources (running.filter (· ≠ checkingFlag)) =
    let recorded := sources (r.imports.filter (· ∉ checked))
    recorded.filter (· = futureModule) ++ recorded.filter (· ≠ futureModule)
  /-- So are those that are checked only. -/
  checkedOrder : sources checked = sources (r.imports.filter (· ∈ checked))

/-- The modules that are imported when the module runs, those from the future first. -/
def orderedGroups (r : Registry) : List (String × List Import) :=
  r.runningGroups.filter (·.1 = futureModule) ++ r.runningGroups.filter (·.1 ≠ futureModule)

/-- The modules that are imported when the module runs, without the flag. -/
def plainGroups (r : Registry) : List (String × List Import) := r.byModule.filter (!r.isChecked ·)

variable {r : Registry}

theorem block_runtime (r : Registry) : r.block.runtime = layOut r.orderedGroups := rfl

theorem perm_orderedGroups (r : Registry) : r.orderedGroups.Perm r.runningGroups := by
  have hsplit := List.filter_append_perm
    (fun g : String × List Import => decide (g.1 = futureModule)) r.runningGroups
  simpa [orderedGroups] using hsplit

theorem grouped_orderedGroups (r : Registry) : Grouped r.orderedGroups :=
  fun g hg => r.grouped_runningGroups g ((perm_orderedGroups r).mem_iff.mp hg)

theorem nodup_map_fst_byModule (r : Registry) : (r.byModule.map (·.1)).Nodup := by
  rw [byModule, List.map_map]
  exact (List.map_id _).symm ▸ nodup_sources r.imports

theorem nodup_map_fst_runningGroups (r : Registry) : (r.runningGroups.map (·.1)).Nodup := by
  have hplain : (r.plainGroups.map (·.1)).Nodup :=
    (nodup_map_fst_byModule r).sublist (List.filter_sublist.map _)
  rw [runningGroups]
  split_ifs
  · exact hplain
  · exact nodup_map_fst_addFlag hplain

theorem nodup_map_fst_orderedGroups (r : Registry) : (r.orderedGroups.map (·.1)).Nodup :=
  ((perm_orderedGroups r).map _).nodup_iff.mpr (nodup_map_fst_runningGroups r)

theorem nodup_map_fst_checkedGroups (r : Registry) : (r.checkedGroups.map (·.1)).Nodup :=
  (nodup_map_fst_byModule r).sublist (List.filter_sublist.map _)

/-- The names of a module are taken from the imports in their order. -/
theorem sublist_byModule {g : String × List Import} (hg : g ∈ r.byModule) :
    List.Sublist g.2 r.imports := by
  obtain ⟨source, -, rfl⟩ := List.mem_map.mp hg
  exact List.filter_sublist

theorem sublist_orderedGroups {g : String × List Import} (hg : g ∈ r.orderedGroups) :
    List.Sublist g.2 (r.imports ++ [checkingFlag]) := by
  have hplain : ∀ g ∈ r.plainGroups, List.Sublist g.2 r.imports :=
    fun g hg => sublist_byModule (List.mem_of_mem_filter hg)
  have hg := (perm_orderedGroups r).mem_iff.mp hg
  rw [runningGroups] at hg
  split_ifs at hg
  · exact (hplain g hg).trans (List.sublist_append_left _ _)
  · exact sublist_addFlag hplain g hg

/-- A module is for type checkers only if types are kept apart and all its imports are for types. -/
theorem isChecked_iff {source : String} :
    r.isChecked (source, r.imports.filter (·.source = source)) ↔
    r.separateTyping ∧ ∀ j ∈ r.imports, j.source = source → j.kind = .typing := by
  simp only [isChecked, Bool.and_eq_true, List.all_eq_true, List.mem_filter,
    decide_eq_true_eq, and_imp]

theorem mem_entries_checkedGroups {i : Import} (hi : i ∈ r.imports) :
    i ∈ entries r.checkedGroups ↔
    r.isChecked (i.source, r.imports.filter (·.source = i.source)) := by
  rw [mem_entries]
  constructor
  · rintro ⟨g, hg, hig⟩
    obtain ⟨hg, hchecked⟩ := List.mem_filter.mp hg
    obtain ⟨source, -, rfl⟩ := List.mem_map.mp hg
    obtain rfl : i.source = source := of_decide_eq_true (List.mem_filter.mp hig).2
    exact hchecked
  · intro hchecked
    exact ⟨_, List.mem_filter.mpr ⟨List.mem_map_of_mem (mem_sources.mpr ⟨i, hi, rfl⟩), hchecked⟩,
      List.mem_filter.mpr ⟨hi, decide_eq_true rfl⟩⟩

/-- Grouping by modules keeps each import once. -/
theorem perm_entries_byModule (h : r.imports.Nodup) : (entries r.byModule).Perm r.imports := by
  refine (perm_entries r.byModule).trans
    ((List.perm_ext_iff_of_nodup ?_ h).mpr fun i => mem_byModule)
  refine List.nodup_flatMap.mpr ⟨fun g hg => h.sublist (sublist_byModule hg), ?_⟩
  refine (List.pairwise_map.mp (nodup_map_fst_byModule r)).imp_of_mem
    fun {g g'} hg hg' hne i hi hi' => hne ?_
  exact (((grouped_byModule r g hg).2 i hi).symm.trans ((grouped_byModule r g' hg').2 i hi'))

theorem perm_entries_groups (h : r.imports.Nodup) :
    (entries r.plainGroups ++ entries r.checkedGroups).Perm r.imports := by
  have hsplit := List.filter_append_perm r.isChecked r.byModule
  rw [entries, entries, ← List.flatMap_append]
  exact ((List.perm_append_comm.trans hsplit).flatMap_right _).trans (perm_entries_byModule h)

theorem entries_checkedGroups_eq_nil : entries r.checkedGroups = [] ↔ r.checkedGroups = [] := by
  constructor
  · intro hnil
    refine List.eq_nil_iff_forall_not_mem.mpr fun g hg => ?_
    obtain ⟨i, hi⟩ := List.exists_mem_of_ne_nil _ (r.grouped_checkedGroups g hg).1
    exact List.not_mem_nil (hnil ▸ mem_entries.mpr ⟨g, hg, hi⟩)
  · intro hnil
    rw [hnil]
    rfl

theorem mem_imports_of_plainGroups {i : Import} (hi : i ∈ entries r.plainGroups) :
    i ∈ r.imports := by
  obtain ⟨g, hg, hi⟩ := mem_entries.mp hi
  exact (sublist_byModule (List.mem_of_mem_filter hg)).subset hi

theorem mem_imports_of_checkedGroups {i : Import} (hi : i ∈ entries r.checkedGroups) :
    i ∈ r.imports :=
  mem_checkedGroups ((perm_entries _).mem_iff.mp hi)

/-- What runs in the order of statements: what comes from the future, and the rest. -/
theorem entries_orderedGroups (r : Registry) : entries r.orderedGroups =
    (entries r.runningGroups).filter (·.source = futureModule) ++
      (entries r.runningGroups).filter (·.source ≠ futureModule) := by
  have hfuture := r.grouped_runningGroups.filter_entries fun s => decide (s = futureModule)
  have hothers := r.grouped_runningGroups.filter_entries fun s => decide (s ≠ futureModule)
  rw [orderedGroups, entries, List.flatMap_append, ← entries, ← entries, ← hfuture, ← hothers]

section Unflagged

variable (h : ∀ i ∈ r.imports, i.key ≠ checkingFlag.key)

include h

/-- What runs is what is in the plain modules, with the flag among it if something is checked
only. -/
theorem entries_runningGroups : ∃ before after, entries r.plainGroups = before ++ after ∧
    entries r.runningGroups =
      before ++ (if entries r.checkedGroups = [] then [] else [checkingFlag]) ++ after := by
  rw [runningGroups]
  by_cases hchecked : r.checkedGroups = []
  · rw [if_pos (by simp [hchecked]), if_pos (entries_checkedGroups_eq_nil.mpr hchecked)]
    exact ⟨entries r.plainGroups, [], (List.append_nil _).symm, by simp [plainGroups]⟩
  · rw [if_neg (by simpa using hchecked), if_neg (mt entries_checkedGroups_eq_nil.mp hchecked)]
    have hunflagged : ∀ i ∈ entries r.plainGroups, i.key ≠ checkingFlag.key :=
      fun i hi => h i (mem_imports_of_plainGroups hi)
    obtain ⟨before, after, hplain, hflagged⟩ := entries_addFlag hunflagged
    exact ⟨before, after, hplain, by rw [← plainGroups, hflagged]; simp⟩

/-- Without the flag, what runs is what is in the plain modules. -/
theorem filter_entries_runningGroups :
    (entries r.runningGroups).filter (· ≠ checkingFlag) = entries r.plainGroups := by
  obtain ⟨before, after, hplain, hrunning⟩ := entries_runningGroups h
  have hflags : (if entries r.checkedGroups = [] then [] else [checkingFlag]).filter
      (· ≠ checkingFlag) = [] := by
    split_ifs <;> simp
  rw [hrunning, List.filter_append, List.filter_append, hflags, List.append_nil,
    ← List.filter_append, ← hplain]
  refine List.filter_eq_self.mpr fun i hi => decide_eq_true ?_
  rintro rfl
  exact h _ (mem_imports_of_plainGroups hi) rfl

theorem lays_once (hnodup : r.imports.Nodup) :
    (entries r.orderedGroups ++ entries r.checkedGroups).Perm
      (r.imports ++ if entries r.checkedGroups = [] then [] else [checkingFlag]) := by
  obtain ⟨before, after, hplain, hrunning⟩ := entries_runningGroups h
  generalize (if entries r.checkedGroups = [] then [] else [checkingFlag]) = flags at hrunning ⊢
  -- wherever the flag went, it may as well be last
  have hordered : (entries r.orderedGroups).Perm (entries r.plainGroups ++ flags) := by
    have hperm := (perm_orderedGroups r).flatMap_right fun g => entriesOf g.2
    rw [← entries, ← entries, hrunning] at hperm
    rw [hplain]
    exact hperm.trans (by
      rw [List.append_assoc, List.append_assoc]
      exact List.perm_append_comm.append_left before)
  calc
    (entries r.orderedGroups ++ entries r.checkedGroups).Perm
        (entries r.plainGroups ++ flags ++ entries r.checkedGroups) := hordered.append_right _
    _ = entries r.plainGroups ++ (flags ++ entries r.checkedGroups) := List.append_assoc _ _ _
    List.Perm _ (entries r.plainGroups ++ (entries r.checkedGroups ++ flags)) :=
      List.perm_append_comm.append_left _
    _ = entries r.plainGroups ++ entries r.checkedGroups ++ flags := (List.append_assoc _ _ _).symm
    List.Perm _ (r.imports ++ flags) := (perm_entries_groups hnodup).append_right _

end Unflagged

/-- The modules of what is recorded are those of the groups. -/
theorem sources_entries_filter (p : String → List Import → Bool) :
    sources (entries (r.byModule.filter fun g => p g.1 g.2)) =
      (sources r.imports).filter fun s => p s (r.imports.filter (·.source = s)) := by
  have hgrouped : Grouped (r.byModule.filter fun g => p g.1 g.2) :=
    fun g hg => r.grouped_byModule g (List.mem_of_mem_filter hg)
  rw [hgrouped.sources_entries ((nodup_map_fst_byModule r).sublist (List.filter_sublist.map _)),
    byModule, List.filter_map, List.map_map]
  exact List.map_id _

theorem sources_filter_checked (r : Registry) :
    sources (r.imports.filter (· ∈ entries r.checkedGroups)) =
      sources (entries r.checkedGroups) := by
  have hchecked := sources_entries_filter (r := r) fun s is => r.isChecked (s, is)
  rw [← checkedGroups, ← sources_filter] at hchecked
  rw [hchecked]
  refine congrArg _ (List.filter_congr fun i hi => ?_)
  simp [mem_entries_checkedGroups hi]

theorem sources_filter_unchecked (r : Registry) :
    sources (r.imports.filter (· ∉ entries r.checkedGroups)) = sources (entries r.plainGroups) := by
  have hplain := sources_entries_filter (r := r) fun s is => !r.isChecked (s, is)
  rw [← plainGroups, ← sources_filter] at hplain
  rw [hplain]
  refine congrArg _ (List.filter_congr fun i hi => ?_)
  simp [mem_entries_checkedGroups hi]

theorem lays_runningOrder (h : ∀ i ∈ r.imports, i.key ≠ checkingFlag.key) :
    sources ((entries r.orderedGroups).filter (· ≠ checkingFlag)) =
      (sources (entries r.plainGroups)).filter (· = futureModule) ++
        (sources (entries r.plainGroups)).filter (· ≠ futureModule) := by
  have hfuture := sources_filter (fun s => decide (s = futureModule)) (entries r.plainGroups)
  have hothers := sources_filter (fun s => decide (s ≠ futureModule)) (entries r.plainGroups)
  have happart : ((sources (entries r.plainGroups)).filter (· ≠ futureModule)).filter
      (· ∉ (sources (entries r.plainGroups)).filter (· = futureModule)) =
        (sources (entries r.plainGroups)).filter (· ≠ futureModule) := by
    refine List.filter_eq_self.mpr fun s hs => decide_eq_true fun hfirst => ?_
    exact of_decide_eq_true (List.mem_filter.mp hs).2
      (of_decide_eq_true (List.mem_filter.mp hfirst).2)
  rw [entries_orderedGroups, List.filter_append, List.filter_comm,
    List.filter_comm (p := fun i => decide (i ≠ checkingFlag)), filter_entries_runningGroups h,
    sources_append, hfuture, hothers, happart]

theorem filter_entriesOf (is : List Import) :
    (entriesOf is).filter (·.symbol ≠ wholeModule) = is.filter (·.symbol ≠ wholeModule) := by
  rw [entriesOf, List.filter_append, List.filter_filter, List.filter_filter]
  simp

/-- Each part has the imports of a module in one piece, and takes their names in order. -/
theorem exists_piece (source : String) {part : List Import}
    (hpart : part ∈ [entries r.orderedGroups, entries r.checkedGroups]) :
    ∃ is before after, part = before ++ entriesOf is ++ after ∧
    part.filter (·.source = source) = entriesOf is ∧
      List.Sublist is (r.imports ++ [checkingFlag]) := by
  rcases List.mem_pair.mp hpart with rfl | rfl
  · obtain ⟨is, before, after, hentries, hfilter, his⟩ :=
      (grouped_orderedGroups r).filter_entries_source (nodup_map_fst_orderedGroups r) source
    refine ⟨is, before, after, hentries, hfilter, ?_⟩
    rcases his with rfl | hg
    · exact List.nil_sublist _
    · exact sublist_orderedGroups hg
  · obtain ⟨is, before, after, hentries, hfilter, his⟩ :=
      (grouped_checkedGroups r).filter_entries_source (nodup_map_fst_checkedGroups r) source
    refine ⟨is, before, after, hentries, hfilter, ?_⟩
    rcases his with rfl | hg
    · exact List.nil_sublist _
    · exact (sublist_byModule (List.mem_of_mem_filter hg)).trans (List.sublist_append_left _ _)

theorem filter_future (r : Registry) :
    (entries r.orderedGroups).filter (·.source = futureModule) <+: entries r.orderedGroups := by
  rw [entries_orderedGroups, List.filter_append, List.filter_filter, List.filter_filter]
  have hfirst : (entries r.runningGroups).filter
      (fun i => decide (i.source = futureModule) && decide (i.source = futureModule)) =
        (entries r.runningGroups).filter (·.source = futureModule) := by simp
  have hothers : (entries r.runningGroups).filter
      (fun i => decide (i.source = futureModule) && decide (i.source ≠ futureModule)) =
        [] := by simp
  rw [hfirst, hothers, List.append_nil]
  exact List.prefix_append _ _

theorem lays (hnodup : r.imports.Nodup)
    (hfuture : ∀ i ∈ r.imports, i.source = futureModule → i.kind = .runtime)
    (hflag : ∀ i ∈ r.imports, i.key ≠ checkingFlag.key) :
    r.Lays (entries r.orderedGroups) (entries r.checkedGroups) where
  once := lays_once hflag hnodup
  checked_iff i hi := (mem_entries_checkedGroups hi).trans isChecked_iff
  flag_iff := by
    have hmem := (lays_once hflag hnodup).mem_iff (a := checkingFlag)
    have hnot : checkingFlag ∉ r.imports := fun hmem => hflag _ hmem rfl
    have hnotChecked : checkingFlag ∉ entries r.checkedGroups :=
      fun h => hnot (mem_imports_of_checkedGroups h)
    rw [List.mem_append, List.mem_append, or_iff_left hnotChecked, or_iff_right hnot] at hmem
    rw [hmem]
    split_ifs with hnil <;> simp [hnil]
  adjacent part hpart source := by
    obtain ⟨is, before, after, hentries, hfilter, -⟩ := exists_piece source hpart
    rw [hfilter]
    exact ⟨before, after, hentries.symm⟩
  names part hpart source := by
    obtain ⟨is, -, -, -, hfilter, hsub⟩ := exists_piece source hpart
    have hnames : (part.filter fun i => i.source = source ∧ i.symbol ≠ wholeModule) =
        (part.filter (·.source = source)).filter (·.symbol ≠ wholeModule) := by
      rw [List.filter_filter]
      exact List.filter_congr fun i _ => by simp [Bool.and_comm]
    rw [hnames, hfilter, filter_entriesOf]
    exact List.filter_sublist.trans hsub
  future := by
    refine ⟨filter_future r, fun i hi hsource => ?_⟩
    have himports := mem_imports_of_checkedGroups hi
    obtain ⟨-, htyping⟩ := isChecked_iff.mp ((mem_entries_checkedGroups himports).mp hi)
    have hkind := htyping i himports rfl
    rw [hfuture i himports hsource] at hkind
    cases hkind
  runningOrder := by rw [lays_runningOrder hflag, sources_filter_unchecked]
  checkedOrder := (sources_filter_checked r).symm

/-- **The text of an import block.** Let a registry come about by calls, its imports have names,
what comes from the future be needed when the module runs, and the flag of type checkers not be
recorded. Then the text of its block imports its imports, laid out in those that run and those
behind the test for type checkers, each under its name. There is such a test if and only if there is
something behind it. -/
theorem readBlock_lays {r : Registry} (h : Reached r) (hnamed : ∀ i ∈ r.imports, i.IsWellNamed)
    (hfuture : ∀ i ∈ r.imports, i.source = futureModule → i.kind = .runtime)
    (hflag : ∀ i ∈ r.imports, i.key ≠ checkingFlag.key) :
    ∃ running checked, r.Lays running checked ∧
      readBlock ("\n".intercalate r.texts) =
        some (running.map (·.item), if checked = [] then none
          else some (checked.map (·.item))) := by
  have hlays := lays h.nodup.of_map hfuture hflag
  refine ⟨_, _, hlays, ?_⟩
  have hnamedAll :
      ∀ i ∈ entries r.orderedGroups ++ entries r.checkedGroups, i.IsWellNamed := fun i hi => by
    rcases List.mem_append.mp (hlays.once.mem_iff.mp hi) with hi | hi
    · exact hnamed i hi
    · split_ifs at hi
      · cases hi
      · rw [List.mem_singleton.mp hi]
        exact Import.isWellNamed_checkingFlag
  obtain ⟨hrunning, hchecked⟩ := List.forall_mem_append.mp hnamedAll
  have hreadable : ∀ s ∈ r.block.runtime ++ r.block.checking, s.IsReadable :=
    List.forall_mem_append.mpr ⟨fun s hs => (grouped_orderedGroups r).isReadable_layOut hrunning hs,
      fun s hs => (grouped_checkedGroups r).isReadable_layOut hchecked hs⟩
  have hempty : r.block.checking.isEmpty ↔ entries r.checkedGroups = [] := by
    rw [List.isEmpty_iff, entries_checkedGroups_eq_nil]
    exact ⟨fun hnil => by_contra fun hne => checking_ne_nil hne hnil,
      fun hnil => by rw [block_checking, hnil]; rfl⟩
  rw [texts, ImportBlock.readBlock_texts hreadable, block_runtime, block_checking,
    (grouped_orderedGroups r).items_layOut, (grouped_checkedGroups r).items_layOut]
  simp only [← block_checking, hempty]

/-- Imports of all kinds: names and modules, relative ones too, recorded one by one and merged, some
of them for types only. -/
def mixedImports : Registry :=
  let own := ((Registry.mk true []).recordAll [("Any", "typing"), ("List", "typing")]).recordModule
    ".models.user" (some "users") .typing
  let others := (((Registry.mk true []).record ⟨"Info", "graphql", .typing, none⟩).2.record
    ⟨"annotations", "__future__", .runtime, none⟩).2.recordModule "httpx" none
  own.2.merge others.2

theorem readBlock_lays_mixedImports : ∃ running checked, mixedImports.Lays running checked ∧
    running.map (·.item) =
      [⟨some "__future__", "annotations", "annotations"⟩, ⟨some "typing", "Any", "Any"⟩,
      ⟨some "typing", "List", "List"⟩, ⟨some "typing", "TYPE_CHECKING", "TYPE_CHECKING"⟩,
      ⟨none, "httpx", "httpx"⟩] ∧
    checked.map (·.item) =
      [⟨some ".models", "user", "users"⟩, ⟨some "graphql", "Info", "Info"⟩] := by
  have hreached : Reached mixedImports :=
    .merge (.recordModule (.recordAll (.empty true) _ _) _ _ _)
      (.recordModule (.record (.record (.empty true) _) _) _ _ _)
  obtain ⟨running, checked, hlays, hread⟩ :=
    readBlock_lays hreached (by decide) (by decide) (by decide)
  have htext : readBlock ("\n".intercalate mixedImports.texts) =
      some ([⟨some "__future__", "annotations", "annotations"⟩, ⟨some "typing", "Any", "Any"⟩,
        ⟨some "typing", "List", "List"⟩, ⟨some "typing", "TYPE_CHECKING", "TYPE_CHECKING"⟩,
        ⟨none, "httpx", "httpx"⟩],
        some [⟨some ".models", "user", "users"⟩, ⟨some "graphql", "Info", "Info"⟩]) := by
    decide +kernel
  obtain ⟨hrunning, hchecked⟩ := Prod.mk.inj (Option.some.inj (hread.symm.trans htext))
  refine ⟨running, checked, hlays, hrunning, ?_⟩
  split_ifs at hchecked
  exact Option.some.inj hchecked

end Registry

end Graphwright.Module
