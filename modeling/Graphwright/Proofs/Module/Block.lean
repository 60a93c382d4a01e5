import Graphwright.Proofs.Module.Binding
import Mathlib.Data.List.Basic

/-!
# What the import block of a registry binds

A registry lays out its imports module by module, first those that are needed when the module runs.
All that its block binds comes from one of its imports, or from the flag that the test for type
checkers reads (`exists_of_mem_bindingsFor`), and whatever an import binds is bound where the import
is needed (`mem_bindingsFor_of_mem`).
-/
namespace Graphwright.Module

/-! ## The imports of one module -/

/-- The symbols among imports of a module, with their other names. -/
def symbolsOf (is : List Import) : List (String × Option String) :=
  (is.filter (·.symbol ≠ wholeModule)).map fun i => (i.symbol, i.rename?.filter (· ≠ i.symbol))

section StatementsOf

variable {source : String} {is : List Import} (h : ∀ i ∈ is, i.source = source)

theorem mem_symbolsOf {item : String × Option String} : item ∈ symbolsOf is ↔
    ∃ i ∈ is, i.symbol ≠ wholeModule ∧ item = (i.symbol, i.rename?.filter (· ≠ i.symbol)) := by
  simp only [symbolsOf, List.mem_map, List.mem_filter, decide_eq_true_eq, and_assoc,
    eq_comm (b := item)]

include h

/-- The statements for imports of a module are those of whole imports, and one for all its
symbols. -/
theorem mem_statementsOf {s : Statement} : s ∈ statementsOf source is ↔
    (∃ i ∈ is, i.symbol = wholeModule ∧ s = i.statement) ∨
    (s = .names source (symbolsOf is) ∧ ∃ i ∈ is, i.symbol ≠ wholeModule) := by
  have hwhole : (∃ i ∈ is, i.symbol = wholeModule ∧ .ofModule source i.rename? = s) ↔
      ∃ i ∈ is, i.symbol = wholeModule ∧ s = i.statement := by
    refine exists_congr fun i => and_congr_right fun hi => and_congr_right fun hs => ?_
    rw [Import.statement, if_pos hs, h i hi, eq_comm]
  have hempty : (is.filter (·.symbol ≠ wholeModule)).isEmpty ↔ ¬ ∃ i ∈ is,
      i.symbol ≠ wholeModule := by
    simp
  rw [statementsOf, List.mem_append, ← hwhole]
  refine or_congr (by simp [and_assoc]) ?_
  by_cases hsymbols : ∃ i ∈ is, i.symbol ≠ wholeModule
  · rw [if_neg (fun he => hempty.mp he hsymbols), List.mem_singleton]
    exact ⟨fun hs => ⟨hs, hsymbols⟩, And.left⟩
  · rw [if_pos (hempty.mpr hsymbols)]
    exact ⟨nofun, fun hs => absurd hs.2 hsymbols⟩

theorem mem_bindings_statementsOf {x : Binding} :
    (∃ s ∈ statementsOf source is, x ∈ s.bindings) ↔ ∃ i ∈ is, x ∈ i.bindings := by
  have hsymbol {i : Import} (hi : i ∈ is) (hs : i.symbol ≠ wholeModule) : i.bindings =
      [⟨(i.rename?.filter (· ≠ i.symbol)).getD i.symbol, (i.symbol, source)⟩] := by
    rw [Import.bindings, Import.statement, if_neg hs, h i hi]
    rfl
  constructor
  · rintro ⟨s, hs, hx⟩
    rcases (mem_statementsOf h).mp hs with ⟨i, hi, -, rfl⟩ | ⟨rfl, -⟩
    · exact ⟨i, hi, hx⟩
    · obtain ⟨item, hitem, rfl⟩ := List.mem_map.mp hx
      obtain ⟨i, hi, hne, rfl⟩ := mem_symbolsOf.mp hitem
      exact ⟨i, hi, by rw [hsymbol hi hne]; exact List.mem_singleton_self _⟩
  · rintro ⟨i, hi, hx⟩
    by_cases hs : i.symbol = wholeModule
    · exact ⟨i.statement, (mem_statementsOf h).mpr (.inl ⟨i, hi, hs, rfl⟩), hx⟩
    · refine ⟨_, (mem_statementsOf h).mpr (.inr ⟨rfl, i, hi, hs⟩), ?_⟩
      rw [hsymbol hi hs] at hx
      rw [List.mem_singleton.mp hx]
      exact List.mem_map_of_mem (mem_symbolsOf.mpr ⟨i, hi, hs, rfl⟩)

theorem isValid_statementsOf :
    (∀ s ∈ statementsOf source is, s.isValid) ↔ ∀ i ∈ is, i.statement.isValid := by
  have hsymbol {i : Import} (hi : i ∈ is) (hs : i.symbol ≠ wholeModule) : i.statement.isValid ↔
      isModuleName source ∧ isName i.symbol ∧ (i.rename?.filter (· ≠ i.symbol)).all isName := by
    rw [Import.statement, if_neg hs, h i hi]
    simp [Statement.isValid]
  have hnames : (∃ i ∈ is, i.symbol ≠ wholeModule) →
      ((Statement.names source (symbolsOf is)).isValid ↔
      ∀ i ∈ is, i.symbol ≠ wholeModule → i.statement.isValid) := by
    rintro ⟨j, hj, hjs⟩
    have hne : symbolsOf is ≠ [] := List.ne_nil_of_mem (mem_symbolsOf.mpr ⟨j, hj, hjs, rfl⟩)
    rw [Statement.isValid, Bool.and_eq_true_iff, Bool.and_eq_true_iff, List.all_eq_true]
    constructor
    · rintro ⟨⟨hsource, -⟩, hall⟩ i hi hs
      have hitem := hall _ (mem_symbolsOf.mpr ⟨i, hi, hs, rfl⟩)
      exact (hsymbol hi hs).mpr ⟨hsource, Bool.and_eq_true_iff.mp hitem⟩
    · intro hall
      refine ⟨⟨((hsymbol hj hjs).mp (hall j hj hjs)).1, by simpa using hne⟩, fun item hitem => ?_⟩
      obtain ⟨i, hi, hs, rfl⟩ := mem_symbolsOf.mp hitem
      exact Bool.and_eq_true_iff.mpr ((hsymbol hi hs).mp (hall i hi hs)).2
  constructor
  · intro hall i hi
    by_cases hs : i.symbol = wholeModule
    · exact hall _ ((mem_statementsOf h).mpr (.inl ⟨i, hi, hs, rfl⟩))
    · exact (hnames ⟨i, hi, hs⟩).mp
        (hall _ ((mem_statementsOf h).mpr (.inr ⟨rfl, i, hi, hs⟩))) i hi hs
  · intro hall s hs
    rcases (mem_statementsOf h).mp hs with ⟨i, hi, -, rfl⟩ | ⟨rfl, hex⟩
    · exact hall i hi
    · exact (hnames hex).mpr fun i hi _ => hall i hi

theorem statementsOf_ne_nil (hne : is ≠ []) : statementsOf source is ≠ [] := by
  obtain ⟨i, hi⟩ := List.exists_mem_of_ne_nil is hne
  by_cases hs : i.symbol = wholeModule
  · exact List.ne_nil_of_mem ((mem_statementsOf h).mpr (.inl ⟨i, hi, hs, rfl⟩))
  · exact List.ne_nil_of_mem ((mem_statementsOf h).mpr (.inr ⟨rfl, i, hi, hs⟩))

end StatementsOf

/-- What a block needs for itself: the flag that its test for type checkers reads. -/
def ImportBlock.tested (b : ImportBlock) : List Import :=
  if b.checking.isEmpty then [] else [Registry.checkingFlag]

theorem ImportBlock.mem_tested {b : ImportBlock} (h : b.checking ≠ []) :
    Registry.checkingFlag ∈ b.tested := by
  rw [tested, if_neg fun he => h (List.isEmpty_iff.mp he)]
  exact List.mem_singleton_self _

theorem ImportBlock.eq_of_mem_tested {b : ImportBlock} {i : Import} (h : i ∈ b.tested) :
    b.checking ≠ [] ∧ i = Registry.checkingFlag := by
  unfold tested at h
  split at h
  · cases h
  · rename_i hne
    exact ⟨fun hnil => hne (List.isEmpty_iff.mpr hnil), List.mem_singleton.mp h⟩

namespace Registry

/-! ## The imports of a registry -/

theorem mem_sources {is : List Import} {source : String} :
    source ∈ sources is ↔ ∃ i ∈ is, i.source = source := by
  induction is with
  | nil => simp [sources]
  | cons i rest ih =>
    simp only [sources, List.mem_cons, List.mem_filter, decide_eq_true_eq, ih]
    grind

/-- Imports under their modules. -/
def Grouped (gs : List (String × List Import)) : Prop :=
  ∀ g ∈ gs, g.2 ≠ [] ∧ ∀ i ∈ g.2, i.source = g.1

/-- The statements for imports under their modules. -/
def layOut (gs : List (String × List Import)) : List Statement :=
  gs.flatMap fun g => statementsOf g.1 g.2

section Grouped

variable {gs : List (String × List Import)} (h : Grouped gs)

include h

theorem Grouped.mem_bindings {x : Binding} :
    x ∈ (layOut gs).flatMap (·.bindings) ↔ ∃ i ∈ gs.flatMap (·.2), x ∈ i.bindings := by
  constructor
  · intro hx
    obtain ⟨s, hs, hx⟩ := List.mem_flatMap.mp hx
    obtain ⟨g, hg, hs⟩ := List.mem_flatMap.mp hs
    obtain ⟨i, hi, hx⟩ := (mem_bindings_statementsOf (h g hg).2).mp ⟨s, hs, hx⟩
    exact ⟨i, List.mem_flatMap.mpr ⟨g, hg, hi⟩, hx⟩
  · rintro ⟨i, hi, hx⟩
    obtain ⟨g, hg, hi⟩ := List.mem_flatMap.mp hi
    obtain ⟨s, hs, hx⟩ := (mem_bindings_statementsOf (h g hg).2).mpr ⟨i, hi, hx⟩
    exact List.mem_flatMap.mpr ⟨s, List.mem_flatMap.mpr ⟨g, hg, hs⟩, hx⟩

theorem Grouped.isValid :
    (∀ s ∈ layOut gs, s.isValid) ↔ ∀ i ∈ gs.flatMap (·.2), i.statement.isValid := by
  constructor
  · intro hall i hi
    obtain ⟨g, hg, hi⟩ := List.mem_flatMap.mp hi
    exact (isValid_statementsOf (h g hg).2).mp
      (fun s hs => hall s (List.mem_flatMap.mpr ⟨g, hg, hs⟩)) i hi
  · intro hall s hs
    obtain ⟨g, hg, hs⟩ := List.mem_flatMap.mp hs
    exact (isValid_statementsOf (h g hg).2).mpr
      (fun i hi => hall i (List.mem_flatMap.mpr ⟨g, hg, hi⟩)) s hs

end Grouped

theorem grouped_byModule (r : Registry) : Grouped r.byModule := by
  intro g hg
  obtain ⟨source, hs, rfl⟩ := List.mem_map.mp hg
  obtain ⟨i, hi, hsource⟩ := mem_sources.mp hs
  refine ⟨List.ne_nil_of_mem (List.mem_filter.mpr ⟨hi, decide_eq_true hsource⟩), fun j hj => ?_⟩
  exact of_decide_eq_true (List.mem_filter.mp hj).2

theorem mem_byModule {r : Registry} {i : Import} :
    i ∈ r.byModule.flatMap (·.2) ↔ i ∈ r.imports := by
  simp only [byModule, List.flatMap_map, List.mem_flatMap, mem_sources, List.mem_filter,
    decide_eq_true_eq]
  grind

/-- The imports of the module of the flag, the flag among them. -/
def withFlag (is : List Import) : List Import :=
  if is.any (·.key = checkingFlag.key) then is else is ++ [checkingFlag]

theorem addFlag_cons (source : String) (is : List Import) (rest : List (String × List Import)) :
    addFlag ((source, is) :: rest) =
      if source = "typing" then (source, withFlag is) :: rest else (source, is) :: addFlag rest :=
  rfl

theorem mem_withFlag {is : List Import} {i : Import} (h : i ∈ withFlag is) :
    i ∈ is ∨ i = checkingFlag := by
  unfold withFlag at h
  split at h
  · exact .inl h
  · simpa using h

theorem subset_withFlag (is : List Import) : is ⊆ withFlag is := by
  unfold withFlag
  split
  · exact List.Subset.refl is
  · exact List.subset_append_left is _

theorem exists_flag_withFlag (is : List Import) : ∃ i ∈ withFlag is, i.key = checkingFlag.key := by
  unfold withFlag
  split
  · rename_i h
    obtain ⟨i, hi, hkey⟩ := List.any_eq_true.mp h
    exact ⟨i, hi, of_decide_eq_true hkey⟩
  · exact ⟨checkingFlag, List.mem_append_right _ (List.mem_singleton_self _), rfl⟩

theorem Grouped.addFlag {gs : List (String × List Import)} (h : Grouped gs) :
    Grouped (addFlag gs) := by
  induction gs with
  | nil => simp [Grouped, Registry.addFlag, checkingFlag]
  | cons g rest ih =>
    obtain ⟨hg, hrest⟩ := List.forall_mem_cons.mp h
    rw [addFlag_cons]
    split
    · rename_i hsource
      refine List.forall_mem_cons.mpr ⟨⟨?_, fun i hi => ?_⟩, hrest⟩
      · exact fun hnil => hg.1 (List.subset_nil.mp (hnil ▸ subset_withFlag g.2))
      · rcases mem_withFlag hi with hi | rfl
        · exact hg.2 i hi
        · exact hsource.symm
    · exact List.forall_mem_cons.mpr ⟨hg, ih hrest⟩

theorem mem_addFlag {gs : List (String × List Import)} {i : Import}
    (h : i ∈ (addFlag gs).flatMap (·.2)) : i ∈ gs.flatMap (·.2) ∨ i = checkingFlag := by
  induction gs with
  | nil => exact .inr (by simpa [addFlag] using h)
  | cons g rest ih =>
    rw [addFlag_cons] at h
    rw [List.flatMap_cons, List.mem_append]
    split at h
    · rcases List.mem_append.mp h with h | h
      · exact (mem_withFlag h).imp_left .inl
      · exact .inl (.inr h)
    · rcases List.mem_append.mp h with h | h
      · exact .inl (.inl h)
      · exact (ih h).imp_left .inr

theorem mem_addFlag_of_mem {gs : List (String × List Import)} {i : Import}
    (h : i ∈ gs.flatMap (·.2)) : i ∈ (addFlag gs).flatMap (·.2) := by
  induction gs with
  | nil => cases h
  | cons g rest ih =>
    rw [addFlag_cons]
    rcases List.mem_append.mp h with h | h
    · split
      · exact List.mem_append_left _ (subset_withFlag g.2 h)
      · exact List.mem_append_left _ h
    · split
      · exact List.mem_append_right _ h
      · exact List.mem_append_right _ (ih h)

theorem exists_flag_addFlag (gs : List (String × List Import)) :
    ∃ i ∈ (addFlag gs).flatMap (·.2), i.key = checkingFlag.key := by
  induction gs with
  | nil => exact ⟨checkingFlag, List.mem_append_left _ (List.mem_singleton_self _), rfl⟩
  | cons g rest ih =>
    rw [addFlag_cons]
    split
    · obtain ⟨i, hi, hkey⟩ := exists_flag_withFlag g.2
      exact ⟨i, List.mem_append_left _ hi, hkey⟩
    · obtain ⟨i, hi, hkey⟩ := ih
      exact ⟨i, List.mem_append_right _ hi, hkey⟩

/-! ## The statements of a registry -/

/-- The imports of a module are for type checkers only. -/
def isChecked (r : Registry) (g : String × List Import) : Bool :=
  r.separateTyping && g.2.all (·.kind = .typing)

/-- The modules that are imported for type checkers only. -/
def checkedGroups (r : Registry) : List (String × List Import) := r.byModule.filter r.isChecked

/-- The modules that are imported when the module runs. -/
def runningGroups (r : Registry) : List (String × List Import) :=
  let running := r.byModule.filter (!r.isChecked ·)
  if r.checkedGroups.isEmpty then running else addFlag running

variable {r : Registry}

theorem mem_block_runtime {s : Statement} : s ∈ r.block.runtime ↔ s ∈ layOut r.runningGroups := by
  have hsplit (gs : List (String × List Import)) (g : String × List Import) :
      g ∈ gs.filter (·.1 = futureModule) ++ gs.filter (·.1 ≠ futureModule) ↔ g ∈ gs := by
    simp only [List.mem_append, List.mem_filter, decide_eq_true_eq]
    grind
  rw [layOut, List.mem_flatMap]
  refine List.mem_flatMap.trans (exists_congr fun g => and_congr_left fun _ => ?_)
  exact hsplit r.runningGroups g

theorem block_checking (r : Registry) : r.block.checking = layOut r.checkedGroups := rfl

theorem checkedGroups_ne_nil (h : r.block.checking ≠ []) : r.checkedGroups ≠ [] := by
  rintro hnil
  rw [block_checking, hnil] at h
  exact h rfl

theorem checking_ne_nil (h : r.checkedGroups ≠ []) : r.block.checking ≠ [] := by
  obtain ⟨g, hg⟩ := List.exists_mem_of_ne_nil _ h
  obtain ⟨hne, hsource⟩ := r.grouped_byModule g (List.mem_of_mem_filter hg)
  obtain ⟨s, hs⟩ := List.exists_mem_of_ne_nil _ (statementsOf_ne_nil hsource hne)
  exact List.ne_nil_of_mem (List.mem_flatMap.mpr ⟨g, hg, hs⟩)

theorem grouped_runningGroups (r : Registry) : Grouped r.runningGroups := by
  have h : Grouped (r.byModule.filter (!r.isChecked ·)) :=
    fun g hg => r.grouped_byModule g (List.mem_of_mem_filter hg)
  unfold runningGroups
  split
  · exact h
  · exact h.addFlag

theorem grouped_checkedGroups (r : Registry) : Grouped r.checkedGroups :=
  fun g hg => r.grouped_byModule g (List.mem_of_mem_filter hg)

theorem mem_checkedGroups {i : Import} (h : i ∈ r.checkedGroups.flatMap (·.2)) : i ∈ r.imports := by
  obtain ⟨g, hg, hi⟩ := List.mem_flatMap.mp h
  exact mem_byModule.mp (List.mem_flatMap.mpr ⟨g, List.mem_of_mem_filter hg, hi⟩)

theorem mem_runningGroups {i : Import} (h : i ∈ r.runningGroups.flatMap (·.2)) :
    i ∈ r.imports ++ r.block.tested := by
  have hold (h : i ∈ (r.byModule.filter (!r.isChecked ·)).flatMap (·.2)) : i ∈ r.imports := by
    obtain ⟨g, hg, hi⟩ := List.mem_flatMap.mp h
    exact mem_byModule.mp (List.mem_flatMap.mpr ⟨g, List.mem_of_mem_filter hg, hi⟩)
  unfold runningGroups at h
  split at h
  · exact List.mem_append_left _ (hold h)
  · rename_i hchecked
    rcases mem_addFlag h with h | rfl
    · exact List.mem_append_left _ (hold h)
    · have hne := checking_ne_nil fun hnil => hchecked (List.isEmpty_iff.mpr hnil)
      exact List.mem_append_right _ (ImportBlock.mem_tested hne)

/-- An import is among those that run, or it is for type checkers only. -/
theorem mem_groups {i : Import} (h : i ∈ r.imports) :
    i ∈ r.runningGroups.flatMap (·.2) ∨ (i ∈ r.checkedGroups.flatMap (·.2) ∧ i.kind = .typing) := by
  obtain ⟨g, hg, hi⟩ := List.mem_flatMap.mp (mem_byModule.mpr h)
  by_cases hchecked : r.isChecked g
  · refine .inr ⟨List.mem_flatMap.mpr ⟨g, List.mem_filter.mpr ⟨hg, hchecked⟩, hi⟩, ?_⟩
    exact of_decide_eq_true (List.all_eq_true.mp (Bool.and_eq_true_iff.mp hchecked).2 i hi)
  · have hrunning : i ∈ (r.byModule.filter (!r.isChecked ·)).flatMap (·.2) :=
      List.mem_flatMap.mpr ⟨g, List.mem_filter.mpr ⟨hg, by simpa using hchecked⟩, hi⟩
    unfold runningGroups
    split
    · exact .inl hrunning
    · exact .inl (mem_addFlag_of_mem hrunning)

theorem mem_bindingsFor_runtime {x : Binding} :
    x ∈ r.block.bindingsFor .runtime ↔ ∃ i ∈ r.runningGroups.flatMap (·.2), x ∈ i.bindings := by
  rw [← r.grouped_runningGroups.mem_bindings, ImportBlock.bindingsFor, List.mem_flatMap,
    List.mem_flatMap]
  exact exists_congr fun s => and_congr_left fun _ => mem_block_runtime

theorem mem_bindingsFor_typing {x : Binding} :
    x ∈ r.block.bindingsFor .typing ↔
      x ∈ r.block.bindingsFor .runtime ∨ ∃ i ∈ r.checkedGroups.flatMap (·.2), x ∈ i.bindings := by
  rw [← r.grouped_checkedGroups.mem_bindings, ← block_checking]
  simp only [ImportBlock.bindingsFor, ImportBlock.statementsFor, List.flatMap_append,
    List.mem_append]

/-- All that a block binds comes from an import, or from the flag. -/
theorem exists_of_mem_bindingsFor {x : Binding} (h : x ∈ r.block.bindingsFor .typing) :
    ∃ i ∈ r.imports ++ r.block.tested, x ∈ i.bindings := by
  rcases mem_bindingsFor_typing.mp h with h | ⟨i, hi, hx⟩
  · obtain ⟨i, hi, hx⟩ := mem_bindingsFor_runtime.mp h
    exact ⟨i, mem_runningGroups hi, hx⟩
  · exact ⟨i, List.mem_append_left _ (mem_checkedGroups hi), hx⟩

/-- What an import binds is bound where the import is needed. -/
theorem mem_bindingsFor_of_mem {i : Import} (hi : i ∈ r.imports) {x : Binding}
    (hx : x ∈ i.bindings) : x ∈ r.block.bindingsFor i.kind := by
  rcases mem_groups hi with h | ⟨h, hkind⟩
  · have hx : x ∈ r.block.bindingsFor .runtime := mem_bindingsFor_runtime.mpr ⟨i, h, hx⟩
    cases i.kind with
    | runtime => exact hx
    | typing => exact mem_bindingsFor_typing.mpr (.inl hx)
  · rw [hkind]
    exact mem_bindingsFor_typing.mpr (.inr ⟨i, h, hx⟩)

/-- A block with a test for type checkers imports the flag. -/
theorem exists_flag (h : r.block.checking ≠ []) : ∃ i ∈ r.imports ++ r.block.tested,
    i.key = checkingFlag.key ∧ ∀ x ∈ i.bindings, x ∈ r.block.bindingsFor .runtime := by
  obtain ⟨i, hi, hkey⟩ := exists_flag_addFlag (r.byModule.filter (!r.isChecked ·))
  have hrunning : i ∈ r.runningGroups.flatMap (·.2) := by
    rw [runningGroups, if_neg fun he => checkedGroups_ne_nil h (List.isEmpty_iff.mp he)]
    exact hi
  exact ⟨i, mem_runningGroups hrunning, hkey,
    fun x hx => mem_bindingsFor_runtime.mpr ⟨i, hrunning, hx⟩⟩

/-- A block follows the grammar if the statements of its imports do. -/
theorem isValid_block :
    (∀ s ∈ r.block.statementsFor .typing, s.isValid) ↔ ∀ i ∈ r.imports, i.statement.isValid := by
  have hsplit : (∀ s ∈ r.block.statementsFor .typing, s.isValid) ↔
      (∀ i ∈ r.runningGroups.flatMap (·.2), i.statement.isValid) ∧
        ∀ i ∈ r.checkedGroups.flatMap (·.2), i.statement.isValid := by
    rw [← r.grouped_runningGroups.isValid, ← r.grouped_checkedGroups.isValid, ← block_checking]
    simp only [ImportBlock.statementsFor, List.mem_append, mem_block_runtime, or_imp, forall_and]
  rw [hsplit]
  constructor
  · exact fun ⟨hrunning, hchecked⟩ i hi => (mem_groups hi).elim (hrunning i) fun h => hchecked i h.1
  · intro hall
    refine ⟨fun i hi => ?_, fun i hi => hall i (mem_checkedGroups hi)⟩
    rcases List.mem_append.mp (mem_runningGroups hi) with hi | hi
    · exact hall i hi
    · rw [(ImportBlock.eq_of_mem_tested hi).2]
      decide

end Registry

end Graphwright.Module
