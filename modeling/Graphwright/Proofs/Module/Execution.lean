import Mathlib.Data.List.TakeWhile
import Graphwright.Proofs.Module.Combining
import Graphwright.Proofs.Module.Layout

/-!
# Import statements that are executed

Recording an import answers the name to refer to it by. What that name refers to is decided when the
text of the import block runs: the statements are read (`readBlock`) and executed one after another,
each binds one name, and a later one takes a name away from an earlier one (`Globals.exec`). A
statement that imports `a.b` under its own name binds `a` only; the dotted name then leads through
`a` to what has been loaded.

* `bindings_foldl_exec`, `loaded_foldl_exec`: what a run binds and loads, from what one statement
  does.
* `refersTo?_localName`, `lookup?_of_refersTo?`: a local name refers to its import if and only if
  its first name is bound as the statement of the import binds it.
* `record_refers`: so the name that recording answers refers to the import, unless the statement of
  another import binds its first name to something else; and `record_misses` has the calls for which
  it does not.
-/
namespace Graphwright.Module

/-! ## Dotted names -/

def firstOf (name : String) : String := String.ofList (name.toList.takeWhile (· ≠ '.'))

/-- What follows the first name, from the dot on. -/
def behindFirst (name : String) : String := String.ofList (name.toList.dropWhile (· ≠ '.'))

theorem firstOf_append_behindFirst (name : String) : firstOf name ++ behindFirst name = name := by
  rw [firstOf, behindFirst, ← String.ofList_append, List.takeWhile_append_dropWhile,
    String.ofList_toList]

theorem firstOf_of_isName {name : String} (h : isName name) : firstOf name = name := by
  rw [firstOf, List.takeWhile_eq_self_iff.mpr, String.ofList_toList]
  exact fun c hc => decide_eq_true fun hdot => not_mem_of_isName h (hdot ▸ hc)

theorem behindFirst_of_isName {name : String} (h : isName name) : behindFirst name = "" := by
  rw [behindFirst, List.dropWhile_eq_nil_iff.mpr]
  exact fun c hc => decide_eq_true fun hdot => not_mem_of_isName h (hdot ▸ hc)

/-- The first name of a dotted one is a package that it goes through. -/
theorem firstOf_mem_packagesOf {name : String} (h : firstOf name ≠ name) :
    firstOf name ∈ packagesOf name := by
  refine List.mem_map_of_mem (mem_beforeDots.mpr ?_)
  have hsplit := List.takeWhile_append_dropWhile (p := fun c => decide (c ≠ '.')) (l := name.toList)
  cases hbehind : name.toList.dropWhile (· ≠ '.') with
  | nil =>
    rw [hbehind, List.append_nil] at hsplit
    exact (h (by rw [firstOf, hsplit, String.ofList_toList])).elim
  | cons c rest =>
    have hdot : c = '.' := by
      have hhead := List.head?_dropWhile_not (fun c => decide (c ≠ '.')) name.toList
      rw [hbehind] at hhead
      simpa using hhead
    rw [hbehind, hdot] at hsplit
    exact ⟨rest, hsplit.symm⟩

/-! ## Execution -/

namespace Item

/-- What the statement binds. A module that is imported under its own name binds its first name, to
the package that it is in. -/
def binding (i : Item) : Binding :=
  match i.from? with
  | some source => ⟨i.bound, (i.name, source)⟩
  | none =>
    if i.bound = i.name then ⟨firstOf i.name, (wholeModule, firstOf i.name)⟩
    else ⟨i.bound, (wholeModule, i.name)⟩

/-- The modules that the statement loads: the one that it names, and the packages that this one is
in. -/
def loads (i : Item) : List String :=
  let source := i.from?.getD i.name
  packagesOf source ++ [source]

/-- The statements bind one name to different things. -/
def Clashes (i j : Item) : Prop :=
  i.binding.name = j.binding.name ∧ i.binding.target ≠ j.binding.target

instance (i j : Item) : Decidable (i.Clashes j) := inferInstanceAs (Decidable (_ ∧ _))

end Item

/-- A module that runs: what its names have been bound to, the latest first, and the modules that
have been loaded. -/
structure Globals where
  bindings : List Binding := []
  loaded : List String := []

namespace Globals

/-- Executes a statement. -/
def exec (g : Globals) (i : Item) : Globals := ⟨i.binding :: g.bindings, g.loaded ++ i.loads⟩

/-- A module after its import statements. -/
def run (items : List Item) : Globals := items.foldl exec {}

/-- What a name is bound to. -/
def lookup? (g : Globals) (name : String) : Option (String × String) :=
  (g.bindings.find? (·.name = name)).map (·.target)

/-- What a name refers to. A dotted name leads through the module that its first name is bound to,
to one that has been loaded. -/
def refersTo? (g : Globals) (name : String) : Option (String × String) :=
  match g.lookup? (firstOf name) with
  | none => none
  | some target =>
    if behindFirst name = "" then some target
    else if target.1 = wholeModule ∧ target.2 ++ behindFirst name ∈ g.loaded then
      some (wholeModule, target.2 ++ behindFirst name)
    else none

theorem bindings_foldl_exec (items : List Item) (g : Globals) :
    (items.foldl exec g).bindings = (items.map (·.binding)).reverse ++ g.bindings := by
  induction items generalizing g with
  | nil => rfl
  | cons i rest ih => simp [ih, exec]

theorem loaded_foldl_exec (items : List Item) (g : Globals) :
    (items.foldl exec g).loaded = g.loaded ++ items.flatMap (·.loads) := by
  induction items generalizing g with
  | nil => simp
  | cons i rest ih => simp [ih, exec]

theorem mem_bindings_run {items : List Item} {x : Binding} :
    x ∈ (run items).bindings ↔ ∃ i ∈ items, i.binding = x := by
  simp [run, bindings_foldl_exec]

theorem mem_loaded_run {items : List Item} {source : String} :
    source ∈ (run items).loaded ↔ ∃ i ∈ items, source ∈ i.loads := by
  simp [run, loaded_foldl_exec]

/-- A name that has been bound, and to one thing only, has not been taken away. -/
theorem lookup?_eq_some {g : Globals} {x : Binding} (hx : x ∈ g.bindings)
    (honly : ∀ y ∈ g.bindings, y.name = x.name → y.target = x.target) :
    g.lookup? x.name = some x.target := by
  cases hfind : g.bindings.find? (·.name = x.name) with
  | none => exact absurd (decide_eq_true rfl) (List.find?_eq_none.mp hfind x hx)
  | some y =>
    have hname : y.name = x.name := by simpa using List.find?_some hfind
    rw [lookup?, hfind, Option.map_some, honly y (List.mem_of_find?_eq_some hfind) hname]

end Globals

/-! ## Statements that are valid -/

theorem isPlain_of_isName {name : String} (h : isName name) : IsPlain name.toList :=
  isPlain_of_isIdentifier (Bool.and_eq_true_iff.mp h).1

theorem isPlain_of_isDottedName {name : String} (h : isDottedName name) : IsPlain name.toList := by
  refine isPlain_of_fields (fun hnil => ?_) fun piece hpiece => .inr ?_
  · rw [isDottedName, hnil] at h
    exact absurd h (by decide)
  · have hname := List.all_eq_true.mp h piece hpiece
    rw [isName, String.toList_ofList] at hname
    exact (Bool.and_eq_true_iff.mp hname).1

theorem isPlain_of_isModuleName {source : String} (h : isModuleName source) :
    IsPlain source.toList := by
  have hsplit := List.takeWhile_append_dropWhile (p := fun c => c == '.') (l := source.toList)
  have hdots : ∀ c ∈ source.toList.takeWhile (· == '.'), c ∉ [' ', ',', '(', ')'] ∧
      Text.isLineBreak c = false := by
    intro c hc
    obtain rfl : c = '.' := beq_iff_eq.mp (List.all_eq_true.mp List.all_takeWhile c hc)
    decide
  have hrest : ∀ c ∈ source.toList.dropWhile (· == '.'), c ∉ [' ', ',', '(', ')'] ∧
      Text.isLineBreak c = false := by
    intro c hc
    rw [isModuleName, if_neg (by simpa using List.ne_nil_of_mem hc)] at h
    have hplain := isPlain_of_isDottedName h
    rw [String.toList_ofList] at hplain
    exact ⟨hplain.special c hc, hplain.breaks c hc⟩
  have hall := List.forall_mem_append.mpr ⟨hdots, hrest⟩
  rw [hsplit] at hall
  refine ⟨fun hnil => ?_, fun c hc => (hall c hc).1, fun c hc => (hall c hc).2⟩
  obtain rfl : source = "" := String.toList_eq_nil_iff.mp hnil
  exact absurd h (by decide)

theorem isPlain_of_all_isName {other? : Option String} (h : other?.all isName) :
    ∀ other ∈ other?, IsPlain other.toList := by
  rintro other rfl
  exact isPlain_of_isName h

theorem Statement.isReadable_of_isValid {s : Statement} (h : s.isValid) : s.IsReadable := by
  cases s with
  | names source items =>
    obtain ⟨h, hitems⟩ := Bool.and_eq_true_iff.mp h
    obtain ⟨hsource, hne⟩ := Bool.and_eq_true_iff.mp h
    refine ⟨?_, by simpa [said] using hne, fun item hitem => ?_⟩
    · intro _ hfrom
      obtain rfl := Option.some.inj hfrom
      exact isPlain_of_isModuleName hsource
    · obtain ⟨hname, hother⟩ := Bool.and_eq_true_iff.mp (List.all_eq_true.mp hitems item hitem)
      exact ⟨isPlain_of_isName hname, isPlain_of_all_isName hother⟩
  | whole source other? =>
    obtain ⟨hsource, hother⟩ := Bool.and_eq_true_iff.mp h
    refine ⟨fun _ hfrom => ?_, List.cons_ne_nil _ _,
      List.forall_mem_singleton.mpr ⟨isPlain_of_isDottedName hsource, isPlain_of_all_isName hother⟩⟩
    cases hfrom
  | member package name other? =>
    obtain ⟨h, hother⟩ := Bool.and_eq_true_iff.mp h
    obtain ⟨hpackage, hname⟩ := Bool.and_eq_true_iff.mp h
    refine ⟨?_, List.cons_ne_nil _ _,
      List.forall_mem_singleton.mpr ⟨isPlain_of_isName hname, isPlain_of_all_isName hother⟩⟩
    intro _ hfrom
    obtain rfl := Option.some.inj hfrom
    exact isPlain_of_isModuleName hpackage

/-! ## What imports bind -/

namespace Import

/-- A statement that can be referred to binds the local name, to what is imported, or it imports a
module under its own name; then it binds the first name of the module and loads the module. -/
theorem binding_cases {i : Import} (hi : i.IsSound) :
    isName i.localName ∧ i.item.binding = ⟨i.localName, i.target⟩ ∨
    i.target = (wholeModule, i.localName) ∧
      i.item.binding = ⟨firstOf i.localName, (wholeModule, firstOf i.localName)⟩ ∧
      i.localName ∈ i.item.loads := by
  by_cases hs : i.symbol = wholeModule
  · cases hr : i.rename? with
    | some name =>
      have hname := isName_of_rename hi.valid hr
      refine .inl ⟨localName_of_rename hr ▸ hname, ?_⟩
      rw [localName_of_rename hr, item, target, if_pos hs, if_pos hs, hr, key, hs]
      cases Statement.placeOf? i.source with
      | some place => rfl
      | none =>
        by_cases hsame : name = i.source
        · simp [Item.binding, ← hsame, firstOf_of_isName hname]
        · simp [Item.binding, hsame]
    | none =>
      have hlocal : i.localName = i.source := by
        rw [localName, hr]
        exact if_pos hs
      have hplace : Statement.placeOf? i.source = none := by
        cases hplace : Statement.placeOf? i.source with
        | none => rfl
        | some place => exact absurd (Statement.head?_of_placeOf? hplace) (hlocal ▸ hi.head)
      rw [hlocal, item, target, if_pos hs, if_pos hs, hplace, hr, key, hs]
      exact .inr ⟨rfl, if_pos rfl, List.mem_append_right _ (List.mem_singleton_self _)⟩
  · refine .inl ⟨(bindings_of_symbol hi.valid hs).1, ?_⟩
    rw [localName_of_symbol hs, item, target, if_neg hs, if_neg hs]
    rfl

theorem name_binding {i : Import} (hi : i.IsSound) : i.item.binding.name = firstOf i.localName := by
  rcases binding_cases hi with ⟨hname, hbinding⟩ | ⟨-, hbinding, -⟩
  · rw [hbinding, firstOf_of_isName hname]
  · rw [hbinding]

/-- Of two imports with different local names that clash, one is called like a package that the
other one's name goes through. -/
theorem packagesOf_of_clashes {i j : Import} (hi : i.IsSound) (hj : j.IsSound)
    (hne : i.localName ≠ j.localName) (h : i.item.Clashes j.item) :
    i.localName ∈ packagesOf j.localName ∨ j.localName ∈ packagesOf i.localName := by
  obtain ⟨hfirst, htarget⟩ := h
  rw [name_binding hi, name_binding hj] at hfirst
  rcases binding_cases hi with ⟨hin, hib⟩ | ⟨hit, hib, -⟩ <;>
    rcases binding_cases hj with ⟨hjn, hjb⟩ | ⟨hjt, hjb, -⟩
  · rw [firstOf_of_isName hin, firstOf_of_isName hjn] at hfirst
    exact (hne hfirst).elim
  · rw [firstOf_of_isName hin] at hfirst
    exact .inl (hfirst ▸ firstOf_mem_packagesOf (hfirst ▸ hne))
  · rw [firstOf_of_isName hjn] at hfirst
    exact .inr (hfirst ▸ firstOf_mem_packagesOf (hfirst ▸ hne.symm))
  · rw [hib, hjb, hfirst] at htarget
    exact (htarget rfl).elim

end Import

namespace Globals

/-- A local name refers to its import if its first name is bound as the statement of the import
binds it, and the statement has been executed. -/
theorem refersTo?_localName {g : Globals} {i : Import} (hi : i.IsSound)
    (hlookup : g.lookup? (firstOf i.localName) = some i.item.binding.target)
    (hloads : i.item.loads ⊆ g.loaded) : g.refersTo? i.localName = some i.target := by
  rw [refersTo?, hlookup]
  rcases Import.binding_cases hi with ⟨hname, hbinding⟩ | ⟨htarget, hbinding, hmem⟩
  · rw [hbinding]
    exact if_pos (behindFirst_of_isName hname)
  · rw [hbinding, htarget]
    have hlocal := firstOf_append_behindFirst i.localName
    dsimp only
    by_cases hbehind : behindFirst i.localName = ""
    · rw [hbehind, String.append_empty] at hlocal
      rw [if_pos hbehind, hlocal]
    · rw [if_neg hbehind, hlocal, if_pos ⟨rfl, hloads hmem⟩]

/-- It refers to its import only if its first name is bound as the statement of the import binds
it. -/
theorem lookup?_of_refersTo? {g : Globals} {i : Import} (hi : i.IsSound)
    (h : g.refersTo? i.localName = some i.target) :
    g.lookup? i.item.binding.name = some i.item.binding.target := by
  rw [Import.name_binding hi]
  have hlocal := firstOf_append_behindFirst i.localName
  rw [refersTo?] at h
  cases hlookup : g.lookup? (firstOf i.localName) with
  | none =>
    rw [hlookup] at h
    cases h
  | some target =>
    rw [hlookup] at h
    dsimp only at h
    rcases Import.binding_cases hi with ⟨hname, hbinding⟩ | ⟨htarget, hbinding, -⟩
    · rw [if_pos (behindFirst_of_isName hname)] at h
      rw [hbinding, h]
    · rw [hbinding]
      by_cases hbehind : behindFirst i.localName = ""
      · rw [hbehind, String.append_empty] at hlocal
        rw [if_pos hbehind, htarget] at h
        rw [h, hlocal]
      · rw [if_neg hbehind, htarget] at h
        split_ifs at h with hmodule
        -- the same name is behind both, so the same is in front of it
        have hsource := hlocal.trans (Prod.mk.inj (Option.some.inj h)).2.symm
        rw [(String.append_left_inj _).mp hsource, ← hmodule.1]

end Globals

/-! ## The names that recording answers -/

namespace Registry

/-- What is recorded is there, and its local name is the answer. -/
theorem get?_record (r : Registry) (i : Import) :
    ∃ e, (r.record i).2.get? i.symbol i.source = some e ∧ (r.record i).1 = e.localName := by
  cases hget : r.get? i.symbol i.source with
  | some old =>
    rw [record_of_mem hget]
    exact ⟨old, hget, rfl⟩
  | none =>
    have hnew : ¬r.imports.any (·.key = i.key) := by
      simpa [Import.key] using List.find?_eq_none.mp hget
    refine ⟨i, ?_, by rw [record, hget]⟩
    rw [record, hget]
    dsimp only
    rw [insert, if_neg hnew, Registry.get?, List.find?_append, ← Registry.get?, hget,
      Option.none_or]
    exact List.find?_cons_of_pos (decide_eq_true rfl)

section Unseparated

variable {r : Registry} (h : r.separateTyping = false)

include h

theorem checkedGroups_eq_nil : r.checkedGroups = [] :=
  List.filter_eq_nil_iff.mpr fun g _ => by simp [isChecked, h]

/-- If types are not kept apart, every import runs, and nothing else does. -/
theorem mem_entries_orderedGroups {i : Import} : i ∈ entries r.orderedGroups ↔ i ∈ r.imports := by
  have hrunning : r.runningGroups = r.byModule := by
    rw [runningGroups, if_pos (by rw [checkedGroups_eq_nil h]; rfl)]
    exact List.filter_eq_self.mpr fun g _ => by simp [isChecked, h]
  rw [(perm_entries r.orderedGroups).mem_iff, ((perm_orderedGroups r).flatMap_right _).mem_iff,
    hrunning, mem_byModule]

/-- The text of the block is read as the imports, if their statements follow the grammar. -/
theorem readBlock_unseparated (hvalid : ∀ i ∈ r.imports, i.statement.isValid) :
    readBlock ("\n".intercalate r.texts) = some ((entries r.orderedGroups).map (·.item), none) := by
  have hreadable : ∀ s ∈ r.block.runtime ++ r.block.checking, s.IsReadable :=
    fun s hs => Statement.isReadable_of_isValid (isValid_block.mpr hvalid s hs)
  rw [texts, ImportBlock.readBlock_texts hreadable, block_runtime, block_checking,
    checkedGroups_eq_nil h, (grouped_orderedGroups r).items_layOut]
  rfl

end Unseparated

/-- **Names that refer.** Let an import be recorded in a registry that does not keep types apart,
under a name that begins with no dot, let the statements of the imports follow the grammar, and
their local names be distinct. When the text of the block has run, the name that recording answers
refers to what has been recorded for the symbol and the module, unless the statement of
another import binds its first name to something else. An import does so only if it is a relative
module under its own name, or if one of the two local names is a package that the other one goes
through; and in the latter case one of the two local names does not refer to its import. To record a
module as a whole is to record `wholeModule`. -/
theorem record_refers (r : Registry) (i : Import)
    (hseparate : (r.record i).2.separateTyping = false)
    (hvalid : ∀ j ∈ (r.record i).2.imports, j.statement.isValid)
    (hnames : ((r.record i).2.imports.map (·.localName)).Nodup)
    (hhead : (r.record i).1.toList.head? ≠ some '.') :
    ∃ items e, readBlock ("\n".intercalate (r.record i).2.texts) = some (items, none) ∧
      (r.record i).2.get? i.symbol i.source = some e ∧ (r.record i).1 = e.localName ∧
      ((∀ j ∈ (r.record i).2.imports, ¬j.item.Clashes e.item) →
        (Globals.run items).refersTo? (r.record i).1 = some e.target) ∧
      ∀ j ∈ (r.record i).2.imports, j.item.Clashes e.item → j.localName.toList.head? = some '.' ∨
        (j.localName ∈ packagesOf e.localName ∨ e.localName ∈ packagesOf j.localName) ∧
          ¬((Globals.run items).refersTo? e.localName = some e.target ∧
            (Globals.run items).refersTo? j.localName = some j.target) := by
  obtain ⟨e, hget, hanswer⟩ := get?_record r i
  rw [hanswer] at hhead ⊢
  generalize (r.record i).2 = r' at *
  have he : e ∈ r'.imports := List.mem_of_find?_eq_some hget
  have hesound : e.IsSound := ⟨hvalid e he, hhead⟩
  have hmem {j : Import} : j ∈ entries r'.orderedGroups ↔ j ∈ r'.imports :=
    mem_entries_orderedGroups hseparate
  refine ⟨_, e, readBlock_unseparated hseparate hvalid, hget, rfl, fun hfree => ?_,
    fun j hj hclash => ?_⟩
  · have hitem := List.mem_map_of_mem (f := Import.item) (hmem.mpr he)
    refine Globals.refersTo?_localName hesound ?_ fun source hsource =>
      Globals.mem_loaded_run.mpr ⟨_, hitem, hsource⟩
    rw [← Import.name_binding hesound]
    refine Globals.lookup?_eq_some
      (Globals.mem_bindings_run.mpr ⟨_, hitem, rfl⟩) fun y hy hname => ?_
    obtain ⟨_, hk, rfl⟩ := Globals.mem_bindings_run.mp hy
    obtain ⟨j, hj, rfl⟩ := List.mem_map.mp hk
    exact by_contra fun htarget => hfree j (hmem.mp hj) ⟨hname, htarget⟩
  · by_cases hdot : j.localName.toList.head? = some '.'
    · exact .inl hdot
    · have hjsound : j.IsSound := ⟨hvalid j hj, hdot⟩
      have hne : j.localName ≠ e.localName := fun hsame => by
        obtain rfl := List.inj_on_of_nodup_map hnames hj he hsame
        exact hclash.2 rfl
      refine .inr ⟨Import.packagesOf_of_clashes hjsound hesound hne hclash,
        fun hboth => hclash.2 ?_⟩
      have hlookup := Globals.lookup?_of_refersTo? hjsound hboth.2
      rw [hclash.1, Globals.lookup?_of_refersTo? hesound hboth.1] at hlookup
      exact (Option.some.inj hlookup).symm

/-- A name of a module, a module in a package, and a relative module under another name. -/
def assortedImports : Registry :=
  (((Registry.mk false []).record ⟨"Any", "typing", .runtime, none⟩).2.recordModule "app.models"
    none).2.recordModule ".operations" (some "ops") |>.2

theorem record_refers_assortedImports :
    let i : Import := ⟨wholeModule, "app.models", .runtime, some "models"⟩
    let r := (assortedImports.record i).2
    r.separateTyping = false ∧ (∀ j ∈ r.imports, j.statement.isValid) ∧
      (r.imports.map (·.localName)).Nodup ∧ (assortedImports.record i).1 = "app.models" ∧
      ∃ items, readBlock ("\n".intercalate r.texts) = some (items, none) ∧
        (Globals.run items).refersTo? "app.models" = some (wholeModule, "app.models") := by
  intro i r
  have hseparate : r.separateTyping = false := by decide
  have hvalid : ∀ j ∈ r.imports, j.statement.isValid := by decide
  have hnames : (r.imports.map (·.localName)).Nodup := by decide
  have hanswer : (assortedImports.record i).1 = "app.models" := by decide
  obtain ⟨items, e, hread, hget, -, hrefers, -⟩ :=
    record_refers assortedImports i hseparate hvalid hnames (by rw [hanswer]; decide)
  obtain rfl : (⟨wholeModule, "app.models", .runtime, none⟩ : Import) = e :=
    Option.some.inj ((show r.get? i.symbol i.source = some _ by decide).symm.trans hget)
  rw [hanswer] at hrefers
  exact ⟨hseparate, hvalid, hnames, hanswer, items, hread, hrefers (by decide)⟩

/-- Two calls after which the answer does not refer to what has been recorded, though all statements
follow the grammar and all local names are distinct: the answer for a module in a package, whose
name a symbol takes away, and the answer for a relative module under its own name, of which the
statement binds the last name only. -/
theorem record_misses :
    let shadowing := (((Registry.mk false []).recordModule "app.models" none).2.record
      ⟨"app", "server", .runtime, none⟩).2.recordModule "app.models" none
    let relative := (Registry.mk false []).recordModule ".operations" none
    (∀ call ∈ [shadowing, relative], call.2.separateTyping = false ∧
      (∀ j ∈ call.2.imports, j.statement.isValid) ∧ (call.2.imports.map (·.localName)).Nodup) ∧
    (shadowing.1 = "app.models" ∧ readBlock ("\n".intercalate shadowing.2.texts) =
        some ([⟨none, "app.models", "app.models"⟩, ⟨some "server", "app", "app"⟩], none) ∧
      (Globals.run [⟨none, "app.models", "app.models"⟩, ⟨some "server", "app", "app"⟩]).refersTo?
        "app.models" = none) ∧
    (relative.1 = ".operations" ∧ readBlock ("\n".intercalate relative.2.texts) =
        some ([⟨some ".", "operations", "operations"⟩], none) ∧
      (Globals.run [⟨some ".", "operations", "operations"⟩]).refersTo? ".operations" = none) := by
  decide

end Registry

end Graphwright.Module
