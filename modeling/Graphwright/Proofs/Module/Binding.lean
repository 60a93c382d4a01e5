import Graphwright.Module.Part
import Graphwright.Naming.Identifier

/-!
# What import statements bind

`Statement.bindings` says which names an import statement binds, and to what: the symbol of a
module, or a module as a whole. A relative module is a symbol of the package that holds it.
The import of `a.b` under its own name also binds `a`, to the module `a`.

A block `Provides` an import if it binds the local name of the import to what is imported, and
nowhere to anything else; where the local name is dotted, the packages it goes through are bound to
themselves. What is needed when the module runs has to be bound when it runs. A block `Serves`
imports if it runs and provides them all.

An import binds its local name only (`bindings_of_symbol`, `bindings_of_rename`), except where a
module as a whole is imported under its own name; and its bindings are a matter of its key and its
local name (`bindings_congr`).
-/
namespace Graphwright.Module

/-! ## Names -/

/-- An identifier that is no reserved word. -/
def isName (s : String) : Bool := Text.isIdentifier s.toList && s ∉ Naming.reservedWords

/-- Names with dots between them. -/
def isDottedName (s : String) : Bool :=
  (Text.fields '.' s.toList).all fun piece => isName (String.ofList piece)

/-- A dotted name, perhaps after dots for the packages around the importing module, or such dots
only. -/
def isModuleName (s : String) : Bool :=
  let name := String.ofList (s.toList.dropWhile (· == '.'))
  if name.isEmpty then !s.isEmpty else isDottedName name

/-- The beginnings of a text that a dot follows. -/
def beforeDots : List Char → List (List Char)
  | [] => []
  | c :: rest =>
    let more := (beforeDots rest).map (c :: ·)
    if c = '.' then [] :: more else more

/-- The packages that a dotted name goes through. -/
def packagesOf (name : String) : List String := (beforeDots name.toList).map String.ofList

theorem mem_beforeDots {cs p : List Char} : p ∈ beforeDots cs ↔ ∃ rest, cs = p ++ '.' :: rest := by
  induction cs generalizing p with
  | nil => simp [beforeDots]
  | cons c cs ih =>
    have hmore : p ∈ (beforeDots cs).map (c :: ·) ↔
        ∃ q rest, p = c :: q ∧ cs = q ++ '.' :: rest := by
      simp only [List.mem_map, ih]
      grind
    have hnil : p = [] ∧ c = '.' ∨ (∃ q rest, p = c :: q ∧ cs = q ++ '.' :: rest) ↔
        ∃ rest, c :: cs = p ++ '.' :: rest := by
      cases p with
      | nil => simp
      | cons d q =>
        simp only [reduceCtorEq, false_and, false_or, List.cons.injEq, List.cons_append]
        grind
    rw [← hnil, ← hmore, beforeDots]
    by_cases hc : c = '.' <;> simp [hc]

theorem not_mem_of_isName {s : String} (h : isName s) : '.' ∉ s.toList := by
  have hid : Text.isIdentifier s.toList := (Bool.and_eq_true_iff.mp h).1
  intro hdot
  cases hs : s.toList with
  | nil =>
    rw [hs] at hdot
    cases hdot
  | cons c rest =>
    rw [hs] at hdot hid
    obtain ⟨hc, hrest⟩ := Bool.and_eq_true_iff.mp hid
    rcases List.mem_cons.mp hdot with rfl | hdot
    · exact absurd hc (by decide)
    · exact absurd (List.all_eq_true.mp hrest _ hdot) (by decide)

theorem packagesOf_of_isName {s : String} (h : isName s) : packagesOf s = [] := by
  refine List.map_eq_nil_iff.mpr (List.eq_nil_iff_forall_not_mem.mpr fun p hp => ?_)
  obtain ⟨rest, hs⟩ := mem_beforeDots.mp hp
  exact not_mem_of_isName h (by simp [hs])

theorem isName_getD {name : String} {other? : Option String} (h : isName name)
    (ho : other?.all isName) : isName (other?.getD name) := by
  cases other? with
  | none => exact h
  | some other => exact ho

theorem head?_of_isName {s : String} (h : isName s) : s.toList.head? ≠ some '.' :=
  fun hhead => not_mem_of_isName h (List.mem_of_mem_head? hhead)

theorem head?_of_isDottedName {s : String} (h : isDottedName s) : s.toList.head? ≠ some '.' := by
  intro hhead
  cases hs : s.toList with
  | nil =>
    rw [hs] at hhead
    cases hhead
  | cons c rest =>
    rw [hs] at hhead
    cases hhead
    rw [isDottedName, hs, Text.fields, if_pos rfl] at h
    exact absurd (List.all_eq_true.mp h [] List.mem_cons_self) (by decide)

/-! ## Statements -/

/-- What a name refers to after an import: a symbol of a module, or the module as a whole. -/
structure Binding where
  name : String
  target : String × String
  deriving Repr, DecidableEq

namespace Statement

/-- The module that a statement imports from, or that it imports. -/
def source : Statement → String
  | .names source _ => source
  | .whole source _ => source
  | .member package _ _ => package

/-- The statement follows the grammar of import statements. -/
def isValid : Statement → Bool
  | .names source items =>
    isModuleName source && !items.isEmpty && items.all fun item => isName item.1 &&
      item.2.all isName
  | .whole source other? => isDottedName source && other?.all isName
  | .member package name other? => isModuleName package && isName name && other?.all isName

def bindings : Statement → List Binding
  | .names source items => items.map fun item => ⟨item.2.getD item.1, (item.1, source)⟩
  | .whole source (some other) => [⟨other, (wholeModule, source)⟩]
  | .whole source none => (packagesOf source ++ [source]).map fun p => ⟨p, (wholeModule, p)⟩
  | .member package name other? => [⟨other?.getD name, (name, package)⟩]

/-- The package that holds a relative module, and the name of the module in it. -/
def placeOf? (source : String) : Option (String × String) :=
  let dots := source.toList.takeWhile (· == '.')
  if dots.isEmpty then none
  else
    let place := Text.splitLast '.' (source.toList.drop dots.length)
    some (String.ofList (dots ++ place.1), String.ofList place.2)

theorem ofModule_eq (source : String) (rename? : Option String) :
    ofModule source rename? = match placeOf? source with
      | none => .whole source rename?
      | some (package, name) => .member package name (rename?.filter (· ≠ name)) := by
  unfold ofModule placeOf?
  by_cases h : (source.toList.takeWhile (· == '.')).isEmpty <;> simp [h]

theorem head?_of_placeOf? {source : String} {place : String × String}
    (h : placeOf? source = some place) : source.toList.head? = some '.' := by
  unfold placeOf? at h
  cases hs : source.toList with
  | nil =>
    rw [hs] at h
    cases h
  | cons c rest =>
    by_cases hc : c = '.'
    · rw [hc]
      rfl
    · rw [hs, List.takeWhile_cons_of_neg (by simpa using hc)] at h
      cases h

theorem head?_of_mem_bindings {s : Statement} (hs : s.isValid) {x : Binding} (hx : x ∈ s.bindings) :
    x.name.toList.head? ≠ some '.' := by
  cases s with
  | names source items =>
    obtain ⟨item, hitem, rfl⟩ := List.mem_map.mp hx
    have hall := List.all_eq_true.mp (Bool.and_eq_true_iff.mp hs).2 item hitem
    obtain ⟨hname, hother⟩ := Bool.and_eq_true_iff.mp hall
    exact head?_of_isName (isName_getD hname hother)
  | whole source other? =>
    obtain ⟨hsource, hother⟩ := Bool.and_eq_true_iff.mp hs
    cases other? with
    | some other =>
      rw [List.mem_singleton.mp hx]
      exact head?_of_isName hother
    | none =>
      obtain ⟨p, hp, rfl⟩ := List.mem_map.mp hx
      rcases List.mem_append.mp hp with hp | hp
      · obtain ⟨q, hq, rfl⟩ := List.mem_map.mp hp
        obtain ⟨rest, hrest⟩ := mem_beforeDots.mp hq
        have hhead := head?_of_isDottedName hsource
        rw [hrest] at hhead
        intro hdot
        rw [String.toList_ofList] at hdot
        exact hhead (by rw [List.head?_append, hdot]; rfl)
      · rw [List.mem_singleton.mp hp]
        exact head?_of_isDottedName hsource
  | member package name other? =>
    obtain ⟨hname, hother⟩ := Bool.and_eq_true_iff.mp hs
    rw [List.mem_singleton.mp hx]
    exact head?_of_isName (isName_getD (Bool.and_eq_true_iff.mp hname).2 hother)

end Statement

namespace Import

def statement (i : Import) : Statement :=
  if i.symbol = wholeModule then .ofModule i.source i.rename?
  else .names i.source [(i.symbol, i.rename?.filter (· ≠ i.symbol))]

def bindings (i : Import) : List Binding := i.statement.bindings

/-- What is imported. A relative module is a symbol of the package that holds it. -/
def target (i : Import) : String × String :=
  if i.symbol = wholeModule then
    match Statement.placeOf? i.source with
    | none => i.key
    | some (package, name) => (name, package)
  else i.key

theorem target_congr {i j : Import} (h : i.key = j.key) : i.target = j.target := by
  obtain ⟨hs, hm⟩ := Prod.mk.inj h
  unfold target
  rw [h, hs, hm]

/-- The binding leaves the local name of an import to what it imports. -/
def Tolerates (i : Import) (x : Binding) : Prop :=
  (x.name = i.localName → x.target = i.target) ∧
    (x.name ∈ packagesOf i.localName → x.target = (wholeModule, x.name))

instance (i : Import) (x : Binding) : Decidable (i.Tolerates x) :=
  inferInstanceAs (Decidable (_ ∧ _))

theorem getD_filter_ne (other? : Option String) (name : String) :
    (other?.filter (· ≠ name)).getD name = other?.getD name := by
  cases other? with
  | none => rfl
  | some other =>
    by_cases h : other = name
    · rw [Option.filter_some_neg (by simpa using h), h]
      rfl
    · rw [Option.filter_some_pos (by simpa using h)]

theorem localName_of_rename {i : Import} {name : String} (h : i.rename? = some name) :
    i.localName = name := by
  rw [localName, h]

theorem localName_of_symbol {i : Import} (h : i.symbol ≠ wholeModule) :
    i.localName = i.rename?.getD i.symbol := by
  unfold localName
  cases i.rename? with
  | none => exact if_neg h
  | some name => rfl

theorem isName_of_rename {i : Import} (hi : i.statement.isValid) {name : String}
    (h : i.rename? = some name) : isName name := by
  -- such a name is left out of the statement if it is the usual one
  have hfilter {usual : String} (hu : isName usual)
      (ho : (i.rename?.filter (· ≠ usual)).all isName) : isName name := by
    have hname := isName_getD hu ho
    rwa [getD_filter_ne, h] at hname
  unfold statement at hi
  by_cases hs : i.symbol = wholeModule
  · rw [if_pos hs, Statement.ofModule_eq] at hi
    cases hp : Statement.placeOf? i.source with
    | none =>
      rw [hp, h] at hi
      exact (Bool.and_eq_true_iff.mp hi).2
    | some place =>
      rw [hp] at hi
      obtain ⟨hname, hother⟩ := Bool.and_eq_true_iff.mp hi
      exact hfilter (Bool.and_eq_true_iff.mp hname).2 hother
  · rw [if_neg hs] at hi
    obtain ⟨hname, hother⟩ :=
      Bool.and_eq_true_iff.mp
        (List.all_eq_true.mp (Bool.and_eq_true_iff.mp hi).2 _ List.mem_cons_self)
    exact hfilter hname hother

theorem bindings_of_symbol {i : Import} (hi : i.statement.isValid) (hs : i.symbol ≠ wholeModule) :
    isName i.localName ∧ i.bindings = [⟨i.localName, i.target⟩] := by
  unfold bindings target
  rw [localName_of_symbol hs, if_neg hs]
  unfold statement at hi ⊢
  rw [if_neg hs] at hi ⊢
  obtain ⟨hname, hother⟩ :=
    Bool.and_eq_true_iff.mp
      (List.all_eq_true.mp (Bool.and_eq_true_iff.mp hi).2 _ List.mem_cons_self)
  have hlocal := isName_getD hname hother
  rw [getD_filter_ne] at hlocal
  exact ⟨hlocal, by simp only [Statement.bindings, List.map_singleton, getD_filter_ne, key]⟩

/-- An import of a module under another name binds that name. -/
theorem bindings_of_rename {i : Import} (hi : i.statement.isValid) (hs : i.symbol = wholeModule)
    {name : String} (hr : i.rename? = some name) :
    isName i.localName ∧ i.bindings = [⟨i.localName, i.target⟩] := by
  rw [localName_of_rename hr]
  refine ⟨isName_of_rename hi hr, ?_⟩
  unfold bindings statement target
  rw [if_pos hs, if_pos hs, Statement.ofModule_eq, hr]
  cases Statement.placeOf? i.source with
  | none => simp only [Statement.bindings, key, hs]
  | some place => simp only [Statement.bindings, getD_filter_ne, Option.getD_some]

/-- An import that binds its local name binds nothing else, or it is the import of an absolute
module under its own name; then it also binds the packages that the module is in. -/
theorem bindings_cases {i : Import} (hi : i.statement.isValid)
    (h : i.localName.toList.head? ≠ some '.') :
    (isName i.localName ∧ i.bindings = [⟨i.localName, i.target⟩]) ∨
    (i.target = (wholeModule, i.localName) ∧
      i.bindings = (packagesOf i.localName ++ [i.localName]).map fun p =>
        ⟨p, (wholeModule, p)⟩) := by
  by_cases hs : i.symbol = wholeModule
  · cases hr : i.rename? with
    | some name => exact .inl (bindings_of_rename hi hs hr)
    | none =>
      have hlocal : i.localName = i.source := by
        rw [localName, hr]
        exact if_pos hs
      rw [hlocal] at h ⊢
      have hp : Statement.placeOf? i.source = none := by
        cases hp : Statement.placeOf? i.source with
        | none => rfl
        | some place => exact absurd (Statement.head?_of_placeOf? hp) h
      unfold bindings statement target key
      rw [if_pos hs, if_pos hs, Statement.ofModule_eq, hp, hr, hs]
      exact .inr ⟨rfl, rfl⟩
  · exact .inl (bindings_of_symbol hi hs)

example : (bindings ⟨wholeModule, "a.b.c", .runtime, none⟩).map (·.name) =
    ["a", "a.b", "a.b.c"] := by
  decide

variable {i j : Import} (hi : i.statement.isValid) (h : i.localName.toList.head? ≠ some '.')

include hi h

theorem self_mem_bindings : ⟨i.localName, i.target⟩ ∈ i.bindings := by
  rcases bindings_cases hi h with ⟨-, hb⟩ | ⟨ht, hb⟩
  · rw [hb]
    exact List.mem_singleton_self _
  · rw [hb, ht]
    exact List.mem_map_of_mem (List.mem_append_right _ (List.mem_singleton_self _))

/-- What an import binds to what it imports is its local name. -/
theorem name_of_mem_bindings {x : Binding} (hx : x ∈ i.bindings) (hxi : x.target = i.target) :
    x.name = i.localName := by
  rcases bindings_cases hi h with ⟨-, hb⟩ | ⟨ht, hb⟩
  · rw [hb] at hx
    rw [List.mem_singleton.mp hx]
  · rw [hb] at hx
    obtain ⟨p, -, rfl⟩ := List.mem_map.mp hx
    exact (Prod.mk.inj (hxi.trans ht)).2

/-- What an import binds is a matter of its key and its local name. -/
theorem bindings_congr (hj : j.statement.isValid) (hkey : i.key = j.key)
    (hname : i.localName = j.localName) : i.bindings = j.bindings := by
  have htarget : i.target = j.target := target_congr hkey
  -- a module under its own name, and the same written as another name, bind the same
  have hmixed (hn : isName j.localName) (ht : j.target = (wholeModule, j.localName)) :
      [⟨j.localName, j.target⟩] =
        (packagesOf j.localName ++ [j.localName]).map fun p =>
          (⟨p, (wholeModule, p)⟩ : Binding) := by
    rw [packagesOf_of_isName hn, ht]
    rfl
  rcases bindings_cases hi h with ⟨hn, hb⟩ | ⟨ht, hb⟩ <;>
    rcases bindings_cases hj (hname ▸ h) with ⟨hn', hb'⟩ | ⟨ht', hb'⟩
  · rw [hb, hb', hname, htarget]
  · rw [hb, hb', hname, htarget, hmixed (hname ▸ hn) ht']
  · rw [hb, hb', hname, hmixed hn' (htarget ▸ hname ▸ ht)]
  · rw [hb, hb', hname]

end Import

/-! ## Blocks -/

namespace ImportBlock

/-- The statements that take effect when the module runs, or for type checkers. -/
def statementsFor (b : ImportBlock) : ImportKind → List Statement
  | .runtime => b.runtime
  | .typing => b.runtime ++ b.checking

/-- The names that are bound when the module runs, or for type checkers. -/
def bindingsFor (b : ImportBlock) (kind : ImportKind) : List Binding :=
  (b.statementsFor kind).flatMap (·.bindings)

theorem bindingsFor_mono {b : ImportBlock} {kind : ImportKind} {x : Binding}
    (h : x ∈ b.bindingsFor kind) : x ∈ b.bindingsFor .typing := by
  cases kind with
  | runtime =>
    obtain ⟨s, hs, hx⟩ := List.mem_flatMap.mp h
    exact List.mem_flatMap.mpr ⟨s, List.mem_append_left _ hs, hx⟩
  | typing => exact h

/-- The local name of the import is bound to what is imported, where it is needed, and to nothing
else. -/
structure Provides (b : ImportBlock) (i : Import) : Prop where
  bound : ⟨i.localName, i.target⟩ ∈ b.bindingsFor i.kind
  only : ∀ x ∈ b.bindingsFor .typing, i.Tolerates x

instance (b : ImportBlock) (i : Import) : Decidable (b.Provides i) :=
  decidable_of_iff (⟨i.localName, i.target⟩ ∈ b.bindingsFor i.kind ∧
    ∀ x ∈ b.bindingsFor .typing, i.Tolerates x) ⟨fun h => ⟨h.1, h.2⟩, fun h => ⟨h.1, h.2⟩⟩

/-- The block can be run: it follows the grammar, imports from the future run first, and the flag
that a test for type checkers reads is there. -/
structure Runs (b : ImportBlock) : Prop where
  valid : ∀ s ∈ b.statementsFor .typing, s.isValid
  future : ∀ s ∈ b.checking, s.source ≠ Registry.futureModule
  flag : b.checking ≠ [] → b.Provides Registry.checkingFlag

instance (b : ImportBlock) : Decidable b.Runs :=
  decidable_of_iff ((∀ s ∈ b.statementsFor .typing, s.isValid) ∧
      (∀ s ∈ b.checking, s.source ≠ Registry.futureModule) ∧
      (b.checking ≠ [] → b.Provides Registry.checkingFlag))
    ⟨fun h => ⟨h.1, h.2.1, h.2.2⟩, fun h => ⟨h.1, h.2, h.3⟩⟩

/-- The block provides all of some imports. -/
structure Serves (b : ImportBlock) (is : List Import) : Prop where
  runs : b.Runs
  provides : ∀ i ∈ is, b.Provides i

instance (b : ImportBlock) (is : List Import) : Decidable (b.Serves is) :=
  decidable_of_iff (b.Runs ∧ ∀ i ∈ is, b.Provides i) ⟨fun h => ⟨h.1, h.2⟩, fun h => ⟨h.1, h.2⟩⟩

end ImportBlock

end Graphwright.Module
