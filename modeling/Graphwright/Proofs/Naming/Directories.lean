import Graphwright.Naming.Package
import Mathlib.Logic.Relation

/-!
# Directories of a path

A path is cut at slashes and backslashes. Each `..` cancels an ordinary component directly before
it, and what is left when nothing more can be cancelled does not depend on the order
(`resolves_iff`): references to parents in front, then ordinary components (`Resolves.shape`). The
last of these is the file, and the others are the directories from which the package of the file has
its name.

* `packageOf_resolved`: a path has no package exactly if it is blank, names a directory, or is
  relative and has both a reference to a parent and a further component left.
* `packageOf_parent`: a path of which just the parent is left has one.
-/
namespace Graphwright.Naming

/-! ## Cancelling components -/

/-- The component that refers to the parent of a directory. -/
def up : List Char := ['.', '.']

/-- A component that is a name: it is not empty, and refers neither to its directory nor to the
parent of that. -/
structure IsOrdinary (comp : List Char) : Prop where
  nonempty : comp ≠ []
  not_dot : comp ≠ ['.']
  not_up : comp ≠ up

/-- A reference to a parent cancels the ordinary component directly before it. -/
inductive Cancels : List (List Char) → List (List Char) → Prop
  | mk (before after : List (List Char)) {comp : List Char} :
      IsOrdinary comp → Cancels (before ++ comp :: up :: after) (before ++ after)

/-- What is left of some components when nothing more can be cancelled. -/
structure Resolves (comps resolved : List (List Char)) : Prop where
  cancels : Relation.ReflTransGen Cancels comps resolved
  settled : ∀ next, ¬ Cancels resolved next

/-- Components that are not passed over. -/
def IsCounted (comp : List Char) : Prop := comp ≠ [] ∧ comp ≠ ['.']

instance (comp : List Char) : Decidable (IsCounted comp) :=
  inferInstanceAs (Decidable (comp ≠ [] ∧ comp ≠ ['.']))

theorem IsCounted.ordinary {comp : List Char} (h : IsCounted comp) (hup : comp ≠ up) :
    IsOrdinary comp :=
  ⟨h.1, h.2, hup⟩

section Steps

variable {absolute : Bool} {done : List (List Char)} {comp : List Char}

theorem normalStep_of_not_counted (h : ¬ IsCounted comp) : normalStep absolute done comp = done :=
  if_pos (by simpa [IsCounted, Classical.or_iff_not_imp_left] using h)

theorem normalStep_of_ordinary (h : IsOrdinary comp) :
    normalStep absolute done comp = comp :: done := by
  unfold normalStep
  rw [if_neg (not_or.mpr ⟨h.nonempty, h.not_dot⟩), if_pos (show comp ≠ ['.', '.'] from h.not_up)]

theorem normalStep_up_of_ordinary (h : IsOrdinary comp) :
    normalStep absolute (comp :: done) up = done :=
  if_neg h.not_up

theorem normalStep_up_up : normalStep absolute (up :: done) up = up :: up :: done := rfl

theorem normalStep_up_nil : normalStep absolute [] up = if absolute then [] else [up] := rfl

end Steps

/-- A component and the reference that cancels it change nothing. -/
theorem Cancels.foldl_eq {xs ys : List (List Char)} (h : Cancels xs ys) (absolute : Bool)
    (done : List (List Char)) :
    xs.foldl (normalStep absolute) done = ys.foldl (normalStep absolute) done := by
  obtain ⟨before, after, hcomp⟩ := h
  rw [List.foldl_append, List.foldl_cons, List.foldl_cons, normalStep_of_ordinary hcomp,
    normalStep_up_of_ordinary hcomp, List.foldl_append]

theorem foldl_eq_of_cancels {xs ys : List (List Char)} (h : Relation.ReflTransGen Cancels xs ys)
    (absolute : Bool) (done : List (List Char)) :
    xs.foldl (normalStep absolute) done = ys.foldl (normalStep absolute) done := by
  induction h with
  | refl => rfl
  | tail _ hstep ih => exact ih.trans (hstep.foldl_eq absolute done)

theorem length_normalStep_le (absolute : Bool) (done : List (List Char)) (comp : List Char) :
    (normalStep absolute done comp).length ≤ done.length + 1 := by
  unfold normalStep
  split
  · exact Nat.le_succ _
  · split
    · exact Nat.le_refl _
    · cases done with
      | nil => cases absolute <;> simp
      | cons last before =>
        dsimp only
        split
        · exact Nat.le_refl _
        · simp only [List.length_cons]
          omega

theorem length_foldl_le (absolute : Bool) (comps done : List (List Char)) :
    (comps.foldl (normalStep absolute) done).length ≤ done.length + comps.length := by
  induction comps generalizing done with
  | nil => exact Nat.le_refl _
  | cons c rest ih =>
    have hstep := length_normalStep_le absolute done c
    have hrest := ih (normalStep absolute done c)
    rw [List.foldl_cons, List.length_cons]
    omega

/-- What the components are normalised to, with all references to parents of the root. -/
def normalForm (comps : List (List Char)) : List (List Char) :=
  (comps.foldl (normalStep false) []).reverse

/-- Normalising is cancelling. -/
theorem cancels_foldl {xs done : List (List Char)} (hdone : ∀ c ∈ done, IsCounted c)
    (hxs : ∀ c ∈ xs, IsCounted c) :
    Relation.ReflTransGen Cancels (done.reverse ++ xs)
      (xs.foldl (normalStep false) done).reverse := by
  induction xs generalizing done with
  | nil => rw [List.append_nil, List.foldl_nil]
  | cons x rest ih =>
    obtain ⟨hx, hrest⟩ := List.forall_mem_cons.mp hxs
    -- where the step puts the component on top, the list stays as it is
    have hpush (hstep : normalStep false done x = x :: done) : Relation.ReflTransGen Cancels
        (done.reverse ++ x :: rest) ((x :: rest).foldl (normalStep false) done).reverse := by
      have hmore := ih (List.forall_mem_cons.mpr ⟨hx, hdone⟩) hrest
      rwa [List.reverse_cons, List.append_assoc, List.singleton_append, ← hstep] at hmore
    by_cases hup : x = up
    · subst hup
      cases done with
      | nil => exact hpush rfl
      | cons last before =>
        by_cases hlast : last = up
        · subst hlast
          exact hpush normalStep_up_up
        · have hordinary := (hdone last List.mem_cons_self).ordinary hlast
          rw [List.foldl_cons, normalStep_up_of_ordinary hordinary, List.reverse_cons,
            List.append_assoc, List.singleton_append]
          exact .head (.mk before.reverse rest hordinary)
            (ih (List.forall_mem_cons.mp hdone).2 hrest)
    · exact hpush (normalStep_of_ordinary (hx.ordinary hup))

section Resolving

variable {comps resolved : List (List Char)}

theorem cancels_normalForm (h : ∀ c ∈ comps, IsCounted c) :
    Relation.ReflTransGen Cancels comps (normalForm comps) :=
  cancels_foldl (List.forall_mem_nil _) h

theorem normalForm_eq_of_cancels (h : Relation.ReflTransGen Cancels comps resolved) :
    normalForm comps = normalForm resolved :=
  congrArg List.reverse (foldl_eq_of_cancels h false [])

theorem Cancels.length_lt (h : Cancels comps resolved) : resolved.length < comps.length := by
  obtain ⟨before, after, -⟩ := h
  simp only [List.length_append, List.length_cons]
  omega

theorem Cancels.subset (h : Cancels comps resolved) : resolved ⊆ comps := by
  obtain ⟨before, after, -⟩ := h
  intro c hc
  rcases List.mem_append.mp hc with hc | hc <;> simp [hc]

theorem subset_of_cancels (h : Relation.ReflTransGen Cancels comps resolved) :
    resolved ⊆ comps := by
  induction h with
  | refl => exact List.Subset.refl _
  | tail _ hstep ih => exact List.Subset.trans hstep.subset ih

/-- Nothing can be cancelled in a normal form: it would be normalised to something shorter. -/
theorem resolves_normalForm (h : ∀ c ∈ comps, IsCounted c) : Resolves comps (normalForm comps) where
  cancels := cancels_normalForm h
  settled := fun next hnext => by
    have hidem := normalForm_eq_of_cancels (cancels_normalForm h)
    have hsame := normalForm_eq_of_cancels (.single hnext)
    have hle : (normalForm next).length ≤ next.length := by
      simpa [normalForm] using length_foldl_le false next []
    have hlt := hnext.length_lt
    rw [← hsame, ← hidem] at hle
    omega

/-- **Resolution.** Components are resolved in one way, whatever is cancelled first. -/
theorem resolves_iff (h : ∀ c ∈ comps, IsCounted c) :
    Resolves comps resolved ↔ resolved = normalForm comps := by
  constructor
  · intro hresolved
    have hcounted : ∀ c ∈ resolved, IsCounted c :=
      fun c hc => h c (subset_of_cancels hresolved.cancels hc)
    rw [normalForm_eq_of_cancels hresolved.cancels]
    rcases (cancels_normalForm hcounted).cases_head with heq | ⟨next, hnext, -⟩
    · exact heq
    · exact absurd hnext (hresolved.settled next)
  · rintro rfl
    exact resolves_normalForm h

/-- References to parents come before all ordinary components. -/
theorem exists_ups (h : ∀ c ∈ resolved, IsCounted c) (hsettled : ∀ next, ¬ Cancels resolved next) :
    ∃ k names, resolved = List.replicate k up ++ names ∧ ∀ c ∈ names, IsOrdinary c := by
  induction resolved with
  | nil => exact ⟨0, [], rfl, nofun⟩
  | cons c rest ih =>
    obtain ⟨hc, hrest⟩ := List.forall_mem_cons.mp h
    have hinner : ∀ next, ¬ Cancels rest next := by
      rintro - ⟨before, after, hcomp⟩
      exact hsettled _ (.mk (c :: before) after hcomp)
    obtain ⟨k, names, rfl, hnames⟩ := ih hrest hinner
    by_cases hup : c = up
    · exact ⟨k + 1, names, by rw [hup, List.replicate_succ, List.cons_append], hnames⟩
    · have hordinary := hc.ordinary hup
      cases k with
      | zero => exact ⟨0, c :: names, rfl, List.forall_mem_cons.mpr ⟨hordinary, hnames⟩⟩
      -- a reference behind the component would still cancel it
      | succ k => exact absurd (.mk [] (List.replicate k up ++ names) hordinary) (hsettled _)

theorem Resolves.shape (hresolves : Resolves comps resolved) (h : ∀ c ∈ comps, IsCounted c) :
    ∃ k names, resolved = List.replicate k up ++ names ∧ ∀ c ∈ names, IsOrdinary c :=
  exists_ups (fun c hc => h c (subset_of_cancels hresolves.cancels hc)) hresolves.settled

end Resolving

/-! ## Components of a path -/

def isSlash (c : Char) : Bool := c == '/' || c == '\\'

def isAbsolute (path : String) : Bool := path.toList.head?.any isSlash

def endsInSlash (path : String) : Bool := path.toList.getLast?.any isSlash

/-- The components of a path that are not passed over. -/
def componentsOf (path : String) : List (List Char) :=
  (path.toList.splitOnP isSlash).filter (IsCounted ·)

theorem isCounted_of_mem_componentsOf (path : String) : ∀ c ∈ componentsOf path, IsCounted c :=
  fun _ hc => of_decide_eq_true (List.mem_filter.mp hc).2

/-- Every separator as a slash. -/
def slashed (cs : List Char) : List Char := cs.map fun c => if c = '\\' then '/' else c

theorem slash_iff (c : Char) : (if c = '\\' then '/' else c) = '/' ↔ isSlash c := by
  by_cases hc : c = '\\' <;> simp [isSlash, hc]

theorem fields_slashed (cs : List Char) : Text.fields '/' (slashed cs) = cs.splitOnP isSlash := by
  induction cs with
  | nil => rfl
  | cons c rest ih =>
    rw [slashed, List.map_cons, Text.fields, List.splitOnP_cons_eq_if_modifyHead]
    simp only [slash_iff]
    rw [← slashed, ih]
    by_cases hc : isSlash c
    · rw [if_pos hc, if_pos hc]
    · have hsame : c ≠ '\\' := fun heq => hc (by simp [isSlash, heq])
      obtain ⟨piece, pieces, hpieces⟩ :=
        List.exists_cons_of_ne_nil (Text.fields_ne_nil '/' (slashed rest))
      rw [if_neg hc, if_neg hc, if_neg hsame, ← ih, hpieces]
      rfl

theorem head?_slashed (path : String) :
    ((slashed path.toList).head? == some '/') = isAbsolute path := by
  rw [slashed, List.head?_map, isAbsolute, Bool.eq_iff_iff]
  cases path.toList.head? with
  | none => decide
  | some c => simpa using slash_iff c

theorem getLast?_slashed (path : String) :
    ((slashed path.toList).getLast? == some '/') = endsInSlash path := by
  rw [slashed, List.getLast?_map, endsInSlash, Bool.eq_iff_iff]
  cases path.toList.getLast? with
  | none => decide
  | some c => simpa using slash_iff c

theorem foldl_filter_counted (absolute : Bool) (comps done : List (List Char)) :
    (comps.filter (IsCounted ·)).foldl (normalStep absolute) done =
      comps.foldl (normalStep absolute) done := by
  induction comps generalizing done with
  | nil => rfl
  | cons c rest ih =>
    by_cases hc : IsCounted c
    · rw [List.filter_cons_of_pos (by simpa using hc), List.foldl_cons, List.foldl_cons, ih]
    · rw [List.filter_cons_of_neg (by simpa using hc), List.foldl_cons,
        normalStep_of_not_counted hc, ih]

theorem normalComponents_slashed (path : String) : normalComponents (slashed path.toList) =
    ((componentsOf path).foldl (normalStep (isAbsolute path)) []).reverse := by
  rw [normalComponents, head?_slashed, fields_slashed, componentsOf, foldl_filter_counted]

/-! ## The root -/

theorem foldl_ups (k : Nat) : (List.replicate k up).foldl (normalStep true) [] = [] := by
  induction k with
  | zero => rfl
  | succ k ih => rw [List.replicate_succ, List.foldl_cons, normalStep_up_nil, if_pos rfl, ih]

theorem foldl_ordinary {absolute : Bool} {names : List (List Char)} (h : ∀ c ∈ names, IsOrdinary c)
    (done : List (List Char)) : names.foldl (normalStep absolute) done = names.reverse ++ done := by
  induction names generalizing done with
  | nil => rfl
  | cons c rest ih =>
    obtain ⟨hc, hrest⟩ := List.forall_mem_cons.mp h
    rw [List.foldl_cons, normalStep_of_ordinary hc, ih hrest, List.reverse_cons, List.append_assoc]
    rfl

theorem dropWhile_ups {names : List (List Char)} (h : ∀ c ∈ names, IsOrdinary c) (k : Nat) :
    (List.replicate k up ++ names).dropWhile (· = up) = names := by
  induction k with
  | zero =>
    cases names with
    | nil => rfl
    | cons c rest =>
      exact List.dropWhile_cons_of_neg (by simpa using (h c List.mem_cons_self).not_up)
  | succ k ih => rwa [List.replicate_succ, List.cons_append, List.dropWhile_cons_of_pos (by simp)]

/-- What is left of the components of a path; the root has no parent. -/
def resolvedOf (absolute : Bool) (resolved : List (List Char)) : List (List Char) :=
  if absolute then resolved.dropWhile (· = up) else resolved

theorem normalComponents_eq (path : String) :
    normalComponents (slashed path.toList) =
      resolvedOf (isAbsolute path) (normalForm (componentsOf path)) := by
  rw [normalComponents_slashed, resolvedOf]
  cases isAbsolute path with
  | false => rfl
  | true =>
    have hcounted := isCounted_of_mem_componentsOf path
    have hresolves := resolves_normalForm hcounted
    obtain ⟨k, names, hshape, hnames⟩ := hresolves.shape hcounted
    rw [foldl_eq_of_cancels hresolves.cancels, hshape, List.foldl_append, foldl_ups,
      foldl_ordinary hnames, List.append_nil, List.reverse_reverse, if_pos rfl,
      dropWhile_ups hnames]

/-! ## The package -/

/-- The directories without a leading `src`. -/
def withoutSource (dirs : List (List Char)) : List (List Char) :=
  if dirs.head? = some "src".toList then dirs.tail else dirs

/-- The directories that the package of a path has its name from. -/
def directoriesOf (absolute : Bool) (resolved : List (List Char)) : List (List Char) :=
  withoutSource (resolvedOf absolute resolved).dropLast

/-- The package with the names of some directories. -/
def dotted (dirs : List (List Char)) : String :=
  if dirs = [] then defaultPackage
  else ".".intercalate (dirs.map fun d => packageSegment (String.ofList d))

theorem dotted_withoutSource (dirs : List (List Char)) :
    (let segments := match dirs with
        | ['s', 'r', 'c'] :: rest => rest
        | _ => dirs
      if segments.isEmpty then (.ok defaultPackage : Except PackageFault String)
      else .ok (".".intercalate (segments.map fun s => packageSegment (String.ofList s)))) =
      .ok (dotted (withoutSource dirs)) := by
  have hsource : (match dirs with
      | ['s', 'r', 'c'] :: rest => rest
      | _ => dirs) = withoutSource dirs := by
    unfold withoutSource
    split
    · rfl
    · rename_i hne
      rw [if_neg]
      intro hhead
      obtain ⟨rest, rfl⟩ := List.head?_eq_some_iff.mp hhead
      exact hne rest rfl
  simp only [hsource, List.isEmpty_iff, dotted]
  split <;> rfl

/-- The path leaves its root, and is not the parent of that itself. -/
theorem up_mem_dropLast (absolute : Bool) {comps resolved : List (List Char)}
    (hresolves : Resolves comps resolved) (h : ∀ c ∈ comps, IsCounted c) :
    up ∈ (resolvedOf absolute resolved).dropLast ↔
      absolute = false ∧ resolved.head? = some up ∧ resolved ≠ [up] := by
  obtain ⟨k, names, rfl, hnames⟩ := hresolves.shape h
  have hnone : up ∉ names := fun hmem => (hnames up hmem).not_up rfl
  have hdirectories : up ∉ names.dropLast := fun hmem => hnone (List.dropLast_subset _ hmem)
  cases absolute with
  | true => simp [resolvedOf, dropWhile_ups hnames, hdirectories]
  | false =>
    simp only [resolvedOf, Bool.false_eq_true, if_false, true_and]
    cases k with
    | zero =>
      have hhead : names.head? ≠ some up := fun hhead => hnone (List.mem_of_head? hhead)
      simp [hdirectories, hhead]
    | succ k =>
      rw [List.replicate_succ, List.cons_append]
      cases hrest : List.replicate k up ++ names with
      | nil => simp
      | cons c rest => simp

theorem packageOf_segments (path : String) : packageOf path =
    if path.toList.all Text.isBlank then .error .blankPath
    else if endsInSlash path then .error (.directoryPath path)
    else if up ∈ (normalComponents (slashed path.toList)).dropLast then .error (.leavesRoot path)
    else .ok (dotted (withoutSource (normalComponents (slashed path.toList)).dropLast)) := by
  rw [← getLast?_slashed, ← dotted_withoutSource]
  rfl

theorem packageOf_eq (path : String) : packageOf path =
    if path.toList.all Text.isBlank then .error .blankPath
    else if endsInSlash path then .error (.directoryPath path)
    else if isAbsolute path = false ∧ (normalForm (componentsOf path)).head? = some up ∧
      normalForm (componentsOf path) ≠ [up] then .error (.leavesRoot path)
    else .ok (dotted (directoriesOf (isAbsolute path) (normalForm (componentsOf path)))) := by
  have hcounted := isCounted_of_mem_componentsOf path
  have hup := up_mem_dropLast (isAbsolute path) (resolves_normalForm hcounted) hcounted
  rw [← normalComponents_eq] at hup
  rw [packageOf_segments, directoriesOf, ← normalComponents_eq]
  simp only [hup]

/-- **Packages.** The components of a path are resolved in one way. A path without a package is
blank, or ends in a separator, or it is relative, and what is left begins with a parent and goes on.
Every other path has the package of its directories: without one leading `src`, each made a segment,
joined by dots, or the usual one if none is left. -/
theorem packageOf_resolved (path : String) :
    ∃ resolved, (∀ other, Resolves (componentsOf path) other ↔ other = resolved) ∧
      packageOf path =
        if path.toList.all Text.isBlank then .error .blankPath
        else if endsInSlash path then .error (.directoryPath path)
        else if isAbsolute path = false ∧ resolved.head? = some up ∧ resolved ≠ [up] then
          .error (.leavesRoot path)
        else .ok (dotted (directoriesOf (isAbsolute path) resolved)) :=
  ⟨normalForm (componentsOf path), fun _ => resolves_iff (isCounted_of_mem_componentsOf _),
    packageOf_eq path⟩

example : packageOf "/../src\\app/./x/../sdk.py" = .ok "app" := by rfl

/-- The parent of the root has a package, though it is outside. -/
theorem packageOf_parent : ¬ ∀ path resolved, Resolves (componentsOf path) resolved →
    ((∃ e, packageOf path = .error e) ↔
      path.toList.all Text.isBlank ∨ endsInSlash path ∨
        isAbsolute path = false ∧ resolved.head? = some up) := by
  intro hall
  have hresolves : Resolves (componentsOf "..") [up] :=
    (resolves_iff (isCounted_of_mem_componentsOf _)).mpr (by decide)
  obtain ⟨e, he⟩ := (hall ".." [up] hresolves).mpr (.inr (.inr (by decide)))
  have hok : packageOf ".." = .ok defaultPackage := by rfl
  rw [hok] at he
  cases he

end Graphwright.Naming
