import Graphwright.Proofs.Outcome
import Graphwright.Proofs.Text.Fields
import Graphwright.Files.Tree

/-!
# Places in a tree of files

The names from the root lead to a place. What a tree holds is what is at each of its places: a text,
a directory, or nothing (`Files.contentAt`).

* `locate_eq`: where a path leads is a matter of what is at the places along it. So it leads to the
  same place as long as directories stay directories and texts stay texts (`locate_of_grows`).
* `sets_putAt`: a tree without entries that is put where it hides nothing changes this place only.
-/
namespace Graphwright

/-- What is at a place, without the entries of a directory. -/
inductive Content where
  | text (t : String)
  | directory
  deriving Repr, DecidableEq

namespace FileTree

/-- What a tree is, without its entries. -/
def content : FileTree → Content
  | file t => .text t
  | directory _ => .directory

def child? (name : String) : FileTree → Option FileTree
  | directory entries => entries.lookup name
  | file _ => none

def at? : List String → FileTree → Option FileTree
  | [], t => some t
  | name :: rest, t => (t.child? name).bind (at? rest)

theorem at?_append (names rest : List String) (t : FileTree) :
    t.at? (names ++ rest) = (t.at? names).bind (at? rest) := by
  induction names generalizing t with
  | nil => rfl
  | cons name names ih =>
    rw [List.cons_append, at?, at?, Option.bind_assoc]
    exact congrArg _ (funext ih)

theorem at?_concat (names : List String) (name : String) (t : FileTree) :
    t.at? (names ++ [name]) = (t.at? names).bind (child? name) := by
  rw [at?_append]
  exact congrArg _ (funext fun u => Option.bind_fun_some (u.child? name))

/-! ## Putting in a tree -/

theorem lookup_entry (key : String) (t : FileTree) (entries : List (String × FileTree))
    (n : String) : ((key, t) :: entries).lookup n = if n = key then some t
      else entries.lookup n := by
  rw [List.lookup_cons]
  by_cases h : n = key
  · rw [beq_iff_eq.mpr h, if_pos h]
  · rw [beq_eq_false_iff_ne.mpr h, if_neg h]

theorem lookup_map_entry (entries : List (String × FileTree)) (name : String) (t : FileTree)
    (n : String) : (entries.map fun e => if e.1 == name then (name, t) else e).lookup n =
      if n = name then (entries.lookup name).map fun _ => t else entries.lookup n := by
  induction entries with
  | nil => simp
  | cons e rest ih =>
    obtain ⟨key, u⟩ := e
    rw [List.map_cons]
    by_cases hkey : key = name
    · rw [if_pos (by simpa using hkey), lookup_entry, lookup_entry, lookup_entry, hkey, ih]
      by_cases hn : n = name <;> simp [hn]
    · rw [if_neg (by simpa using hkey), lookup_entry, lookup_entry, lookup_entry,
        if_neg (Ne.symm hkey), ih]
      by_cases hn : n = name
      · rw [if_neg (hn.trans_ne (Ne.symm hkey)), if_pos hn, if_pos hn]
      · rw [if_neg hn, if_neg hn]

theorem lookup_append_entry (entries : List (String × FileTree)) (name : String) (t : FileTree)
    (n : String) (h : entries.lookup name = none) :
    (entries ++ [(name, t)]).lookup n = if n = name then some t else entries.lookup n := by
  induction entries with
  | nil => rw [List.nil_append, lookup_entry]
  | cons e rest ih =>
    obtain ⟨key, u⟩ := e
    rw [lookup_entry] at h
    by_cases hkey : name = key
    · rw [if_pos hkey] at h
      cases h
    · rw [if_neg hkey] at h
      rw [List.cons_append, lookup_entry, lookup_entry, ih h]
      by_cases hn : n = key
      · rw [if_pos hn, if_neg (hn.trans_ne (Ne.symm hkey)), if_pos hn]
      · rw [if_neg hn, if_neg hn]

theorem lookup_setEntry (entries : List (String × FileTree)) (name : String) (t : FileTree)
    (n : String) : (setEntry entries name t).lookup n = if n = name then some t
      else entries.lookup n := by
  have hknown : entries.any (·.1 == name) = (entries.lookup name).isSome := by
    induction entries with
    | nil => rfl
    | cons e rest ih =>
      rw [List.any_cons, ih, lookup_entry]
      by_cases h : name = e.1
      · rw [if_pos h, h, beq_self_eq_true]
        rfl
      · rw [if_neg h, beq_eq_false_iff_ne.mpr (Ne.symm h), Bool.false_or]
  rw [setEntry, hknown]
  cases hlookup : entries.lookup name with
  | none => rw [if_neg (by simp), lookup_append_entry _ _ _ _ hlookup]
  | some u => rw [if_pos (by simp), lookup_map_entry, hlookup, Option.map_some]

/-- Nothing is hidden by what is put at some names: there are directories on the way, and nothing
below. -/
def Takes : List String → FileTree → Prop
  | [], t => ∀ name, t.child? name = none
  | name :: rest, t => t.isDirectory ∧
    match t.child? name with
    | some u => u.Takes rest
    | none => rest = []

theorem isDirectory_of_child? {t u : FileTree} {name : String} (h : t.child? name = some u) :
    t.isDirectory := by
  cases t with
  | file text => cases h
  | directory entries => rfl

theorem takes_append {names rest : List String} {t u : FileTree} (h : t.at? names = some u)
    (hu : u.Takes rest) : t.Takes (names ++ rest) := by
  induction names generalizing t with
  | nil =>
    cases h
    exact hu
  | cons name names ih =>
    obtain ⟨v, hv, hnames⟩ := Option.bind_eq_some_iff.mp h
    rw [List.cons_append, Takes, hv]
    exact ⟨isDirectory_of_child? hv, ih hnames⟩

/-- A tree without entries takes the place of what was there, and changes nothing else. -/
theorem content_at?_put {new t : FileTree} {names : List String} (h : t.Takes names)
    (hnew : ∀ name, new.child? name = none) (place : List String) :
    ((put new names t).at? place).map content =
      if place = names then some new.content else (t.at? place).map content := by
  induction names generalizing t place with
  | nil =>
    cases place with
    | nil => rfl
    | cons n more => rw [put, at?, at?, hnew, h, if_neg (List.cons_ne_nil _ _)]
  | cons name rest ih =>
    obtain ⟨hdirectory, hrest⟩ := h
    obtain ⟨entries, rfl⟩ : ∃ entries, t = directory entries := by
      cases t with
      | file text => cases hdirectory
      | directory entries => exact ⟨entries, rfl⟩
    cases place with
    | nil => rw [if_neg (List.cons_ne_nil _ _).symm]; rfl
    | cons n more =>
      have hentry : (put new (name :: rest) (directory entries)).child? n =
          if n = name then some (put new rest ((entries.lookup name).getD (directory [])))
          else entries.lookup n :=
        lookup_setEntry entries name _ n
      rw [at?, at?, hentry]
      by_cases hn : n = name
      · subst hn
        rw [if_pos rfl, Option.bind_some]
        cases hlookup : child? n (directory entries) with
        | some u =>
          rw [hlookup] at hrest
          have hu : (entries.lookup n).getD (directory []) = u := by
            rw [show entries.lookup n = some u from hlookup, Option.getD_some]
          simp only [hu, ih hrest, Option.bind_some, List.cons.injEq, true_and]
        | none =>
          obtain rfl : rest = [] := by rwa [hlookup] at hrest
          rw [put]
          cases more with
          | nil => rw [if_pos rfl]; rfl
          | cons m more => rw [at?, hnew, if_neg (by simp)]; rfl
      · rw [if_neg hn, if_neg fun heq => hn (List.cons.inj heq).1]
        rfl

end FileTree

namespace Files

open Graphwright.FileTree

/-! ## Places -/

/-- What is at the place that some names from the root lead to. -/
def contentAt (fs : Files) (place : List String) : Option Content := (fs.root.at? place).map content

/-- The directories that were passed on the way to a node are those of the tree. -/
inductive Stands (root : FileTree) : FileTree → List (String × FileTree) → Prop
  | root : Stands root root []
  | entry {parent node : FileTree} {name : String} {above : List (String × FileTree)}
      (h : Stands root parent above)
      (hentry : parent.child? name = some node) : Stands root node ((name, parent) :: above)

theorem Stands.at?_eq {root node : FileTree} {above : List (String × FileTree)}
    (h : Stands root node above) : root.at? (Place.names ⟨node, above⟩) = some node := by
  induction h with
  | root => rfl
  | @entry parent node name above h hentry ih =>
    have hnames : Place.names ⟨node, (name, parent) :: above⟩ =
        Place.names ⟨parent, above⟩ ++ [name] :=
      List.reverse_cons
    rw [hnames, at?_concat, ih, Option.bind_some, hentry]

/-- The way along some components, by what is at the places that they lead through. -/
def route (look : List String → Option Content) :
    List String → List String → Except FileFault (List String)
  | place, [] => .ok place
  | place, c :: rest =>
    if look place = some .directory then
      if c = "." then route look place rest
      else if c = ".." then route look place.dropLast rest
      else if (look (place ++ [c])).isSome then route look (place ++ [c]) rest
      else .error .missing
    else .error .notDirectory

theorem route_append (look : List String → Option Content) (place cs ds : List String) :
    route look place (cs ++ ds) = (do route look (← route look place cs) ds) := by
  induction cs generalizing place with
  | nil => rfl
  | cons c cs ih =>
    rw [List.cons_append, route, route]
    split_ifs
    · exact ih place
    · exact ih place.dropLast
    · exact ih (place ++ [c])
    · rfl
    · rfl

/-- Walking takes this way. -/
theorem walk_route {root node : FileTree} {above : List (String × FileTree)}
    (h : Stands root node above) (components : List String) :
    (walk ⟨node, above⟩ components).map Place.names =
        route (fun place => (root.at? place).map content) (Place.names ⟨node, above⟩) components ∧
      ∀ p, walk ⟨node, above⟩ components = .ok p → Stands root p.node p.above := by
  induction components generalizing node above with
  | nil => exact ⟨rfl, fun p hp => by cases hp; exact h⟩
  | cons c rest ih =>
    rw [walk, route, show root.at? (Place.names ⟨node, above⟩) = some node from h.at?_eq,
      Option.map_some]
    cases node with
    | file text => exact ⟨rfl, nofun⟩
    | directory entries =>
      rw [if_pos (show some (directory entries).content = some .directory from rfl)]
      by_cases hdot : c = "."
      · simp only [if_pos hdot]
        exact ih h
      by_cases hup : c = ".."
      · simp only [if_neg hdot, if_pos hup]
        cases h with
        -- nothing is above the root, and its place has no last name to drop
        | root => exact ih .root
        | @entry parent _ name above h hentry =>
          have hnames : (Place.names ⟨directory entries, (name, parent) :: above⟩).dropLast =
              Place.names ⟨parent, above⟩ :=
            (congrArg _ List.reverse_cons).trans List.dropLast_concat
          rw [hnames]
          exact ih h
      · have hentry : (root.at? (Place.names ⟨directory entries, above⟩ ++ [c])) =
            entries.lookup c := by
          rw [at?_concat, h.at?_eq, Option.bind_some, child?]
        simp only [if_neg hdot, if_neg hup, hentry]
        cases hlookup : entries.lookup c with
        | none => exact ⟨rfl, nofun⟩
        | some t =>
          have hnames : Place.names ⟨directory entries, above⟩ ++ [c] =
              Place.names ⟨t, (c, directory entries) :: above⟩ :=
            List.reverse_cons.symm
          rw [Option.map_some, Option.isSome_some, if_pos rfl, hnames]
          exact ih (h.entry hlookup)

/-! ## Paths and places -/

def locate (fs : Files) (path : String) : Except FileFault (List String) :=
  (fs.find path).map Place.names

/-- The components that are walked from the root. -/
def steps (fs : Files) (path : String) : List String :=
  if Path.isAbsolute path then Path.components path else fs.here ++ Path.components path

theorem find_eq (fs : Files) (path : String) :
    fs.find path = if path.isEmpty then .error .missing else walk ⟨fs.root, []⟩ (fs.steps path) :=
  rfl

theorem locate_eq (fs : Files) (path : String) :
    fs.locate path = if path.isEmpty then .error .missing
      else route fs.contentAt [] (fs.steps path) := by
  rw [locate, find_eq]
  split_ifs
  · rfl
  · exact (walk_route .root (fs.steps path)).1

theorem stands_of_find {fs : Files} {path : String} {p : Place} (h : fs.find path = .ok p) :
    Stands fs.root p.node p.above := by
  rw [find_eq] at h
  split_ifs at h
  exact (walk_route .root (fs.steps path)).2 p h

theorem contentAt_of_find {fs : Files} {path : String} {p : Place} (h : fs.find path = .ok p) :
    fs.contentAt p.names = some p.node.content := by
  rw [contentAt, show fs.root.at? p.names = some p.node from (stands_of_find h).at?_eq]
  rfl

theorem locate_of_find {fs : Files} {path : String} {p : Place} (h : fs.find path = .ok p) :
    fs.locate path = .ok p.names := by
  rw [locate, h]
  rfl

theorem locate_eq_error {fs : Files} {path : String} {fault : FileFault} :
    fs.locate path = .error fault ↔ fs.find path = .error fault := by
  rw [locate]
  cases fs.find path <;> simp [Except.map]

theorem exists_find_of_locate {fs : Files} {path : String} {place : List String}
    (h : fs.locate path = .ok place) : ∃ p, fs.find path = .ok p ∧ p.names = place := by
  rw [locate] at h
  cases hfind : fs.find path with
  | error fault => rw [hfind] at h; cases h
  | ok p => rw [hfind] at h; cases h; exact ⟨p, rfl, rfl⟩

/-- The file that a path leads to can be read by this path. -/
theorem stored_eq {fs : Files} {path text : String} {place : List String}
    (h : fs.locate path = .ok place) (htext : fs.contentAt place = some (.text text)) :
    fs.stored path = .ok text := by
  obtain ⟨⟨node, above⟩, hfind, rfl⟩ := exists_find_of_locate h
  rw [contentAt_of_find hfind, Option.some_inj] at htext
  rw [stored, hfind]
  cases node with
  | file t => cases htext; rfl
  | directory entries => cases htext

/-! ## Files that grow -/

/-- Nothing disappears, and directories stay directories. -/
structure Grows (before after : Files) : Prop where
  here : after.here = before.here
  stays : ∀ place, (before.contentAt place).isSome → (after.contentAt place).isSome
  directory : ∀ place, before.contentAt place = some .directory →
    after.contentAt place = some .directory

theorem route_grows {look look' : List String → Option Content}
    (hstays : ∀ place, (look place).isSome → (look' place).isSome)
    (hdirectory : ∀ place, look place = some .directory → look' place = some .directory)
    {place cs goal : List String} (h : route look place cs = .ok goal) :
    route look' place cs = .ok goal := by
  induction cs generalizing place with
  | nil => exact h
  | cons c cs ih =>
    rw [route] at h ⊢
    split_ifs at h with hd hdot hup hc
    · rw [if_pos (hdirectory place hd), if_pos hdot]
      exact ih h
    · rw [if_pos (hdirectory place hd), if_neg hdot, if_pos hup]
      exact ih h
    · rw [if_pos (hdirectory place hd), if_neg hdot, if_neg hup, if_pos (hstays _ hc)]
      exact ih h

/-- A path goes on leading where it led. -/
theorem locate_of_grows {before after : Files} {path : String} {place : List String}
    (hgrows : Grows before after) (h : before.locate path = .ok place) :
    after.locate path = .ok place := by
  rw [locate_eq] at h ⊢
  split_ifs at h ⊢
  rw [show after.steps path = before.steps path by rw [steps, steps, hgrows.here]]
  exact route_grows hgrows.stays hgrows.directory h

/-! ## Putting at a place -/

/-- What is at one place is set, and nothing else is changed. -/
structure Sets (before after : Files) (place : List String) (c : Content) : Prop where
  here : after.here = before.here
  contentAt : ∀ p, after.contentAt p = if p = place then some c else before.contentAt p

/-- A tree without entries changes its own place only, if it hides nothing. -/
theorem sets_putAt {fs : Files} {place : List String} {t : FileTree} (h : fs.root.Takes place)
    (ht : ∀ name, t.child? name = none) : Sets fs (fs.putAt place t) place t.content :=
  ⟨rfl, content_at?_put h ht⟩

theorem Sets.grows {before after : Files} {place : List String} {c : Content}
    (h : Sets before after place c)
    (hdirectory : before.contentAt place = some .directory → c = .directory) :
    Grows before after where
  here := h.here
  stays p hp := by
    rw [h.contentAt]
    split_ifs
    · rfl
    · exact hp
  directory p hp := by
    rw [h.contentAt]
    split_ifs with heq
    · rw [hdirectory (heq ▸ hp)]
    · exact hp

end Files

end Graphwright
