import Graphwright.Proofs.Files.Path

/-!
# Changes of files

What is created is one new entry of a directory, and what is written is one text
(`Files.create_sets`, `Files.write_sets`). So making the directories of a path adds these
directories and changes nothing that was there, also where it fails on the way
(`Files.ensureDirectories_adds`), and a file that has been saved holds its text among files that are
otherwise as before, its directories apart (`Files.save_saved`).
-/
namespace Graphwright.Files

open Graphwright.FileTree

/-! ## One entry -/

/-- Something is missing at the end of a way if a directory does not have it. -/
theorem route_eq_missing {look : List String → Option Content} {place : List String} {c : String} :
    route look place [c] = .error .missing ↔
      look place = some .directory ∧ c ≠ "." ∧ c ≠ ".." ∧ look (place ++ [c]) = none := by
  rw [route]
  split_ifs <;> simp_all [route, Option.isSome_iff_ne_none]

theorem route_entry {look : List String → Option Content} {place : List String} {c : String}
    (hplace : look place = some .directory) (hdot : c ≠ ".") (hup : c ≠ "..")
    (hentry : (look (place ++ [c])).isSome) : route look place [c] = .ok (place ++ [c]) := by
  rw [route, if_pos hplace, if_neg hdot, if_neg hup, if_pos hentry, route]

theorem takes_entry {fs : Files} {p : Place} {c : String} (hp : fs.root.at? p.names = some p.node)
    (hdirectory : p.node.isDirectory) (hentry : fs.contentAt (p.names ++ [c]) = none) :
    fs.root.Takes (p.names ++ [c]) := by
  have hnone : p.node.child? c = none := by
    rwa [contentAt, at?_concat, hp, Option.bind_some, Option.map_eq_none_iff] at hentry
  refine takes_append hp ⟨hdirectory, ?_⟩
  rw [hnone]

section

variable {fs after : Files} {root : List Char} {names : List (List Char)}

/-- What is created at a path that leads nowhere is new, and the path leads there now. -/
theorem create_sets {t : FileTree} (hroot : Path.IsRoot root) (hnames : ∀ n ∈ names, Path.IsName n)
    (ht : ∀ name, t.child? name = none)
    (hmissing : fs.find (Path.ofNames root names) = .error .missing)
    (hcreate : fs.create (Path.ofNames root names) t = .ok after) :
    ∃ place, fs.contentAt place = none ∧ Sets fs after place t.content ∧
      after.locate (Path.ofNames root names) = .ok place := by
  obtain ⟨p, hp, hput⟩ := bind_eq_ok.mp hcreate
  rw [Path.parent_ofNames hroot hnames] at hp
  split_ifs at hput with hdirectory
  cases hput
  obtain rfl | ⟨outer, name, rfl⟩ := List.eq_nil_or_concat' names
  · rw [List.dropLast_nil, hmissing] at hp
    cases hp
  rw [List.dropLast_concat] at hp
  rw [Path.lastName_ofNames hroot hnames]
  have hlocate : fs.locate (Path.ofNames root (outer ++ [name])) =
      route fs.contentAt p.names [String.ofList name] := by
    rw [locate_concat hroot hnames, locate_of_find hp]
    rfl
  -- the directory was found, so what is missing is the entry, and its name is neither `.` nor `..`
  rw [← locate_eq_error, hlocate, route_eq_missing] at hmissing
  obtain ⟨habove, hdot, hup, hentry⟩ := hmissing
  have hsets := sets_putAt (takes_entry (stands_of_find hp).at?_eq hdirectory hentry) ht
  have hgrows : Grows fs (fs.putAt (p.names ++ [String.ofList name]) t) :=
    hsets.grows (by rw [hentry]; nofun)
  refine ⟨_, hentry, hsets, ?_⟩
  rw [locate_concat hroot hnames, locate_of_grows hgrows (locate_of_find hp)]
  exact route_entry (hgrows.directory _ habove) hdot hup (by rw [hsets.contentAt, if_pos rfl]; rfl)

theorem makeDirectory_sets (hroot : Path.IsRoot root) (hnames : ∀ n ∈ names, Path.IsName n)
    (hmake : fs.makeDirectory (Path.ofNames root names) = .ok after) :
    ∃ place, fs.contentAt place = none ∧ Sets fs after place .directory ∧
      after.locate (Path.ofNames root names) = .ok place := by
  rw [makeDirectory] at hmake
  split at hmake
  case h_1 => cases hmake
  case h_2 hmissing => exact create_sets hroot hnames (fun _ => rfl) hmissing hmake
  case h_3 => cases hmake

/-- What is written is a new file, or the new text of a file. -/
theorem write_sets {text : String} (hroot : Path.IsRoot root) (hnames : ∀ n ∈ names, Path.IsName n)
    (hwrite : fs.write (Path.ofNames root names) text = .ok after) :
    ∃ place, fs.contentAt place ≠ some .directory ∧ Sets fs after place (.text text) ∧
      after.locate (Path.ofNames root names) = .ok place := by
  rw [write] at hwrite
  split at hwrite
  case h_1 p hp =>
    obtain ⟨node, above⟩ := p
    cases node with
    | directory entries => cases hwrite
    | file old =>
      cases hwrite
      have hfile : fs.contentAt (Place.names ⟨.file old, above⟩) ≠ some .directory := by
        rw [contentAt_of_find hp]
        nofun
      have htakes : fs.root.Takes (Place.names ⟨.file old, above⟩) := by
        have hnone : (FileTree.file old).Takes [] := fun _ => rfl
        simpa using takes_append (stands_of_find hp).at?_eq hnone
      have hsets := sets_putAt htakes (fun _ => (rfl : (FileTree.file text).child? _ = none))
      exact ⟨_, hfile, hsets,
        locate_of_grows (hsets.grows fun h => absurd h hfile) (locate_of_find hp)⟩
  case h_2 hmissing =>
    obtain ⟨place, hnone, hsets, hlocate⟩ := create_sets hroot hnames (fun _ => rfl) hmissing hwrite
    exact ⟨place, by rw [hnone]; nofun, hsets, hlocate⟩
  case h_3 => cases hwrite

end

/-! ## Directories for a path -/

/-- A place where there is a directory now that was missing, the one that the first of some names
lead to. -/
structure MadeFor (root : List Char) (names : List (List Char)) (before after : Files)
    (place : List String) :
    Prop where
  missing : before.contentAt place = none
  directory : after.contentAt place = some .directory
  leads : ∃ outer, outer <+: names ∧ after.locate (Path.ofNames root outer) = .ok place

/-- Nothing but directories for some names has been added. -/
structure Adds (root : List Char) (names : List (List Char)) (before after : Files) : Prop where
  here : after.here = before.here
  only : ∀ place, after.contentAt place = before.contentAt place ∨
    MadeFor root names before after place

section

variable {root : List Char} {names more : List (List Char)} {a b c : Files}

theorem Adds.refl : Adds root names a a := ⟨rfl, fun _ => .inl rfl⟩

theorem MadeFor.mono {place : List String} (h : MadeFor root names a b place)
    (hmore : names <+: more) : MadeFor root more a b place :=
  let ⟨outer, houter, hlocate⟩ := h.leads
  ⟨h.missing, h.directory, outer, houter.trans hmore, hlocate⟩

theorem Adds.mono (h : Adds root names a b) (hmore : names <+: more) : Adds root more a b :=
  ⟨h.here, fun place => (h.only place).imp_right (·.mono hmore)⟩

theorem Adds.grows (h : Adds root names a b) : Grows a b where
  here := h.here
  stays place hplace := by
    rcases h.only place with heq | hmade
    · rwa [heq]
    · rw [hmade.directory]
      rfl
  directory place hplace := by
    rcases h.only place with heq | hmade
    · rwa [heq]
    · exact hmade.directory

theorem MadeFor.grows {place : List String} (h : MadeFor root names a b place)
    (hgrows : Grows b c) : MadeFor root names a c place :=
  let ⟨outer, houter, hlocate⟩ := h.leads
  ⟨h.missing, hgrows.directory place h.directory, outer, houter, locate_of_grows hgrows hlocate⟩

theorem Adds.trans (hab : Adds root names a b) (hbc : Adds root names b c) :
    Adds root names a c where
  here := hbc.here.trans hab.here
  only place := by
    rcases hab.only place with hab' | hmade
    · rcases hbc.only place with hbc' | ⟨hmissing, hdirectory, hleads⟩
      · exact .inl (hbc'.trans hab')
      · exact .inr ⟨hab' ▸ hmissing, hdirectory, hleads⟩
    · exact .inr (hmade.grows hbc.grows)

theorem adds_of_sets {place : List String} (hnone : a.contentAt place = none)
    (hsets : Sets a b place .directory) (hlocate : b.locate (Path.ofNames root names) = .ok place) :
    Adds root names a b where
  here := hsets.here
  only p := by
    by_cases hp : p = place
    · subst hp
      exact .inr ⟨hnone, by rw [hsets.contentAt, if_pos rfl], names, List.prefix_rfl, hlocate⟩
    · exact .inl (by rw [hsets.contentAt, if_neg hp])

/-- A directory is added, or nothing. -/
theorem ensureDirectory_adds (hroot : Path.IsRoot root) (hnames : ∀ n ∈ names, Path.IsName n) :
    Adds root names a (a.ensureDirectory (Path.ofNames root names)).files := by
  rw [ensureDirectory]
  split
  case h_1 after hmake =>
    obtain ⟨place, hnone, hsets, hlocate⟩ := makeDirectory_sets hroot hnames hmake
    exact adds_of_sets hnone hsets hlocate
  case h_2 => exact .refl

/-- Also where a directory cannot be made, only directories were added. -/
theorem ensureDirectories_adds (hroot : Path.IsRoot root) (hnames : ∀ n ∈ names, Path.IsName n) :
    Adds root names.reverse a (a.ensureDirectories root names).files := by
  induction names with
  | nil => exact ensureDirectory_adds hroot hnames
  | cons name outer ih =>
    have hreversed : ∀ n ∈ (name :: outer).reverse, Path.IsName n :=
      fun n hn => hnames n (List.mem_reverse.mp hn)
    rw [ensureDirectories]
    split
    · have haround : Adds root (name :: outer).reverse a (a.ensureDirectories root outer).files :=
        (ih (List.forall_mem_cons.mp hnames).2).mono ⟨[name], List.reverse_cons.symm⟩
      dsimp only
      split_ifs
      · exact haround
      · exact haround.trans (ensureDirectory_adds hroot hreversed)
    · exact ensureDirectory_adds hroot hreversed

end

/-! ## Saving -/

/-- The names of the directories that a path lies in. -/
def outerNames (path : String) : List (List Char) := (Path.normalNames path.toList).dropLast

/-- Nothing but directories that a path lies in has been added. -/
def AddsAround (path : String) : Files → Files → Prop :=
  Adds (Path.root path.toList) (outerNames path)

/-- A text has been saved under a path: a file holds it, and whatever else is different now is a
directory that the path lies in and that was missing. -/
structure Saved (path text : String) (before after : Files) : Prop where
  here : after.here = before.here
  stored : after.stored (Path.normal path) = .ok text
  only : ∀ place, after.contentAt place = before.contentAt place ∨
    after.locate (Path.normal path) = .ok place ∨
    MadeFor (Path.root path.toList) (outerNames path) before after place

section

variable (fs : Files) (path text : String)

theorem isName_of_mem_outerNames {n : List Char} (hn : n ∈ outerNames path) : Path.IsName n :=
  Path.isName_of_mem_normalNames (List.dropLast_subset _ hn)

theorem around_adds :
    AddsAround path fs (fs.ensureDirectories (Path.root path.toList)
      (outerNames path).reverse).files := by
  have hadds := ensureDirectories_adds (a := fs) (Path.isRoot_root path.toList)
    fun n hn => isName_of_mem_outerNames path (List.mem_reverse.mp hn)
  rwa [List.reverse_reverse] at hadds

theorem save_saved (h : (fs.save path text).fault? = none) :
    Saved path text fs (fs.save path text).files := by
  have hadds := around_adds fs path
  rw [save, ← outerNames] at h ⊢
  generalize fs.ensureDirectories _ _ = around at h hadds ⊢
  split_ifs at h ⊢ with hfault
  · rw [h] at hfault
    cases hfault
  · split at h
    case h_2 => cases h
    case h_1 after hwrite =>
      obtain ⟨place, hfile, hsets, hlocate⟩ := write_sets (Path.isRoot_root path.toList)
        (fun n hn => Path.isName_of_mem_normalNames hn) hwrite
      have hgrows : Grows around.files after :=
        hsets.grows fun hdirectory => absurd hdirectory hfile
      refine ⟨hsets.here.trans hadds.here, stored_eq hlocate (by rw [hsets.contentAt, if_pos rfl]),
        fun p => ?_⟩
      by_cases hp : p = place
      · exact .inr (.inl (hp ▸ hlocate))
      · rcases hadds.only p with heq | hmade
        · exact .inl (by rw [hsets.contentAt, if_neg hp, heq])
        · exact .inr (.inr (hmade.grows hgrows))

/-- Where a text could not be saved, only directories were made. -/
theorem save_adds (h : (fs.save path text).fault? ≠ none) :
    AddsAround path fs (fs.save path text).files := by
  have hadds := around_adds fs path
  rw [save, ← outerNames] at h ⊢
  generalize fs.ensureDirectories _ _ = around at h hadds ⊢
  split_ifs at h ⊢
  · exact hadds
  · split
    · rename_i hwrite
      rw [hwrite] at h
      exact absurd rfl h
    · exact hadds

end

end Graphwright.Files
