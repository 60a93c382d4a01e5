import Graphwright.Proofs.Files.Place

/-!
# Paths of names

A path in its usual form is made of a beginning and of names. It is taken apart into the same names
again (`normalNames_ofNames`), its directory is the path of all names but the last one, and it leads
where its last name leads from there (`locate_concat`).
-/
namespace Graphwright.Files

namespace Path

/-! ## Names -/

/-- What a path in its usual form begins with. -/
def IsRoot (root : List Char) : Prop := root = [] ∨ root = ['/'] ∨ root = ['/', '/']

/-- A name that stays as it is in the usual form of a path. -/
structure IsName (name : List Char) : Prop where
  nonempty : name ≠ []
  dot : name ≠ ['.']
  slash : '/' ∉ name

theorem isRoot_root (path : List Char) : IsRoot (root path) := by
  rw [root]
  split
  · exact .inl rfl
  · exact .inr (.inr rfl)
  · exact .inr (.inl rfl)

theorem isName_of_mem_normalNames {path name : List Char} (h : name ∈ normalNames path) :
    IsName name := by
  obtain ⟨hfields, hkept⟩ := List.mem_filter.mp h
  obtain ⟨hne, hdot⟩ := Bool.and_eq_true_iff.mp hkept
  exact ⟨of_decide_eq_true hne, of_decide_eq_true hdot, Text.not_mem_of_mem_fields hfields⟩

section

variable {root : List Char} {names : List (List Char)}

theorem joinWith_ne_nil (hne : names ≠ []) (h : ∀ n ∈ names, IsName n) :
    Text.joinWith ['/'] names ≠ [] := by
  intro hnil
  have hfields := Text.fields_joinWith hne fun n hn => (h n hn).slash
  rw [hnil] at hfields
  exact (h [] (hfields ▸ List.mem_singleton_self _)).nonempty rfl

theorem head?_joinWith (h : ∀ n ∈ names, IsName n) :
    (Text.joinWith ['/'] names).head? ≠ some '/' := by
  intro hslash
  cases names with
  | nil => cases hslash
  | cons n rest =>
    obtain ⟨hn, -⟩ := List.forall_mem_cons.mp h
    obtain ⟨c, cs, rfl⟩ := List.exists_cons_of_ne_nil hn.nonempty
    have hc : c = '/' := by
      cases rest <;> exact Option.some_inj.mp hslash
    exact hn.slash (hc ▸ List.mem_cons_self)

/-- The characters of a path of names; there is a dot instead of nothing. -/
theorem toList_ofNames (hne : root ≠ [] ∨ names ≠ []) (h : ∀ n ∈ names, IsName n) :
    (ofNames root names).toList = root ++ Text.joinWith ['/'] names := by
  have hpath : root ++ Text.joinWith ['/'] names ≠ [] := by
    rcases hne with hroot | hnames
    · exact List.append_ne_nil_of_left_ne_nil hroot _
    · exact List.append_ne_nil_of_right_ne_nil _ (joinWith_ne_nil hnames h)
  rw [ofNames]
  simp only [List.isEmpty_iff, if_neg hpath, String.toList_ofList]

theorem isEmpty_ofNames : (ofNames root names).isEmpty = false := by
  rw [ofNames]
  split_ifs with h <;> simp_all

theorem fields_root (hroot : IsRoot root) (cs : List Char) :
    Text.fields '/' (root ++ cs) = root.map (fun _ => []) ++ Text.fields '/' cs := by
  rcases hroot with rfl | rfl | rfl <;> simp [Text.fields]

theorem isAbsolute_ofNames (hroot : IsRoot root) (h : ∀ n ∈ names, IsName n) :
    isAbsolute (ofNames root names) = !root.isEmpty := by
  by_cases hne : root ≠ [] ∨ names ≠ []
  · rw [isAbsolute, toList_ofNames hne h]
    rcases hroot with rfl | rfl | rfl
    · simpa using head?_joinWith h
    · rfl
    · rfl
  · obtain ⟨rfl, rfl⟩ : root = [] ∧ names = [] := by simpa using hne
    decide

/-- The pieces of a path of names: an empty one for each slash at the beginning, and the names.
Where there are no names, the beginning, or the dot, still has an end. -/
theorem fields_ofNames (hroot : IsRoot root) (h : ∀ n ∈ names, IsName n) :
    Text.fields '/' (ofNames root names).toList = root.map (fun _ => []) ++
      if names = [] then [if root = [] then ['.'] else []] else names := by
  by_cases hnames : names = []
  · subst hnames
    rcases hroot with rfl | rfl | rfl <;> decide
  · rw [toList_ofNames (.inr hnames) h, fields_root hroot, if_neg hnames,
      Text.fields_joinWith hnames fun n hn => (h n hn).slash]

theorem components_ofNames (hroot : IsRoot root) (h : ∀ n ∈ names, IsName n) :
    components (ofNames root names) = if root = [] ∧ names = [] then ["."]
      else names.map String.ofList := by
  rw [components, fields_ofNames hroot h]
  by_cases hnames : names = []
  · subst hnames
    rcases hroot with rfl | rfl | rfl <;> decide
  · have hkept : (root.map (fun _ => []) ++ names).filter (!·.isEmpty) = names := by
      rw [List.filter_append, List.filter_eq_nil_iff.mpr (by simp), List.nil_append]
      exact List.filter_eq_self.mpr fun n hn => by simp [(h n hn).nonempty]
    have hlast : (root.map (fun _ => []) ++ names).getLast? ≠ some [] := by
      rw [List.getLast?_append_of_ne_nil _ hnames]
      exact fun hlast => (h [] (List.mem_of_getLast? hlast)).nonempty rfl
    simp only [hkept, hlast, hnames, and_false, decide_false, Bool.false_and, Bool.false_eq_true,
      if_false]

theorem normalNames_ofNames (hroot : IsRoot root) (h : ∀ n ∈ names, IsName n) :
    normalNames (ofNames root names).toList = names := by
  rw [normalNames, fields_ofNames hroot h, List.filter_append, List.filter_eq_nil_iff.mpr (by simp),
    List.nil_append]
  split_ifs with hnames hempty
  · rw [hnames]
    rfl
  · rw [hnames]
    rfl
  · exact List.filter_eq_self.mpr fun n hn => by simp [(h n hn).nonempty, (h n hn).dot]

theorem root_ofNames (hroot : IsRoot root) (h : ∀ n ∈ names, IsName n) :
    Path.root (ofNames root names).toList = root := by
  by_cases hne : root ≠ [] ∨ names ≠ []
  · have hfirst : (Text.joinWith ['/'] names).takeWhile (· == '/') = [] := by
      have hhead := head?_joinWith h
      cases hjoined : Text.joinWith ['/'] names with
      | nil => rfl
      | cons c cs =>
        rw [hjoined] at hhead
        exact List.takeWhile_cons_of_neg (by simpa using hhead)
    rw [toList_ofNames hne h]
    rcases hroot with rfl | rfl | rfl <;> simp [Path.root, hfirst]
  · obtain ⟨rfl, rfl⟩ : root = [] ∧ names = [] := by simpa using hne
    decide

theorem parent_ofNames (hroot : IsRoot root) (h : ∀ n ∈ names, IsName n) :
    parent (ofNames root names) = ofNames root names.dropLast := by
  rw [parent, root_ofNames hroot h, normalNames_ofNames hroot h]

theorem lastName_ofNames {name : List Char} (hroot : IsRoot root)
    (h : ∀ n ∈ names ++ [name], IsName n) :
    lastName (ofNames root (names ++ [name])) = String.ofList name := by
  rw [lastName, normalNames_ofNames hroot h, List.getLastD_concat]

end

end Path

theorem route_dot (look : List String → Option Content) (place : List String) (c : String) :
    route look place [".", c] = route look place [c] := by
  rw [route, if_pos rfl]
  split_ifs with h
  · rfl
  · rw [route, if_neg h]

/-- A path leads where its last name leads from its directory. -/
theorem locate_concat {fs : Files} {root name : List Char} {names : List (List Char)}
    (hroot : Path.IsRoot root) (h : ∀ n ∈ names ++ [name], Path.IsName n) :
    fs.locate (Path.ofNames root (names ++ [name])) =
      (do route fs.contentAt (← fs.locate (Path.ofNames root names)) [String.ofList name]) := by
  have hnames : ∀ n ∈ names, Path.IsName n := fun n hn => h n (List.mem_append_left _ hn)
  simp only [locate_eq, Path.isEmpty_ofNames, Bool.false_eq_true, if_false, ← route_append]
  simp only [steps, Path.isAbsolute_ofNames hroot h, Path.isAbsolute_ofNames hroot hnames,
    Path.components_ofNames hroot h, Path.components_ofNames hroot hnames]
  by_cases hempty : root = [] ∧ names = []
  · obtain ⟨rfl, rfl⟩ := hempty
    simp [route_append, route_dot]
  · have hconcat : ¬(root = [] ∧ names ++ [name] = []) := by simp
    rw [if_neg hempty, if_neg hconcat, List.map_append]
    split_ifs <;> simp

end Graphwright.Files
