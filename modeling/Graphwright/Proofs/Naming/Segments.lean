import Graphwright.Proofs.Naming.Directories
import Graphwright.Proofs.Naming.Identifiers
import Graphwright.Proofs.Text.Fields
import Graphwright.Proofs.Types.Marks

/-!
# Segments of a package

Each directory of a path gives one segment of the package: what is no word character becomes an
underscore, a digit in front takes one before it, and a keyword one behind it. No segment is empty
or a keyword.

Word characters are more than those of identifiers: superscripts, fractions and some letters are
among them, and they stay as they are. So a segment is an identifier exactly if its directory is
nameable (`IsNameable`).

* `segments_of_packageOf`: the segments of a package, and when they are identifiers.
* `segments_of_packageOf_ascii`: they are for a path of ASCII characters, though its directories are
  none.
* `segment_superscript`: a directory with a superscript gives a segment that is no identifier.
-/
namespace Graphwright.Naming

/-! ## One segment -/

/-- A directory whose word characters may stand where they do in an identifier; a digit in front may
stand further back, for an underscore comes before it. -/
def IsNameable : List Char → Prop
  | [] => False
  | c :: rest =>
    (Text.isWord c → if Text.isDigit c then Text.isIdentRest c else Text.isIdentStart c) ∧
      ∀ d ∈ rest, Text.isWord d → Text.isIdentRest d

instance : DecidablePred IsNameable
  | [] => inferInstanceAs (Decidable False)
  | c :: rest =>
    inferInstanceAs (Decidable
      ((Text.isWord c → if Text.isDigit c then Text.isIdentRest c else Text.isIdentStart c) ∧
        ∀ d ∈ rest, Text.isWord d → Text.isIdentRest d))

/-- A character as it stands in a segment. -/
def cleaned (c : Char) : Char := if Text.isWord c then c else '_'

theorem isIdentRest_cleaned (c : Char) :
    Text.isIdentRest (cleaned c) ↔ (Text.isWord c → Text.isIdentRest c) := by
  unfold cleaned
  split
  · simp [*]
  · simpa [*] using show Text.isIdentRest '_' = true by decide

theorem isIdentRest_map_cleaned (cs : List Char) :
    (cs.map cleaned).all Text.isIdentRest ↔ ∀ c ∈ cs, Text.isWord c → Text.isIdentRest c := by
  simp only [List.all_map, List.all_eq_true, Function.comp_apply, isIdentRest_cleaned]

theorem wordChars_cons (c : Char) (rest : List Char) : wordChars (c :: rest) =
    if Text.isDigit (cleaned c) then '_' :: cleaned c :: rest.map cleaned
      else cleaned c :: rest.map cleaned := rfl

/-- Cleaning gives an identifier exactly if the directory is nameable. -/
theorem isIdentifier_wordChars (dir : List Char) :
    Text.isIdentifier (wordChars dir) ↔ IsNameable dir := by
  cases dir with
  | nil => simp [wordChars, Text.isIdentifier, IsNameable]
  | cons c rest =>
    have hunderscore : Text.isIdentStart '_' = true := by decide
    rw [wordChars_cons, IsNameable, ← isIdentRest_map_cleaned]
    by_cases hword : Text.isWord c
    · have hsame : cleaned c = c := if_pos hword
      rw [hsame]
      by_cases hdigit : Text.isDigit c <;> simp [Text.isIdentifier, hdigit, hword, hunderscore]
    · have hsame : cleaned c = '_' := if_neg hword
      have hdigit : Text.isDigit '_' = false := by decide
      rw [hsame]
      simp [Text.isIdentifier, hdigit, hword, hunderscore]

theorem wordChars_ne_nil {dir : List Char} (h : dir ≠ []) : wordChars dir ≠ [] := by
  obtain ⟨c, rest, rfl⟩ := List.exists_cons_of_ne_nil h
  rw [wordChars_cons]
  split <;> exact List.cons_ne_nil _ _

theorem isIdentifier_keyword :
    ∀ w ∈ keywords, Text.isIdentifier w.toList ∧ Text.isIdentifier (w ++ "_").toList := by
  decide

theorem isSafeIdentifier_escape (name : String) :
    isSafeIdentifier (safeIdentifier name) ↔ Text.isIdentifier name.toList := by
  rw [isSafeIdentifier_iff, safeIdentifier_eq,
    and_iff_left (escaped_not_mem escapable_keywords name)]
  by_cases hw : name ∈ keywords
  · rw [escaped_of_mem hw, iff_true_intro (isIdentifier_keyword name hw).1,
      iff_true_intro (isIdentifier_keyword name hw).2]
  · rw [escaped_of_not_mem hw]

section Segment

variable (dir : List Char)

theorem packageSegment_eq :
    packageSegment (String.ofList dir) = escaped keywords (String.ofList (wordChars dir)) := by
  rw [packageSegment, Text.onChars, String.toList_ofList, safeIdentifier_eq]

theorem isSafeIdentifier_packageSegment :
    isSafeIdentifier (packageSegment (String.ofList dir)) ↔ IsNameable dir := by
  rw [packageSegment_eq, ← safeIdentifier_eq, isSafeIdentifier_escape, String.toList_ofList,
    isIdentifier_wordChars]

theorem packageSegment_not_mem : packageSegment (String.ofList dir) ∉ keywords := by
  rw [packageSegment_eq]
  exact escaped_not_mem escapable_keywords _

variable {dir}

theorem packageSegment_ne_empty (h : dir ≠ []) : packageSegment (String.ofList dir) ≠ "" := by
  rw [packageSegment_eq, escaped]
  split
  · exact fun heq => by simpa using congrArg String.toList heq
  · exact fun heq => wordChars_ne_nil h (String.ofList_injective heq)

theorem dot_not_mem_packageSegment : '.' ∉ (packageSegment (String.ofList dir)).toList := by
  have hdot : '.' ∉ wordChars dir := fun hmem => absurd (isWord_of_mem_wordChars hmem) (by decide)
  rw [packageSegment_eq, escaped]
  split
  · simpa using hdot
  · rwa [String.toList_ofList]

end Segment

/-! ## The segments of a package -/

/-- What the dots of a package stand between. -/
def segmentsOf (package : String) : List String :=
  (Text.fields '.' package.toList).map String.ofList

/-- The directories that the package of a path has its name from. -/
def packageDirectories (path : String) : List (List Char) :=
  directoriesOf (isAbsolute path) (normalForm (componentsOf path))

theorem segmentsOf_dotted {dirs : List (List Char)} (h : dirs ≠ []) :
    segmentsOf (dotted dirs) = dirs.map fun d => packageSegment (String.ofList d) := by
  have hfields : Text.fields '.' (dotted dirs).toList =
      (dirs.map fun d => packageSegment (String.ofList d)).map (·.toList) := by
    rw [dotted, if_neg h, Text.toList_intercalate]
    refine Text.fields_joinWith (by simpa using h) fun piece hpiece => ?_
    simp only [List.map_map, List.mem_map, Function.comp_apply] at hpiece
    obtain ⟨d, -, rfl⟩ := hpiece
    exact dot_not_mem_packageSegment
  rw [segmentsOf, hfields, List.map_map]
  exact (List.map_congr_left fun s _ => String.ofList_toList).trans (List.map_id _)

theorem eq_dotted_of_packageOf {path package : String} (h : packageOf path = .ok package) :
    package = dotted (packageDirectories path) := by
  rw [packageOf_eq] at h
  split at h
  · cases h
  · split at h
    · cases h
    · split at h
      · cases h
      · exact (Except.ok.inj h).symm

theorem packageDirectories_subset (path : String) :
    packageDirectories path ⊆ componentsOf path := by
  have hresolved : resolvedOf (isAbsolute path) (normalForm (componentsOf path)) ⊆
      componentsOf path := by
    refine List.Subset.trans ?_
      (subset_of_cancels (cancels_normalForm (isCounted_of_mem_componentsOf path)))
    unfold resolvedOf
    split
    · exact (List.dropWhile_sublist _).subset
    · exact List.Subset.refl _
  have hsource : ∀ dirs : List (List Char), withoutSource dirs ⊆ dirs := by
    intro dirs
    unfold withoutSource
    split
    · exact (List.tail_sublist dirs).subset
    · exact List.Subset.refl _
  exact List.Subset.trans (hsource _) (List.Subset.trans (List.dropLast_subset _) hresolved)

theorem isAscii_of_mem_componentsOf {path : String} (h : IsAscii path.toList) :
    ∀ dir ∈ componentsOf path, IsAscii dir := by
  intro dir hdir c hc
  have hmem : dir ∈ Text.fields '/' (slashed path.toList) :=
    fields_slashed _ ▸ (List.mem_filter.mp hdir).1
  have hflat : c ∈ (Text.fields '/' (slashed path.toList)).flatten :=
    List.mem_flatten_of_mem hmem hc
  rw [flatten_fields] at hflat
  obtain ⟨b, hb, rfl⟩ := List.mem_map.mp (List.mem_filter.mp hflat).1
  split
  · decide
  · exact h b hb

theorem isNameable_ascii {dir : List Char} (hne : dir ≠ []) (h : IsAscii dir) : IsNameable dir := by
  obtain ⟨c, rest, rfl⟩ := List.exists_cons_of_ne_nil hne
  obtain ⟨hc, hrest⟩ := List.forall_mem_cons.mp h
  refine ⟨?_, fun d hd => ?_⟩
  · exact forall_ascii (P := fun c => Text.isWord c → if Text.isDigit c then Text.isIdentRest c else
      Text.isIdentStart c) (by decide) hc
  · exact forall_ascii (P := fun d => Text.isWord d → Text.isIdentRest d) (by decide) (hrest d hd)

/-- **Segments.** The segments of a package are neither empty nor keywords. All of them are
identifiers exactly if every directory of the path is nameable, which it is in a path of ASCII
characters. -/
theorem segments_of_packageOf {path package : String} (h : packageOf path = .ok package) :
    (∀ segment ∈ segmentsOf package, segment ≠ "" ∧ segment ∉ keywords) ∧
      ((∀ segment ∈ segmentsOf package, isSafeIdentifier segment) ↔
        ∀ dir ∈ packageDirectories path, IsNameable dir) ∧
      (IsAscii path.toList → ∀ segment ∈ segmentsOf package, isSafeIdentifier segment) := by
  obtain rfl := eq_dotted_of_packageOf h
  have hsubset := packageDirectories_subset path
  have hnonempty : ∀ dir ∈ packageDirectories path, dir ≠ [] :=
    fun dir hdir => (isCounted_of_mem_componentsOf path dir (hsubset hdir)).1
  have hascii (hpath : IsAscii path.toList) : ∀ dir ∈ packageDirectories path, IsNameable dir :=
    fun dir hdir => isNameable_ascii (hnonempty dir hdir)
      (isAscii_of_mem_componentsOf hpath dir (hsubset hdir))
  by_cases hnone : packageDirectories path = []
  · have hsegments : segmentsOf (dotted (packageDirectories path)) = ["generated"] := by
      rw [hnone]
      decide
    rw [hsegments, hnone]
    exact ⟨by decide, iff_of_true (by decide) (List.forall_mem_nil _), fun _ => by decide⟩
  · simp only [segmentsOf_dotted hnone, List.forall_mem_map, isSafeIdentifier_packageSegment,
      true_and]
    exact ⟨fun dir hdir =>
      ⟨packageSegment_ne_empty (hnonempty dir hdir), packageSegment_not_mem dir⟩, hascii⟩

theorem segments_of_packageOf_ascii : packageOf "my-app/3d/class/sdk.py" = .ok "my_app._3d.class_" ∧
    ∀ segment ∈ segmentsOf "my_app._3d.class_", isSafeIdentifier segment := by
  have hpackage : packageOf "my-app/3d/class/sdk.py" = .ok "my_app._3d.class_" := by rfl
  exact ⟨hpackage, (segments_of_packageOf hpackage).2.2 (by decide)⟩

/-- A superscript is a word character, but none of an identifier. -/
theorem segment_superscript : ¬ ∀ path package, packageOf path = .ok package →
    ∀ segment ∈ segmentsOf package, isSafeIdentifier segment := by
  intro hall
  have hpackage : packageOf "a²/sdk.py" = .ok "a²" := by rfl
  exact absurd (hall "a²/sdk.py" "a²" hpackage "a²" (by decide)) (by decide +kernel)

end Graphwright.Naming
