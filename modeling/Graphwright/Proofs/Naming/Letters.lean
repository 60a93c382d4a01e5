import Graphwright.Naming.Case

/-!
# Letters of names

Pascal case forgets where the underscores of a name were and which of its letters were capitals, and
nothing else: the letters and digits stay, in their order (`map_toLower_pascalChars`). So names that
become the same in Pascal case differ in underscores and capitals only. This is about names of ASCII
characters, as all names of a document are; others may have a capital that is written with several
letters.

Upper case leaves none of the small letters of ASCII, in no name whatever (`not_isLower_upper`).
-/
namespace Graphwright.Naming

def IsAscii (cs : List Char) : Prop := ∀ c ∈ cs, c.toNat < 128

instance (cs : List Char) : Decidable (IsAscii cs) :=
  List.decidableBAll (fun c : Char => c.toNat < 128) cs

/-- The characters of a name in lower case, without its underscores. -/
def letters (cs : List Char) : List Char := (cs.filter (· ≠ '_')).map Char.toLower

/-- A property of all ASCII characters, checked one by one. -/
theorem forall_ascii {P : Char → Prop} (h : ∀ n < 128, P (Char.ofNat n)) {c : Char}
    (hc : c.toNat < 128) : P c := by
  have := h c.toNat hc
  rwa [Char.ofNat_toNat] at this

/-- Where only underscores have been inserted, what holds of an underscore as well still holds of
all characters. -/
theorem forall_of_filter {P : Char → Prop} (hunderscore : P '_') {cs ds : List Char}
    (h : ∀ c ∈ cs, P c) (hf : ds.filter (· ≠ '_') = cs.filter (· ≠ '_')) : ∀ c ∈ ds, P c := by
  intro c hc
  by_cases hu : c = '_'
  · rwa [hu]
  · have hmem : c ∈ cs.filter (· ≠ '_') := hf ▸ List.mem_filter.mpr ⟨hc, decide_eq_true hu⟩
    exact h c (List.mem_filter.mp hmem).1

theorem toLower_ascii {c : Char} (hc : c.toNat < 128) : c.toLower.toNat < 128 ∧
    c.toLower.toLower = c.toLower ∧ c.toUpper.toLower = c.toLower ∧ (c.toLower = '_' ↔ c = '_') :=
  forall_ascii (P := fun c => c.toLower.toNat < 128 ∧ c.toLower.toLower = c.toLower ∧
    c.toUpper.toLower = c.toLower ∧ (c.toLower = '_' ↔ c = '_')) (by decide) hc

namespace IsAscii

variable {cs ds : List Char}

theorem map_toLower (h : IsAscii cs) : IsAscii (cs.map Char.toLower) := by
  intro c hc
  obtain ⟨b, hb, rfl⟩ := List.mem_map.mp hc
  exact (toLower_ascii (h b hb)).1

theorem of_filter (h : IsAscii cs) (hf : ds.filter (· ≠ '_') = cs.filter (· ≠ '_')) : IsAscii ds :=
  forall_of_filter (by decide) h hf

end IsAscii

theorem lowerFrom_ascii {cs : List Char} (h : IsAscii cs) (before : List Char) :
    Text.lowerFrom before cs = cs.map Char.toLower := by
  induction cs generalizing before with
  | nil => rfl
  | cons c rest ih =>
    have hc : c.toNat < 128 := h c List.mem_cons_self
    have hsigma : c ≠ 'Σ' := fun heq => absurd (heq ▸ hc) (by decide)
    rw [Text.lowerFrom, if_neg hsigma, Text.lowerChar, if_pos hc,
      ih fun b hb => h b (List.mem_cons_of_mem _ hb)]
    rfl

theorem map_toLower_capitalize {cs : List Char} (h : IsAscii cs) :
    (Text.capitalize cs).map Char.toLower = cs.map Char.toLower := by
  cases cs with
  | nil => rfl
  | cons c rest =>
    have hc : c.toNat < 128 := h c List.mem_cons_self
    have hrest : IsAscii rest := fun b hb => h b (List.mem_cons_of_mem _ hb)
    rw [Text.capitalize, Text.titleChar, if_pos hc, lowerFrom_ascii hrest, List.singleton_append,
      List.map_cons, List.map_map, (toLower_ascii hc).2.2.1, List.map_cons]
    congr 1
    exact List.map_congr_left fun b hb => (toLower_ascii (hrest b hb)).2.1

theorem flatten_fields (sep : Char) (cs : List Char) :
    (Text.fields sep cs).flatten = cs.filter (· ≠ sep) := by
  induction cs with
  | nil => rfl
  | cons c rest ih =>
    obtain ⟨piece, pieces, h⟩ := List.exists_cons_of_ne_nil (Text.fields_ne_nil sep rest)
    simp only [Text.fields, h] at ih ⊢
    rw [List.filter_cons, ← ih]
    by_cases hc : c = sep <;> simp [hc]

/-- The letters stay where each character is replaced by one of the same lower case. -/
theorem letters_map {f : Char → Char} {cs : List Char}
    (h : ∀ c ∈ cs, (f c).toLower = c.toLower ∧ (f c = '_' ↔ c = '_')) :
    letters (cs.map f) = letters cs := by
  induction cs with
  | nil => rfl
  | cons c rest ih =>
    obtain ⟨hlower, hunderscore⟩ := h c List.mem_cons_self
    have hrest := ih fun b hb => h b (List.mem_cons_of_mem _ hb)
    unfold letters at hrest ⊢
    rw [List.map_cons, List.filter_cons, List.filter_cons]
    by_cases hc : c = '_'
    · rw [if_neg (by simp [hunderscore.mpr hc]), if_neg (by simp [hc]), hrest]
    · rw [if_pos (by simpa [hunderscore] using hc), if_pos (by simpa using hc), List.map_cons,
        List.map_cons, hlower, hrest]

theorem letters_map_toLower {cs : List Char} (h : IsAscii cs) :
    letters (cs.map Char.toLower) = letters cs :=
  letters_map fun c hc => ⟨(toLower_ascii (h c hc)).2.1, (toLower_ascii (h c hc)).2.2.2⟩

theorem letters_snakeChars {cs : List Char} (h : IsAscii cs) :
    IsAscii (snakeChars cs) ∧ letters (snakeChars cs) = letters cs := by
  have hfilter : (breakCapitals (breakWords cs)).filter (· ≠ '_') = cs.filter (· ≠ '_') :=
    (filter_breakCapitals _).trans (filter_breakWords cs)
  have hbroken : IsAscii (breakCapitals (breakWords cs)) := h.of_filter hfilter
  unfold snakeChars Text.lower
  rw [lowerFrom_ascii hbroken]
  refine ⟨hbroken.map_toLower, ?_⟩
  rw [letters_map_toLower hbroken, letters, hfilter]
  rfl

/-- **Pascal case.** The letters and digits of a name stay in Pascal case, up to capitals. -/
theorem map_toLower_pascalChars {cs : List Char} (h : IsAscii cs) :
    (pascalChars cs).map Char.toLower = letters cs := by
  obtain ⟨hsnake, hletters⟩ := letters_snakeChars h
  have hpiece : ∀ piece ∈ Text.fields '_' (snakeChars cs), IsAscii piece := by
    intro piece hp c hc
    have hmem : c ∈ (Text.fields '_' (snakeChars cs)).flatten := List.mem_flatten_of_mem hp hc
    rw [flatten_fields] at hmem
    exact hsnake c (List.mem_filter.mp hmem).1
  calc
    (pascalChars cs).map Char.toLower
      = ((Text.fields '_' (snakeChars cs)).map fun p =>
        (Text.capitalize p).map Char.toLower).flatten := by
        rw [pascalChars, List.map_flatMap, List.flatMap_def]
    _ = ((Text.fields '_' (snakeChars cs)).map (List.map Char.toLower)).flatten := by
        rw [List.map_congr_left fun p hp => map_toLower_capitalize (hpiece p hp)]
    _ = (Text.fields '_' (snakeChars cs)).flatten.map Char.toLower := List.map_flatten.symm
    _ = letters (snakeChars cs) := by rw [flatten_fields, letters]
    _ = letters cs := hletters

/-- Names with one Pascal case differ in underscores and capitals only. -/
theorem letters_of_pascalCase_eq {a b : String} (ha : IsAscii a.toList) (hb : IsAscii b.toList)
    (h : pascalCase a = pascalCase b) : letters a.toList = letters b.toList := by
  have hchars : pascalChars a.toList = pascalChars b.toList := String.ofList_injective h
  rw [← map_toLower_pascalChars ha, ← map_toLower_pascalChars hb, hchars]

/-! ## Upper case -/

theorem isLower_iff {c : Char} : c.isLower ↔ 97 ≤ c.toNat ∧ c.toNat ≤ 122 := by
  change (decide ('a'.val ≤ c.val) && decide (c.val ≤ 'z'.val)) = true ↔ _
  rw [Bool.and_eq_true, decide_eq_true_iff, decide_eq_true_iff, UInt32.le_iff_toNat_le,
    UInt32.le_iff_toNat_le]
  exact Iff.rfl

theorem isUpper_iff {c : Char} : c.isUpper ↔ 65 ≤ c.toNat ∧ c.toNat ≤ 90 := by
  change decide ('A'.val ≤ c.val ∧ c.val ≤ 'Z'.val) = true ↔ _
  rw [decide_eq_true_iff, UInt32.le_iff_toNat_le, UInt32.le_iff_toNat_le]
  exact Iff.rfl

theorem not_isLower_of_isDigit {c : Char} (h : c.isDigit) : ¬ c.isLower := by
  have hnine : '9'.toNat = 57 := rfl
  rw [Char.isDigit_iff_toNat] at h
  rw [isLower_iff]
  omega

theorem not_isLower_ofNat {n : Nat} (h : n < 97 ∨ 122 < n) : ¬ (Char.ofNat n).isLower := by
  rw [isLower_iff]
  by_cases hn : n.isValidChar
  · have hvalue : (Char.ofNat n).toNat = n := by
      rw [Char.ofNat, dif_pos hn]
      rfl
    omega
  · have hvalue : (Char.ofNat n).toNat = 0 := by
      rw [Char.ofNat, dif_neg hn]
      rfl
    omega

/-- No run of the mapping to upper case meets the small letters of ASCII. -/
theorem upperRuns_clear :
    ∀ r ∈ Text.upperRuns, 122 < r.first + r.delta ∨ r.last + r.delta < 97 := by
  decide +kernel

theorem not_isLower_upperChar {c d : Char} (h : c ∈ Text.upperChar d) : ¬ c.isLower := by
  unfold Text.upperChar at h
  split at h
  · rename_i hd
    rw [List.mem_singleton.mp h]
    exact forall_ascii (P := fun d => ¬ d.toUpper.isLower) (by decide) hd
  · rename_i hd
    unfold Text.mapCase at h
    split at h
    · rename_i image hfind
      have hspecial : ∀ e ∈ Text.upperSpecial, ∀ n ∈ e.2, ¬ (Char.ofNat n).isLower := by
        decide
      obtain ⟨n, hn, rfl⟩ := List.mem_map.mp h
      exact hspecial _ (List.mem_of_find?_eq_some hfind) n hn
    · split at h
      · rename_i n hrun
        obtain ⟨r, hr, himage⟩ := List.exists_of_findSome?_eq_some hrun
        have hclear := upperRuns_clear r hr
        rw [List.mem_singleton.mp h]
        simp only [Text.CaseRun.image?, Bool.and_eq_true, decide_eq_true_eq] at himage
        split at himage
        · apply not_isLower_ofNat
          have := Option.some.inj himage
          omega
        · cases himage
      · rw [List.mem_singleton.mp h, isLower_iff]
        omega

/-- **Upper case.** No small letter of ASCII is left. -/
theorem not_isLower_upper {c : Char} {cs : List Char} (h : c ∈ Text.upper cs) : ¬ c.isLower := by
  obtain ⟨d, -, hc⟩ := List.mem_flatMap.mp h
  exact not_isLower_upperChar hc

end Graphwright.Naming
