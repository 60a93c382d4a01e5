import Graphwright.Proofs.Naming.Identifiers

/-!
# Conversion between cases

Snake, Pascal and upper case keep the letters and digits of a name, in their order: only case and
underscores differ (`conversions_keep_letters`). Snake case breaks a name before capitals and leaves
none, so a name in snake case stays as it is, and its Pascal case is that of the name it was made
of.
-/
namespace Graphwright.Naming

variable {cs : List Char}

/-! ## Names without capitals -/

theorem breakWords_of_not_isUpper (h : ∀ c ∈ cs, ¬ c.isUpper) : breakWords cs = cs := by
  fun_induction breakWords cs with
  | case1 c u l rest hborder => exact absurd hborder.2.1 (h u (by simp))
  | case2 c u l rest _ ih => rw [ih fun d hd => h d (List.mem_cons_of_mem _ hd)]
  | case3 => rfl

theorem breakCapitals_of_not_isUpper (h : ∀ c ∈ cs, ¬ c.isUpper) : breakCapitals cs = cs := by
  fun_induction breakCapitals cs with
  | case1 a b rest hborder => exact absurd (Bool.and_eq_true_iff.mp hborder).2 (h b (by simp))
  | case2 a b rest _ ih => rw [ih fun d hd => h d (List.mem_cons_of_mem _ hd)]
  | case3 => rfl

theorem not_isUpper_toLower {c : Char} (hc : c.toNat < 128) : ¬ c.toLower.isUpper :=
  forall_ascii (P := fun c => ¬ c.toLower.isUpper) (by decide) hc

theorem snakeChars_of_lower (h : IsAscii cs) (hlower : ∀ c ∈ cs, c.toLower = c) :
    snakeChars cs = cs := by
  have hcapitals : ∀ c ∈ cs, ¬ c.isUpper := fun c hc => hlower c hc ▸ not_isUpper_toLower (h c hc)
  rw [snakeChars, breakWords_of_not_isUpper hcapitals, breakCapitals_of_not_isUpper hcapitals,
    Text.lower, lowerFrom_ascii h, List.map_congr_left hlower, List.map_id']

/-! ## Snake case -/

theorem toLower_of_mem_snakeChars (h : IsAscii cs) : ∀ c ∈ snakeChars cs, c.toLower = c := by
  have hbroken : IsAscii (breakCapitals (breakWords cs)) :=
    h.of_filter ((filter_breakCapitals _).trans (filter_breakWords cs))
  intro c hc
  rw [snakeChars, Text.lower, lowerFrom_ascii hbroken] at hc
  obtain ⟨b, hb, rfl⟩ := List.mem_map.mp hc
  exact (toLower_ascii (hbroken b hb)).2.1

theorem snakeChars_snakeChars (h : IsAscii cs) : snakeChars (snakeChars cs) = snakeChars cs :=
  snakeChars_of_lower (letters_snakeChars h).1 (toLower_of_mem_snakeChars h)

/-- Without its underscores, a name in snake case consists of the letters of the name. -/
theorem filter_snakeChars (h : IsAscii cs) : (snakeChars cs).filter (· ≠ '_') = letters cs := by
  have hlower : ∀ c ∈ (snakeChars cs).filter (· ≠ '_'), c.toLower = c :=
    fun c hc => toLower_of_mem_snakeChars h c (List.mem_of_mem_filter hc)
  rw [← (letters_snakeChars h).2, letters, List.map_congr_left hlower, List.map_id']

/-- The letters of a name are its lower case, without underscores. -/
theorem filter_lower (h : IsAscii cs) : (Text.lower cs).filter (· ≠ '_') = letters cs := by
  have hlower : ∀ c ∈ (cs.map Char.toLower).filter (· ≠ '_'), c.toLower = c := by
    intro c hc
    obtain ⟨b, hb, rfl⟩ := List.mem_map.mp (List.mem_of_mem_filter hc)
    exact (toLower_ascii (h b hb)).2.1
  rw [Text.lower, lowerFrom_ascii h, ← letters_map_toLower h, letters, List.map_congr_left hlower,
    List.map_id']

theorem pascalChars_snakeChars (h : IsAscii cs) : pascalChars (snakeChars cs) = pascalChars cs := by
  rw [pascalChars, snakeChars_snakeChars h, pascalChars]

/-! ## Upper case -/

theorem upper_ascii (h : IsAscii cs) : Text.upper cs = cs.map Char.toUpper := by
  rw [Text.upper,
    List.flatMap_congr fun c hc => show Text.upperChar c = [c.toUpper] from if_pos (h c hc)]
  exact List.map_eq_flatMap.symm

theorem toUpper_eq_underscore_iff {c : Char} (hc : c.toNat < 128) : c.toUpper = '_' ↔ c = '_' :=
  forall_ascii (P := fun c => c.toUpper = '_' ↔ c = '_') (by decide) hc

theorem letters_upperChars (h : IsAscii cs) : letters (upperChars cs) = letters cs := by
  obtain ⟨hsnake, hletters⟩ := letters_snakeChars h
  rw [upperChars, upper_ascii hsnake, letters_map, hletters]
  exact fun c hc => ⟨(toLower_ascii (hsnake c hc)).2.2.1, toUpper_eq_underscore_iff (hsnake c hc)⟩

/-! ## Names of a document -/

/-- **Conversion.** Of the name of a definition, lower and snake case without underscores, Pascal
case in lower case, and upper case in lower case without underscores are all the same: its letters
and digits. A name in snake case stays so and has the same Pascal case. Hence, where the kind of an
operation is always put behind its name, operations of one kind whose results are called the same
differ in case and underscores at most. -/
theorem conversions_keep_letters {name : String} (h : Document.IsName name) :
    (Text.lower name.toList).filter (· ≠ '_') = letters name.toList ∧
    (snakeCase name).toList.filter (· ≠ '_') = letters name.toList ∧
    Text.lower (pascalCase name).toList = letters name.toList ∧
    Text.lower ((upperCase name).toList.filter (· ≠ '_')) = letters name.toList ∧
    snakeCase (snakeCase name) = snakeCase name ∧
    pascalCase (snakeCase name) = pascalCase name ∧
    ∀ (other : String) (kind : Document.OperationKind), Document.IsName other →
      operationTypeName name kind.keyword false = operationTypeName other kind.keyword false →
      letters name.toList = letters other.toList := by
  have htext := isNameText_of_isName h
  have hsnake : (snakeCase name).toList = snakeChars name.toList := String.toList_ofList
  have hpascal : (pascalCase name).toList = pascalChars name.toList := String.toList_ofList
  have hupper : (upperCase name).toList = upperChars name.toList := String.toList_ofList
  refine ⟨filter_lower htext.isAscii, ?_, ?_, ?_, ?_, ?_, fun other kind hother heq => ?_⟩
  · rw [hsnake, filter_snakeChars htext.isAscii]
  · rw [hpascal, Text.lower, lowerFrom_ascii (isNameText_pascalChars htext).isAscii,
      map_toLower_pascalChars htext.isAscii]
  · have hascii : IsAscii ((upperChars name.toList).filter (· ≠ '_')) :=
      fun c hc => (upperChars_spec htext).1.isAscii c (List.mem_of_mem_filter hc)
    rw [hupper, Text.lower, lowerFrom_ascii hascii]
    exact letters_upperChars htext.isAscii
  · rw [← String.toList_inj, snakeCase, Text.onChars, String.toList_ofList, hsnake,
      snakeChars_snakeChars htext.isAscii]
  · rw [← String.toList_inj, pascalCase, Text.onChars, String.toList_ofList, hsnake,
      pascalChars_snakeChars htext.isAscii, hpascal]
  · have hpascalCase : pascalCase name = pascalCase other := (String.append_left_inj _).mp heq
    exact letters_of_pascalCase_eq htext.isAscii (isNameText_of_isName hother).isAscii hpascalCase

/-- Runs of capitals, digits and underscores. -/
theorem conversions_keep_letters_runs :
    Text.lower (pascalCase "__getHTTPUser2_B").toList = "gethttpuser2b".toList ∧
      snakeCase (snakeCase "__getHTTPUser2_B") = "__get_http_user2_b" ∧
      operationTypeName "__getHTTPUser2_B" "query" false = "GetHttpUser2BQuery" ∧
      operationTypeName "get_http_user2B" "query" false = "GetHttpUser2BQuery" ∧
      letters "__getHTTPUser2_B".toList = letters "get_http_user2B".toList := by
  have hname : Document.IsName "__getHTTPUser2_B" := by decide
  obtain ⟨-, -, hpascal, -, hsnake, -, hsame⟩ := conversions_keep_letters hname
  have hresults : operationTypeName "__getHTTPUser2_B" "query" false = "GetHttpUser2BQuery" ∧
      operationTypeName "get_http_user2B" "query" false = "GetHttpUser2BQuery" := by decide +kernel
  refine ⟨hpascal.trans (by decide +kernel), hsnake.trans (by decide +kernel), hresults.1,
    hresults.2, ?_⟩
  exact hsame "get_http_user2B" .query (by decide) (hresults.1.trans hresults.2.symm)

end Graphwright.Naming
