import Graphwright.Proofs.Document.Cutting
import Graphwright.Proofs.Naming.Escapes
import Graphwright.Proofs.Response.Keyed
import Graphwright.Proofs.Response.Reserved

/-!
# Generated names as identifiers

The characters of a name stay word characters in every case convention, and a name that a suffix
ends is no keyword, for no keyword ends in one of these suffixes. So a generated name is an
identifier that is no keyword exactly if it does not begin with a digit (`isIdentifier_iff`).

A name of a document begins with a letter or an underscore. Classes and constants keep that
character. Pascal case drops the underscores in front, and then a digit may come first: the types of
an operation or a fragment have identifiers for names exactly if the first character of its own name
that is no underscore is no digit (`isSafeIdentifier_generated`).
-/
namespace Graphwright.Naming

open Graphwright.Document

/-! ## Characters -/

theorem ascii_of_isNameRest {c : Char} (h : isNameRest c) : c.toNat < 128 := by
  change (c.isUpper || c.isLower || c.isDigit || c == '_') = true at h
  simp only [Bool.or_eq_true, beq_iff_eq, isUpper_iff, isLower_iff, Char.isDigit_iff_toNat] at h
  have hnine : '9'.toNat = 57 := rfl
  have hunderscore : '_'.toNat = 95 := rfl
  rcases h with ((h | h) | h) | rfl <;> omega

/-- Characters that continue the names of a document. -/
def IsNameText (cs : List Char) : Prop := ∀ c ∈ cs, isNameRest c

instance (cs : List Char) : Decidable (IsNameText cs) := List.decidableBAll (isNameRest ·) cs

theorem IsNameText.isAscii {cs : List Char} (h : IsNameText cs) : IsAscii cs :=
  fun c hc => ascii_of_isNameRest (h c hc)

theorem isNameText_append {cs ds : List Char} :
    IsNameText (cs ++ ds) ↔ IsNameText cs ∧ IsNameText ds :=
  List.forall_mem_append

theorem IsNameText.not_mem {cs : List Char} (h : IsNameText cs) {c : Char}
    (hc : isNameRest c = false) : c ∉ cs :=
  fun hmem => by simp [h c hmem] at hc

theorem isNameText_of_isName {name : String} (h : IsName name) : IsNameText name.toList := by
  obtain ⟨c, cs, hname, hc, hcs⟩ := h
  rw [hname]
  exact List.forall_mem_cons.mpr ⟨isNameRest_of_isNameStart hc, hcs⟩

/-- A property of all characters that continue names, checked one by one. -/
theorem forall_isNameRest {P : Char → Prop}
    (hall : ∀ n < 128, isNameRest (Char.ofNat n) → P (Char.ofNat n)) {c : Char}
    (h : isNameRest c) : P c :=
  forall_ascii (P := fun c => isNameRest c → P c) hall (ascii_of_isNameRest h) h

/-- What a character of a name is in an identifier, and in the other case. -/
structure FitsIdentifiers (c : Char) : Prop where
  word : Text.isWord c
  digit : Text.isDigit c = c.isDigit
  rest : Text.isIdentRest c
  start : Text.isIdentStart c = !c.isDigit
  lower : isNameRest c.toLower ∧ c.toLower.isDigit = c.isDigit
  upper : isNameRest c.toUpper ∧ c.toUpper.isDigit = c.isDigit

theorem fitsIdentifiers {c : Char} (h : isNameRest c) : FitsIdentifiers c where
  word := forall_isNameRest (P := fun c => Text.isWord c) (by decide) h
  digit := forall_isNameRest (P := fun c => Text.isDigit c = c.isDigit) (by decide) h
  rest := forall_isNameRest (P := fun c => Text.isIdentRest c) (by decide) h
  start := forall_isNameRest (P := fun c => Text.isIdentStart c = !c.isDigit) (by decide) h
  lower := forall_isNameRest (P := fun c => isNameRest c.toLower ∧ c.toLower.isDigit = c.isDigit)
    (by decide) h
  upper := forall_isNameRest (P := fun c => isNameRest c.toUpper ∧ c.toUpper.isDigit = c.isDigit)
    (by decide) h

theorem isNameRest_of_toLower {c : Char} (h : isNameRest c.toLower) : isNameRest c := by
  by_cases hascii : c.toNat < 128
  · exact forall_ascii (P := fun c => isNameRest c.toLower → isNameRest c) (by decide) hascii h
  · have hsame : c.toLower = c :=
      dif_neg fun hupper => hascii (Nat.lt_of_le_of_lt hupper.2 (by decide))
    rwa [hsame] at h

/-- Text of name characters is an identifier unless it is empty or begins with a digit. -/
theorem isIdentifier_iff {cs : List Char} (h : IsNameText cs) :
    Text.isIdentifier cs ↔ cs ≠ [] ∧ ¬ cs.head?.any Char.isDigit := by
  cases cs with
  | nil => simp [Text.isIdentifier]
  | cons c rest =>
    obtain ⟨hc, hrest⟩ := List.forall_mem_cons.mp h
    have hall : rest.all Text.isIdentRest :=
      List.all_eq_true.mpr fun d hd => (fitsIdentifiers (hrest d hd)).rest
    simp [Text.isIdentifier, (fitsIdentifiers hc).start, hall]

/-! ## Pascal case -/

theorem isNameText_pascalChars {cs : List Char} (h : IsNameText cs) :
    IsNameText (pascalChars cs) := by
  intro c hc
  have hlower := List.mem_map_of_mem (f := Char.toLower) hc
  rw [map_toLower_pascalChars h.isAscii] at hlower
  obtain ⟨d, hd, heq⟩ := List.mem_map.mp hlower
  have hd : isNameRest d.toLower := (fitsIdentifiers (h d (List.mem_filter.mp hd).1)).lower.1
  exact isNameRest_of_toLower (heq ▸ hd)

theorem isNameText_pascalCase {name : String} (h : IsName name) :
    IsNameText (pascalCase name).toList := by
  rw [pascalCase, Text.onChars, String.toList_ofList]
  exact isNameText_pascalChars (isNameText_of_isName h)

theorem any_isDigit_map {f : Char → Char} {c? : Option Char}
    (h : ∀ c ∈ c?, (f c).isDigit = c.isDigit) :
    (c?.map f).any Char.isDigit = c?.any Char.isDigit := by
  cases c? with
  | none => rfl
  | some c => exact h c rfl

/-- Pascal case begins with the first character that is no underscore. -/
theorem head?_pascalChars {cs : List Char} (h : IsNameText cs) :
    (pascalChars cs).head?.any Char.isDigit = (cs.find? (· ≠ '_')).any Char.isDigit := by
  have hlower : ∀ c : Char, isNameRest c → c.toLower.isDigit = c.isDigit :=
    fun c hc => (fitsIdentifiers hc).lower.2
  have hpascal := isNameText_pascalChars h
  have heads := congrArg List.head? (map_toLower_pascalChars h.isAscii)
  rw [letters, List.head?_map, List.head?_map, List.head?_filter] at heads
  rw [← any_isDigit_map fun c hc => hlower c (hpascal c (List.mem_of_head? hc)), heads,
    any_isDigit_map fun c hc => hlower c (h c (List.mem_of_find?_eq_some hc))]

/-! ## Upper case -/

theorem head?_breakWords (cs : List Char) : (breakWords cs).head? = cs.head? := by
  fun_cases breakWords cs <;> rfl

theorem head?_breakCapitals (cs : List Char) : (breakCapitals cs).head? = cs.head? := by
  fun_cases breakCapitals cs <;> rfl

theorem upperChars_spec {cs : List Char} (h : IsNameText cs) :
    IsNameText (upperChars cs) ∧
      (upperChars cs).head?.any Char.isDigit = cs.head?.any Char.isDigit := by
  have hbroken : IsNameText (breakCapitals (breakWords cs)) :=
    forall_of_filter (by decide) h ((filter_breakCapitals _).trans (filter_breakWords cs))
  have hlower := fun c hc => (fitsIdentifiers (hbroken c hc)).lower
  have hsnake : IsNameText (snakeChars cs) ∧
      (snakeChars cs).head?.any Char.isDigit = cs.head?.any Char.isDigit := by
    rw [snakeChars, Text.lower, lowerFrom_ascii hbroken.isAscii, List.head?_map,
      any_isDigit_map fun c hc => (hlower c (List.mem_of_head? hc)).2, head?_breakCapitals,
      head?_breakWords]
    exact ⟨List.forall_mem_map.mpr fun c hc => (hlower c hc).1, rfl⟩
  have hupper := fun c hc => (fitsIdentifiers (hsnake.1 c hc)).upper
  have hmap : upperChars cs = (snakeChars cs).map Char.toUpper := by
    rw [upperChars, Text.upper, List.flatMap_congr fun c hc =>
      show Text.upperChar c = [c.toUpper] from if_pos (hsnake.1.isAscii c hc)]
    exact List.map_eq_flatMap.symm
  rw [hmap, List.head?_map, any_isDigit_map fun c hc => (hupper c (List.mem_of_head? hc)).2]
  exact ⟨List.forall_mem_map.mpr fun c hc => (hupper c hc).1, hsnake.2⟩

/-! ## Generated names -/

/-- The first character of a name that is no underscore is a digit. -/
def OpensWithDigit (name : String) : Prop := (name.toList.find? (· ≠ '_')).any Char.isDigit

instance (name : String) : Decidable (OpensWithDigit name) :=
  inferInstanceAs (Decidable ((name.toList.find? (· ≠ '_')).any Char.isDigit = true))

theorem any_head?_append {cs ds : List Char} (h : ¬ ds.head?.any Char.isDigit) :
    (cs ++ ds).head?.any Char.isDigit = cs.head?.any Char.isDigit := by
  cases cs with
  | nil => simpa using h
  | cons => rfl

theorem isSafeIdentifier_iff {name : String} :
    isSafeIdentifier name ↔ Text.isIdentifier name.toList ∧ name ∉ keywords := by
  rw [isSafeIdentifier, Bool.and_eq_true, decide_eq_true_iff]

/-- What the words at the end of generated names have in common. -/
theorem word_spec : ∀ w ∈ "_DOCUMENT" :: OperationTypes.Role.all.map OperationTypes.Role.word,
    w ≠ "" ∧ IsNameText w.toList ∧ ¬ w.toList.head?.any Char.isDigit ∧
    ∀ k ∈ keywords, ¬ w.toList <:+ k.toList := by
  decide +kernel

theorem role_word_spec (r : OperationTypes.Role) :
    r.word ≠ "" ∧ IsNameText r.word.toList ∧ ¬ r.word.toList.head?.any Char.isDigit ∧
      ∀ k ∈ keywords, ¬ r.word.toList <:+ k.toList :=
  word_spec _ (List.mem_cons_of_mem _ (List.mem_map_of_mem r.mem_all))

/-- The types of definitions: Pascal case with a word behind it, which may be the end of that
already. -/
theorem isSafeIdentifier_typeName {name n : String} (h : IsName name) (r : OperationTypes.Role)
    (hsuffix : r.word.toList <:+ n.toList)
    (hn : n.toList = pascalChars name.toList ∨
      n.toList = pascalChars name.toList ++ r.word.toList) :
    n ≠ "" ∧ n ∉ keywords ∧ (isSafeIdentifier n ↔ ¬ OpensWithDigit name) := by
  obtain ⟨hne, hword, hhead, hkeywords⟩ := role_word_spec r
  have hname := isNameText_of_isName h
  have hpascal := isNameText_pascalChars hname
  have hempty : n ≠ "" := by
    rintro rfl
    exact hne (String.toList_inj.mp (List.suffix_nil.mp hsuffix))
  have hkeyword : n ∉ keywords := fun hmem => hkeywords n hmem hsuffix
  have hopens :
      n.toList.head?.any Char.isDigit = (name.toList.find? (· ≠ '_')).any Char.isDigit := by
    rcases hn with hn | hn <;> rw [hn]
    · exact head?_pascalChars hname
    · rw [any_head?_append hhead, head?_pascalChars hname]
  have htext : IsNameText n.toList := by
    rcases hn with hn | hn <;> rw [hn]
    · exact hpascal
    · exact isNameText_append.mpr ⟨hpascal, hword⟩
  refine ⟨hempty, hkeyword, ?_⟩
  rw [isSafeIdentifier_iff, isIdentifier_iff htext, hopens, OpensWithDigit]
  have hchars : n.toList ≠ [] := fun hnil => hempty (String.toList_inj.mp hnil)
  tauto

/-- A name of a document is not empty and begins with no digit. -/
theorem begins_of_isName {name : String} (h : IsName name) :
    ∃ c cs, name.toList = c :: cs ∧ c.isDigit = false := by
  obtain ⟨c, cs, hname, hc, -⟩ := h
  refine ⟨c, cs, hname, Bool.eq_false_iff.mpr fun hdigit => ?_⟩
  simp [not_isNameStart_of_isDigit hdigit] at hc

theorem isSafeIdentifier_escaped {words : List String} (hwords : Escapable words)
    (hsub : keywords ⊆ words) {name : String} (h : IsName name) :
    isSafeIdentifier (escaped words name) := by
  refine isSafeIdentifier_iff.mpr ⟨?_, fun hmem => escaped_not_mem hwords name (hsub hmem)⟩
  have htext := isNameText_of_isName h
  obtain ⟨c, cs, hname, hc⟩ := begins_of_isName h
  by_cases hw : name ∈ words
  · rw [escaped_of_mem hw, String.toList_append]
    exact (isIdentifier_iff (isNameText_append.mpr ⟨htext, by decide⟩)).mpr (by simp [hname, hc])
  · rw [escaped_of_not_mem hw]
    exact (isIdentifier_iff htext).mpr (by simp [hname, hc])

theorem wordChars_of_isName {name : String} (h : IsName name) :
    wordChars name.toList = name.toList := by
  have hfits : ∀ c ∈ name.toList, FitsIdentifiers c :=
    fun c hc => fitsIdentifiers (isNameText_of_isName h c hc)
  have hclean : name.toList.map (fun c => if Text.isWord c then c else '_') = name.toList :=
    (List.map_congr_left fun c hc => if_pos (hfits c hc).word).trans (List.map_id _)
  obtain ⟨c, cs, hname, hc⟩ := begins_of_isName h
  have hdigit : Text.isDigit c = false := (hfits c (by simp [hname])).digit.trans hc
  rw [wordChars, hclean, hname]
  simp [hdigit]

theorem className_eq {name : String} (h : IsName name) :
    className name = escaped classWords name := by
  have hclean : Text.onChars wordChars name = name := by
    rw [Text.onChars, wordChars_of_isName h, String.ofList_toList]
  rw [className, hclean, safeIdentifier, escaped, classWords]
  by_cases himported : name ∈ importedNames <;> simp [himported]

/-- **Identifiers.** The types of an operation and of a fragment have names that are neither empty
nor keywords, and identifiers exactly if the first character of the definition's name that is no
underscore is no digit. The names of classes and the constants of documents are always identifiers
and no keywords. -/
theorem isSafeIdentifier_generated {name : String} (h : IsName name) :
    (∀ (kind : OperationKind) (dedupe : Bool),
      operationTypeName name kind.keyword dedupe ≠ "" ∧
      operationTypeName name kind.keyword dedupe ∉ keywords ∧
        (isSafeIdentifier (operationTypeName name kind.keyword dedupe) ↔ ¬ OpensWithDigit name)) ∧
    (fragmentTypeName name ≠ "" ∧ fragmentTypeName name ∉ keywords ∧
      (isSafeIdentifier (fragmentTypeName name) ↔ ¬ OpensWithDigit name)) ∧
    isSafeIdentifier (className name) ∧ isSafeIdentifier (documentConstant name) := by
  have hpascal : (pascalCase name).toList = pascalChars name.toList := String.toList_ofList
  refine ⟨fun kind dedupe => ?_, ?_, ?_, ?_⟩
  · refine isSafeIdentifier_typeName h (.result kind) ?_ ?_
    · have hstem := OperationTypes.resultName_eq dedupe name kind
      rw [OperationTypes.resultName] at hstem
      rw [hstem, String.toList_append]
      exact List.suffix_append _ _
    · rw [operationTypeName]
      split
      · exact .inl hpascal
      · rw [String.toList_append, hpascal]
        exact .inr rfl
  · have hchars : (fragmentTypeName name).toList =
        pascalChars name.toList ++ OperationTypes.Role.fragment.word.toList := by
      rw [fragmentTypeName, String.toList_append, hpascal]
      rfl
    exact isSafeIdentifier_typeName h .fragment (hchars ▸ List.suffix_append _ _) (.inr hchars)
  · rw [className_eq h]
    exact isSafeIdentifier_escaped escapable_classWords (List.subset_append_right _ _) h
  · obtain ⟨-, hword, hhead, hkeywords⟩ := word_spec "_DOCUMENT" List.mem_cons_self
    have htext := isNameText_of_isName h
    obtain ⟨hupper, hfirst⟩ := upperChars_spec htext
    have hchars :
        (documentConstant name).toList = upperChars name.toList ++ "_DOCUMENT".toList := by
      rw [documentConstant, String.toList_append, upperCase, Text.onChars, String.toList_ofList]
    refine isSafeIdentifier_iff.mpr
      ⟨?_, fun hmem => hkeywords _ hmem (hchars ▸ List.suffix_append _ _)⟩
    rw [hchars]
    refine (isIdentifier_iff (isNameText_append.mpr ⟨hupper, hword⟩)).mpr ⟨by simp, ?_⟩
    rw [any_head?_append hhead, hfirst]
    obtain ⟨c, cs, hname, hc⟩ := begins_of_isName h
    simp [hname, hc]

theorem isSafeIdentifier_generated_underscored :
    isSafeIdentifier (operationTypeName "__getUser2" "query" false) ∧
    isSafeIdentifier (fragmentTypeName "_user") ∧
      isSafeIdentifier (className "None") ∧ isSafeIdentifier (documentConstant "_1") := by
  refine ⟨?_, ?_, ?_, ?_⟩
  · exact (((isSafeIdentifier_generated (by decide)).1 .query false).2.2.mpr (by decide))
  · exact (isSafeIdentifier_generated (by decide)).2.1.2.2.mpr (by decide)
  · exact (isSafeIdentifier_generated (by decide)).2.2.1
  · exact (isSafeIdentifier_generated (by decide)).2.2.2

/-- The types of an operation and a fragment that begin with an underscore and a digit begin with
the digit. -/
theorem typeName_opens_with_digit :
    IsName "_1" ∧ operationTypeName "_1" "query" false = "1Query" ∧
    fragmentTypeName "_1" = "1Fragment" ∧
      ¬ Text.isIdentifier "1Query".toList ∧ ¬ Text.isIdentifier "1Fragment".toList := by
  decide +kernel

end Graphwright.Naming
