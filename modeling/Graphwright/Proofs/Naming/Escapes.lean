import Graphwright.Naming.Identifier
import Mathlib.Data.List.Nodup

/-!
# Escaped names

A name that is one of the words to avoid takes an underscore at its end (`escaped`), keywords for
members and parameters, keywords and imported names for classes. No escaped word is a word again, so
two names become one only if the one is a word and the other is that word with the underscore
already at its end (`escaped_eq_iff`). Whether a scope keeps its names apart is therefore a question
about the names that stand in it (`Clashing`), also when names of its own stand beside the escaped
ones (`Scope.nodup_identifiers_iff`).
-/
namespace Graphwright.Naming

/-- A name that is none of the words; a word takes an underscore at its end. -/
def escaped (words : List String) (name : String) : String :=
  if name ∈ words then name ++ "_" else name

theorem safeIdentifier_eq : safeIdentifier = escaped keywords := rfl

/-- The words that no class may have for its name. -/
def classWords : List String := importedNames ++ keywords

/-- No word with an underscore at its end is a word. -/
def Escapable (words : List String) : Prop := ∀ w ∈ words, w ++ "_" ∉ words

theorem escapable_keywords : Escapable keywords := by
  unfold Escapable
  decide

theorem escapable_classWords : Escapable classWords := by
  unfold Escapable
  decide

/-- One of the words stands among the names with its underscore and without. -/
def Clashing (words names : List String) : Prop := ∃ w ∈ words, w ∈ names ∧ w ++ "_" ∈ names

instance (words names : List String) : Decidable (Clashing words names) :=
  inferInstanceAs (Decidable (∃ w ∈ words, w ∈ names ∧ w ++ "_" ∈ names))

section Escaping

variable {words : List String}

theorem escaped_of_mem {name : String} (h : name ∈ words) :
    escaped words name = name ++ "_" := if_pos h

theorem escaped_of_not_mem {name : String} (h : name ∉ words) :
    escaped words name = name := if_neg h

theorem escaped_not_mem (hwords : Escapable words) (name : String) :
    escaped words name ∉ words := by
  by_cases h : name ∈ words
  · rw [escaped_of_mem h]
    exact hwords name h
  · rwa [escaped_of_not_mem h]

/-- Names that are escaped alike are the same, but for the underscore of a word. -/
theorem escaped_eq_iff (hwords : Escapable words) {a b : String} :
    escaped words a = escaped words b ↔
      a = b ∨ a ∈ words ∧ b = a ++ "_" ∨ b ∈ words ∧ a = b ++ "_" := by
  by_cases ha : a ∈ words <;> by_cases hb : b ∈ words
  · rw [escaped_of_mem ha, escaped_of_mem hb, String.append_left_inj]
    refine ⟨.inl, ?_⟩
    rintro (h | ⟨-, rfl⟩ | ⟨-, rfl⟩)
    · exact h
    · exact absurd hb (hwords a ha)
    · exact absurd ha (hwords b hb)
  · rw [escaped_of_mem ha, escaped_of_not_mem hb]
    refine ⟨fun h => .inr (.inl ⟨ha, h.symm⟩), ?_⟩
    rintro (rfl | ⟨-, rfl⟩ | ⟨h, -⟩)
    · exact absurd ha hb
    · rfl
    · exact absurd h hb
  · rw [escaped_of_not_mem ha, escaped_of_mem hb]
    refine ⟨fun h => .inr (.inr ⟨hb, h⟩), ?_⟩
    rintro (rfl | ⟨h, -⟩ | ⟨-, rfl⟩)
    · exact absurd hb ha
    · exact absurd h ha
    · rfl
  · rw [escaped_of_not_mem ha, escaped_of_not_mem hb]
    refine ⟨.inl, ?_⟩
    rintro (h | ⟨h, -⟩ | ⟨h, -⟩)
    · exact h
    · exact absurd h ha
    · exact absurd h hb

/-- Different names stay different unless a word meets its own escape among them. -/
theorem nodup_map_escaped_iff (hwords : Escapable words) {names : List String}
    (hnames : names.Nodup) : (names.map (escaped words)).Nodup ↔ ¬ Clashing words names := by
  rw [List.nodup_map_iff_inj_on hnames]
  constructor
  · rintro h ⟨w, hw, hmem, hmem'⟩
    have hsame := h w hmem (w ++ "_") hmem' ((escaped_eq_iff hwords).mpr (.inr (.inl ⟨hw, rfl⟩)))
    exact hwords w hw (hsame ▸ hw)
  · intro h a ha b hb heq
    rcases (escaped_eq_iff hwords).mp heq with rfl | ⟨hw, rfl⟩ | ⟨hw, rfl⟩
    · rfl
    · exact absurd ⟨a, hw, ha, hb⟩ h
    · exact absurd ⟨b, hw, hb, ha⟩ h

/-- A name that is neither a word nor the escape of one. -/
def Unescaped (words : List String) (name : String) : Prop :=
  name ∉ words ∧ ∀ w ∈ words, name ≠ w ++ "_"

instance (words : List String) (name : String) : Decidable (Unescaped words name) :=
  inferInstanceAs (Decidable (name ∉ words ∧ ∀ w ∈ words, name ≠ w ++ "_"))

theorem Unescaped.mem_map_escaped_iff {name : String} (h : Unescaped words name)
    {names : List String} : name ∈ names.map (escaped words) ↔ name ∈ names := by
  constructor
  · intro hmem
    obtain ⟨a, ha, heq⟩ := List.mem_map.mp hmem
    by_cases hw : a ∈ words
    · rw [escaped_of_mem hw] at heq
      exact absurd heq.symm (h.2 a hw)
    · rw [escaped_of_not_mem hw] at heq
      exact heq ▸ ha
  · exact fun hmem => List.mem_map.mpr ⟨name, hmem, escaped_of_not_mem h.1⟩

end Escaping

/-! ## Scopes -/

/-- Names that stand side by side in a module: some of the scope's own, and others that keep clear
of words. -/
structure Scope where
  own : List String := []
  words : List String
  names : List String

namespace Scope

/-- The identifiers of a scope: its own, and its names escaped. -/
def identifiers (sc : Scope) : List String := sc.own ++ sc.names.map (escaped sc.words)

/-- No word meets its own escape, and no name is one of the scope's own. -/
def IsClear (sc : Scope) : Prop := ¬ Clashing sc.words sc.names ∧ ∀ n ∈ sc.own, n ∉ sc.names

instance (sc : Scope) : Decidable sc.IsClear :=
  inferInstanceAs (Decidable (¬ Clashing sc.words sc.names ∧ ∀ n ∈ sc.own, n ∉ sc.names))

/-- A scope of different names, whose own are out of the way of escapes. -/
structure IsProper (sc : Scope) : Prop where
  escapable : Escapable sc.words
  own : sc.own.Nodup
  unescaped : ∀ n ∈ sc.own, Unescaped sc.words n
  names : sc.names.Nodup

/-- Some identifiers are those of a scope, and they are different exactly if the scope is clear. -/
def Settles (sc : Scope) (ids : List String) : Prop :=
  ids.Perm sc.identifiers ∧ (ids.Nodup ↔ sc.IsClear)

variable {sc : Scope}

/-- **Scopes.** The identifiers of a scope are different exactly if no word meets its own escape and
none of the scope's own names is there twice. -/
theorem nodup_identifiers_iff (h : sc.IsProper) : sc.identifiers.Nodup ↔ sc.IsClear := by
  rw [identifiers, List.nodup_append', nodup_map_escaped_iff h.escapable h.names]
  constructor
  · rintro ⟨-, hclash, hdisjoint⟩
    exact ⟨hclash, fun n hn hmem => hdisjoint hn ((h.unescaped n hn).mem_map_escaped_iff.mpr hmem)⟩
  · rintro ⟨hclash, hmissing⟩
    exact ⟨h.own, hclash,
      fun n hn hmem => hmissing n hn ((h.unescaped n hn).mem_map_escaped_iff.mp hmem)⟩

theorem settles_of_perm (h : sc.IsProper) {ids : List String} (hids : ids.Perm sc.identifiers) :
    sc.Settles ids :=
  ⟨hids, hids.nodup_iff.trans (nodup_identifiers_iff h)⟩

end Scope

end Graphwright.Naming
