import Graphwright.Grammar.Literal
import Graphwright.Module.Docstring

/-!
# Texts between triple quotes

A module that holds a text between triple quotes is read back by the grammar of modules: the literal
ends at the first three quotes that no backslash protects, and its escapes are replaced by what they
stand for. `readTripleQuoted` is that reading.

* `literalBody_escapeQuotes`: no quotes of an escaped text end the literal, and no backslash is left
  open.
* `valueFrom_escapeQuotes`: the escapes of an escaped text stand for the text.
* `readTripleQuoted_append`: so the literal is read to its end and not beyond, and gives the text
  back, on lines of its own and with a blank behind a final quote.
-/
namespace Graphwright.Module

open Grammar

/-- The text that a literal in triple quotes at the beginning of a module stands for, and what
follows the literal. Line ends of all kinds are read as line feeds; no module holds the null
character. -/
def readTripleQuoted (cs : List Char) : Option (List Char × List Char) :=
  if '\x00' ∈ cs then none
  else
    match Text.unifyLineEnds cs with
    | '"' :: '"' :: '"' :: inside =>
      match literalBody '"' true [] inside with
      | some (body, rest) => (literalValue? body).map (·, rest)
      | none => none
    | _ => none

/-! ## Where the literal ends -/

theorem mem_escapeQuotes {c : Char} {cs : List Char} (h : c ∈ escapeQuotes cs) :
    c = '\\' ∨ c ∈ cs := by
  fun_induction escapeQuotes cs with
  | case1 rest ih => grind
  | case2 rest ih => grind
  | case3 d rest _ _ ih => grind
  | case4 => cases h

theorem getLast?_escapeQuotes (cs : List Char) : (escapeQuotes cs).getLast? = cs.getLast? := by
  fun_induction escapeQuotes cs with
  | case1 rest ih => simp [List.getLast?_cons, ih]
  | case2 rest ih => simp [List.getLast?_cons, ih]
  | case3 c rest _ _ ih => simp [List.getLast?_cons, ih]
  | case4 => rfl

/-- An escaped text begins with a quote only if the text does, and then the rest is escaped by
itself. -/
theorem exists_of_head?_escapeQuotes (cs more : List Char) {x : Char} (hx : x ≠ '"') :
    (escapeQuotes cs ++ x :: more).head? = some '"' →
      ∃ rest, cs = '"' :: rest ∧ escapeQuotes cs = '"' :: escapeQuotes rest := by
  fun_cases escapeQuotes cs with
  | case1 rest => nofun
  | case2 rest => nofun
  | case3 c rest =>
    intro h
    obtain rfl : c = '"' := Option.some.inj h
    exact ⟨rest, rfl, rfl⟩
  | case4 =>
    intro h
    exact absurd (Option.some.inj h) hx

/-- **Scan.** Reading on through an escaped text does not end the literal. -/
theorem literalBody_escapeQuotes (cs acc : List Char) {x : Char} (more : List Char) (hx : x ≠ '"') :
    literalBody '"' true acc (escapeQuotes cs ++ x :: more) =
      literalBody '"' true ((escapeQuotes cs).reverse ++ acc) (x :: more) := by
  fun_induction escapeQuotes cs generalizing acc with
  | case1 rest ih => simp [literalBody, ih]
  | case2 rest ih => simp [literalBody, ih]
  | case3 c rest hquotes hslash ih =>
    have hopen : c = '"' → (escapeQuotes rest ++ x :: more).take 2 ≠ ['"', '"'] := by
      intro hc htake
      obtain ⟨rest, rfl, hrest⟩ := exists_of_head?_escapeQuotes rest more hx
        (by simpa [List.head?_take] using congrArg List.head? htake)
      rw [hrest, List.cons_append, List.take_succ_cons, List.cons.injEq] at htake
      obtain ⟨rest, rfl, -⟩ := exists_of_head?_escapeQuotes rest more hx
        (by simpa [List.head?_take] using congrArg List.head? htake.2)
      exact hquotes rest hc rfl
    have hstep : literalBody '"' true acc (c :: (escapeQuotes rest ++ x :: more)) =
        literalBody '"' true (c :: acc) (escapeQuotes rest ++ x :: more) := by
      rw [literalBody]
      · by_cases hc : c = '"'
        · simp [hc, hopen hc]
        · simp [hc]
      · intro c' rest' h
        exact fun _ => hslash h
    simp [hstep, ih]
  | case4 => rfl

/-- **Value.** Reading the escapes of an escaped text gives the text. -/
theorem valueFrom_escapeQuotes (cs acc more : List Char) (fuel : Nat)
    (hfuel : (escapeQuotes cs ++ more).length ≤ fuel) :
    ∃ fuel', more.length ≤ fuel' ∧
      valueFrom false fuel acc (escapeQuotes cs ++ more) =
        valueFrom false fuel' (cs.reverse ++ acc) more := by
  fun_induction escapeQuotes cs generalizing acc fuel with
  | case1 rest ih =>
    obtain ⟨fuel, rfl⟩ := Nat.exists_eq_add_of_le' (show 3 ≤ fuel by simp at hfuel; omega)
    obtain ⟨fuel', hmore, h⟩ := ih ('"' :: '"' :: '"' :: acc) fuel (by simp at hfuel ⊢; omega)
    exact ⟨fuel', hmore, by simpa [valueFrom, escapeValue?] using h⟩
  | case2 rest ih =>
    obtain ⟨fuel, rfl⟩ := Nat.exists_eq_add_of_le' (show 1 ≤ fuel by simp at hfuel; omega)
    obtain ⟨fuel', hmore, h⟩ := ih ('\\' :: acc) fuel (by simp at hfuel ⊢; omega)
    exact ⟨fuel', hmore, by simpa [valueFrom, escapeValue?] using h⟩
  | case3 c rest _ hslash ih =>
    obtain ⟨fuel, rfl⟩ := Nat.exists_eq_add_of_le' (show 1 ≤ fuel by simp at hfuel; omega)
    obtain ⟨fuel', hmore, h⟩ := ih (c :: acc) fuel (by simp at hfuel ⊢; omega)
    refine ⟨fuel', hmore, ?_⟩
    simpa [valueFrom] using h
  | case4 => exact ⟨fuel, hfuel, rfl⟩

/-! ## Reading back -/

/-- The blank behind a final quote. -/
def guardOf (cs : List Char) : List Char := if cs.getLast? = some '"' then [' '] else []

theorem escapeChars_eq (cs : List Char) : escapeChars cs = escapeQuotes cs ++ guardOf cs := by
  unfold escapeChars guardOf
  simp only [getLast?_escapeQuotes]
  split
  · rfl
  · rw [List.append_nil]

/-- What stands between the quotes is the escaped text on lines of its own, and no more. -/
theorem literalBody_lines (cs rest : List Char) :
    literalBody '"' true [] ('\n' :: (escapeChars cs ++ '\n' :: '"' :: '"' :: '"' :: rest)) =
      some ('\n' :: escapeChars cs ++ ['\n'], rest) := by
  have hstart : ∀ more, literalBody '"' true [] ('\n' :: more) = literalBody '"' true ['\n'] more :=
    fun more => by rw [literalBody] <;> simp
  rw [hstart, escapeChars_eq, List.append_assoc]
  unfold guardOf
  split
  · rw [List.singleton_append, literalBody_escapeQuotes _ _ _ (by decide)]
    simp [literalBody]
  · rw [List.nil_append, literalBody_escapeQuotes _ _ _ (by decide)]
    simp [literalBody]

/-- The escapes between the quotes stand for the text on lines of its own. -/
theorem literalValue?_lines (cs : List Char) :
    literalValue? ('\n' :: escapeChars cs ++ ['\n']) =
      some ('\n' :: cs ++ guardOf cs ++ ['\n']) := by
  rw [escapeChars_eq, List.cons_append, List.append_assoc, literalValue?, List.length_cons,
    valueFrom]
  · obtain ⟨fuel, hfuel, h⟩ :=
      valueFrom_escapeQuotes cs ['\n'] (guardOf cs ++ ['\n']) _ (Nat.le_refl _)
    rw [h]
    unfold guardOf at hfuel ⊢
    split at hfuel
    · rename_i hguard
      rw [if_pos hguard]
      obtain ⟨fuel, rfl⟩ := Nat.exists_eq_add_of_le' (show 2 ≤ fuel from hfuel)
      simp [valueFrom]
    · rename_i hguard
      rw [if_neg hguard]
      obtain ⟨fuel, rfl⟩ := Nat.exists_eq_add_of_le' (show 1 ≤ fuel from hfuel)
      simp [valueFrom]
  · nofun

theorem toList_tripleQuoted (t : String) :
    (tripleQuoted t).toList =
      '"' :: '"' :: '"' :: '\n' :: (escapeChars t.toList ++ ['\n', '"', '"', '"']) := by
  simp [tripleQuoted, escape, Text.onChars]

theorem unifyLineEnds_append {cs : List Char} (h : '\r' ∉ cs) (rest : List Char) :
    Text.unifyLineEnds (cs ++ rest) = cs ++ Text.unifyLineEnds rest := by
  induction cs with
  | nil => rfl
  | cons c cs ih =>
    have hc : c ≠ '\r' := fun hc => h (hc ▸ List.mem_cons_self)
    rw [List.cons_append, Text.unifyLineEnds, ih fun hcs => h (List.mem_cons_of_mem _ hcs)]
    · rfl
    · exact fun _ h _ => hc h
    · exact fun h => hc h

theorem mem_tripleQuoted {c : Char} {t : String} (h : c ∈ (tripleQuoted t).toList) :
    c ∈ ['"', '\n', '\\', ' '] ∨ c ∈ t.toList := by
  rw [toList_tripleQuoted, escapeChars_eq] at h
  have hguard : c ∈ guardOf t.toList → c = ' ' := by
    unfold guardOf
    split
    · exact List.mem_singleton.mp
    · nofun
  have hquotes := @mem_escapeQuotes c t.toList
  simp only [List.mem_cons, List.mem_append, List.not_mem_nil, or_false] at h ⊢
  grind

/-- **Reading back.** A text without carriage returns and null characters, put between triple
quotes, is read as that text on lines of its own, with a blank behind it if it ends in a quote. What
follows the literal is left. -/
theorem readTripleQuoted_append {t : String} {rest : List Char} (hr : '\r' ∉ t.toList)
    (h0 : '\x00' ∉ t.toList) (hrest : '\x00' ∉ rest) :
    readTripleQuoted ((tripleQuoted t).toList ++ rest) =
      some ('\n' :: t.toList ++ guardOf t.toList ++ ['\n'], Text.unifyLineEnds rest) := by
  have hnull : '\x00' ∉ (tripleQuoted t).toList ++ rest := by
    rw [List.mem_append, not_or]
    exact ⟨fun h => (mem_tripleQuoted h).elim (by decide) h0, hrest⟩
  have hreturn : '\r' ∉ (tripleQuoted t).toList := fun h => (mem_tripleQuoted h).elim (by decide) hr
  rw [readTripleQuoted, if_neg hnull, unifyLineEnds_append hreturn, toList_tripleQuoted]
  simp only [List.cons_append, List.append_assoc, List.nil_append]
  rw [literalBody_lines]
  simp only [literalValue?_lines, Option.map_some]
  simp only [List.cons_append, List.append_assoc]

end Graphwright.Module
