import Graphwright.Proofs.Module.TripleQuoted
import Graphwright.Proofs.Text.Fields
import Mathlib.Data.List.TakeWhile

/-!
# Documentation is read back

A description is escaped, cut into lines, indented and put between triple quotes. What the literal
stands for is the description itself, laid out on the lines of the module: `hung` says so without
lines, character by character.

* `isSome_docstring?`: a text is documented unless it consists of blanks.
* `hung_escapeQuotes`: it does not matter whether a text is escaped before it is laid out or after.
* `joinWith_hangingLines`: the lines of a text below one another, indented but for the first, are
  the text laid out.
* `readTripleQuoted_escapeQuotes`: an escaped text that does not end in a quote is read back between
  triple quotes.
* `docstring?_reads`: the documentation of a description is one literal behind an indentation, and
  it stands for the description laid out, with a blank behind a final quote, and with its closing
  quotes below if it has several lines.
-/
namespace Graphwright

/-- A text that is not empty, but has nothing to show. -/
def IsBlankText (s : String) : Prop := s ≠ "" ∧ ∀ c ∈ s.toList, Text.isBlank c

namespace Module

open Grammar

/-! ## What is documented -/

theorem linesFrom_ne_nil {acc cs : List Char} (h : acc ≠ [] ∨ cs ≠ []) :
    Text.linesFrom acc cs ≠ [] := by
  fun_induction Text.linesFrom acc cs <;> simp_all

theorem splitLines_eq_nil {cs : List Char} : Text.splitLines cs = [] ↔ cs = [] := by
  constructor
  · intro h
    by_contra hne
    exact linesFrom_ne_nil (.inr hne) h
  · rintro rfl
    rfl

theorem escapeChars_eq_nil {cs : List Char} : escapeChars cs = [] ↔ cs = [] := by
  have hquotes : escapeQuotes cs = [] ↔ cs = [] := by
    rw [← List.getLast?_eq_none_iff, getLast?_escapeQuotes, List.getLast?_eq_none_iff]
  unfold escapeChars
  dsimp only
  split
  · rename_i hlast
    have hne : escapeQuotes cs ≠ [] := fun h => by simp [h] at hlast
    simpa using mt hquotes.mpr hne
  · exact hquotes

theorem trim_eq_nil {cs : List Char} : Text.trim cs = [] ↔ ∀ c ∈ cs, Text.isBlank c := by
  unfold Text.trim Text.trimBy
  simp only [List.reverse_eq_nil_iff, List.dropWhile_eq_nil_iff, List.mem_reverse]
  constructor
  · intro h
    have hcs := List.takeWhile_append_dropWhile (p := Text.isBlank) (l := cs)
    intro c hc
    rw [← hcs] at hc
    rcases List.mem_append.mp hc with hc | hc
    · exact List.mem_takeWhile_imp hc
    · exact h c hc
  · intro h c hc
    exact h c (List.dropWhile_subset _ hc)

/-- **Documentation.** A text can be documented unless it consists of blanks. -/
theorem isSome_docstring? (text? : Option String) (indent : String) :
    (docstring? text? indent).isSome ↔ ∀ s ∈ text?, ¬ IsBlankText s := by
  unfold docstring?
  cases text? with
  | none => simp
  | some s =>
    simp only [Option.mem_some_iff, forall_eq', IsBlankText, not_and]
    by_cases hs : s = ""
    · simp [hs]
    · have hne : s.isEmpty = false := by simpa using hs
      simp only [hne]
      have hlines : Text.splitLines (escapeChars (Text.trim s.toList)) = [] ↔
          ∀ c ∈ s.toList, Text.isBlank c := by
        rw [splitLines_eq_nil, escapeChars_eq_nil, trim_eq_nil]
      rw [← hlines]
      cases Text.splitLines (escapeChars (Text.trim s.toList)) with
      | nil => simp [hs]
      | cons line more => cases more <;> simp

/-! ## Texts laid out -/

/-- What comes before a text at the beginning of a line: nothing if the line is empty. -/
def margin (indent : List Char) : List Char → List Char
  | [] => []
  | c :: _ => if Text.isLineBreak c then [] else indent

/-- A text with line feeds for its line breaks, and an indentation before each line but the first
that is not empty. A carriage return and the line feed after it are one break. -/
def hung (indent : List Char) : List Char → List Char
  | '\r' :: '\n' :: rest => hung indent ('\n' :: rest)
  | c :: rest =>
    if Text.isLineBreak c then '\n' :: (margin indent rest ++ hung indent rest)
    else c :: hung indent rest
  | [] => []

section Hung

variable {indent : List Char}

theorem hung_return (rest : List Char) :
    hung indent ('\r' :: '\n' :: rest) = hung indent ('\n' :: rest) := by
  rw [hung]

theorem hung_cons_of_break {c : Char} {rest : List Char} (hc : Text.isLineBreak c)
    (hreturn : c = '\r' → rest.head? ≠ some '\n') :
    hung indent (c :: rest) = '\n' :: (margin indent rest ++ hung indent rest) := by
  rw [hung, if_pos hc]
  rintro more rfl rfl
  exact hreturn rfl rfl

theorem hung_cons {c : Char} (rest : List Char) (hc : Text.isLineBreak c = false) :
    hung indent (c :: rest) = c :: hung indent rest := by
  rw [hung, if_neg (by simp [hc])]
  rintro more rfl
  exact absurd hc (by decide)

/-- A text of one line is laid out as it is. -/
theorem hung_of_not_break {cs : List Char} (h : ∀ c ∈ cs, Text.isLineBreak c = false) :
    hung indent cs = cs := by
  induction cs with
  | nil => rfl
  | cons c rest ih =>
    obtain ⟨hc, hrest⟩ := List.forall_mem_cons.mp h
    rw [hung_cons rest hc, ih hrest]

/-- Induction along the layout of a text. -/
theorem hung_induction {P : List Char → Prop} (nil : P [])
    (feed : ∀ rest, P ('\n' :: rest) → P ('\r' :: '\n' :: rest))
    (broken : ∀ c rest, Text.isLineBreak c → (c = '\r' → rest.head? ≠ some '\n') → P rest →
      P (c :: rest))
    (plain : ∀ c rest, Text.isLineBreak c = false → P rest → P (c :: rest)) (cs : List Char) :
    P cs := by
  fun_induction hung [] cs with
  | case1 rest ih => exact feed rest ih
  | case2 c rest hreturn hc ih =>
    refine broken c rest hc (fun heq hfeed => ?_) ih
    obtain ⟨more, rfl⟩ := List.head?_eq_some_iff.mp hfeed
    exact hreturn more heq rfl
  | case3 c rest _ hc ih => exact plain c rest (Bool.eq_false_iff.mpr hc) ih
  | case4 => exact nil

/-- The layout consists of line feeds, indentations and characters that are no line breaks. -/
theorem mem_hung {c : Char} {cs : List Char} (h : c ∈ hung indent cs) :
    c = '\n' ∨ c ∈ indent ∨ c ∈ cs ∧ Text.isLineBreak c = false := by
  have hmargin {rest : List Char} (h : c ∈ margin indent rest) : c ∈ indent := by
    cases rest with
    | nil => cases h
    | cons d rest =>
      rw [margin] at h
      split at h
      · cases h
      · exact h
  induction cs using hung_induction with
  | nil => cases h
  | feed rest ih =>
    rw [hung_return] at h
    exact (ih h).imp_right (Or.imp_right (And.imp_left (List.mem_cons_of_mem _)))
  | broken d rest hd hreturn ih =>
    rw [hung_cons_of_break hd hreturn] at h
    grind
  | plain d rest hd ih =>
    rw [hung_cons rest hd] at h
    grind

theorem head?_hung_eq_quote {cs ds : List Char} (h : hung indent cs = '"' :: ds) :
    ∃ rest, cs = '"' :: rest ∧ ds = hung indent rest := by
  induction cs using hung_induction with
  | nil => cases h
  | feed rest ih =>
    rw [hung_return] at h
    exact absurd (ih h) (by simp)
  | broken d rest hd hreturn =>
    rw [hung_cons_of_break hd hreturn] at h
    simp at h
  | plain d rest hd =>
    rw [hung_cons rest hd] at h
    obtain ⟨rfl, rfl⟩ := List.cons.inj h
    exact ⟨rest, rfl, rfl⟩

/-- What a text ends with ends its layout, unless it is a line break. -/
theorem getLast?_hung {cs : List Char} (h : ∀ c ∈ cs.getLast?, Text.isLineBreak c = false) :
    (hung indent cs).getLast? = cs.getLast? := by
  induction cs using hung_induction with
  | nil => rfl
  | feed rest ih => rw [hung_return, ih h, List.getLast?_cons_cons]
  | broken c rest hc hreturn ih =>
    cases rest with
    | nil => exact absurd (h c rfl) (by simp [hc])
    | cons d rest =>
      rw [hung_cons_of_break hc hreturn, ← List.cons_append, List.getLast?_append, ih h]
      simp [List.getLast?_cons]
  | plain c rest hc ih =>
    rw [hung_cons rest hc]
    cases rest with
    | nil => rfl
    | cons d rest => simp [List.getLast?_cons, ih h]

/-- Two texts with no line break between them are laid out one after the other. -/
theorem hung_append {cs : List Char} (h : ∀ c ∈ cs.getLast?, Text.isLineBreak c = false)
    (rest : List Char) : hung indent (cs ++ rest) = hung indent cs ++ hung indent rest := by
  induction cs using hung_induction with
  | nil => rfl
  | feed more ih =>
    rw [List.cons_append, List.cons_append, hung_return, hung_return]
    exact ih h
  | broken c more hc hreturn ih =>
    cases more with
    | nil => exact absurd (h c rfl) (by simp [hc])
    | cons d more =>
      have hfeed : c = '\r' → (d :: more ++ rest).head? ≠ some '\n' := hreturn
      rw [List.cons_append, hung_cons_of_break hc hfeed, hung_cons_of_break hc hreturn, ih h]
      simp [margin]
  | plain c more hc ih =>
    rw [List.cons_append, hung_cons _ hc, hung_cons _ hc,
      ih fun d hd => h d (by cases more <;> simp_all)]
    rfl

end Hung

/-! ## Escapes -/

/-- A character that is no quote stands apart from the runs of quotes before it. -/
theorem escapeQuotes_append (cs : List Char) {c : Char} (more : List Char) (hc : c ≠ '"') :
    escapeQuotes (cs ++ c :: more) = escapeQuotes cs ++ escapeQuotes (c :: more) := by
  fun_induction escapeQuotes cs with
  | case1 rest ih => simp [escapeQuotes, ih]
  | case2 rest ih => simp [escapeQuotes, ih]
  | case3 d rest hquotes hslash ih =>
    rw [List.cons_append, escapeQuotes, ih, List.cons_append]
    · intro more' hd happend
      match rest, happend with
      | [], happend => exact hc (List.cons.inj happend).1
      | [e], happend =>
        obtain ⟨-, hnext⟩ := List.cons.inj happend
        exact hc (List.cons.inj hnext).1
      | e :: f :: rest, happend =>
        obtain ⟨rfl, hnext⟩ := List.cons.inj happend
        obtain ⟨rfl, -⟩ := List.cons.inj hnext
        exact hquotes rest hd rfl
    · exact hslash
  | case4 => rfl

theorem escapeQuotes_plain_append {cs : List Char} (h : ∀ c ∈ cs, c ≠ '"' ∧ c ≠ '\\')
    (more : List Char) : escapeQuotes (cs ++ more) = cs ++ escapeQuotes more := by
  induction cs with
  | nil => rfl
  | cons c rest ih =>
    obtain ⟨⟨hquote, hslash⟩, hrest⟩ := List.forall_mem_cons.mp h
    rw [List.cons_append, escapeQuotes, ih hrest, List.cons_append]
    · exact fun _ hc _ => hquote hc
    · exact hslash

theorem isLineBreak_quote : Text.isLineBreak '"' = false := by decide

theorem isLineBreak_backslash : Text.isLineBreak '\\' = false := by decide

/-- An escaped text begins with a line break, or a certain one, exactly if the text does. -/
theorem margin_escapeQuotes (indent cs : List Char) :
    margin indent (escapeQuotes cs) = margin indent cs := by
  fun_cases escapeQuotes cs <;> simp [margin, isLineBreak_quote, isLineBreak_backslash]

theorem head?_escapeQuotes_eq_feed {cs : List Char} :
    (escapeQuotes cs).head? = some '\n' ↔ cs.head? = some '\n' := by
  fun_cases escapeQuotes cs <;> simp

/-- **Layout.** Escaping a text and laying it out with blanks may be exchanged. -/
theorem hung_escapeQuotes {indent : List Char} (hindent : ∀ c ∈ indent, c = ' ') (cs : List Char) :
    hung indent (escapeQuotes cs) = escapeQuotes (hung indent cs) := by
  have hplain (rest : List Char) : ∀ c ∈ '\n' :: margin indent rest, c ≠ '"' ∧ c ≠ '\\' := by
    refine List.forall_mem_cons.mpr ⟨by decide, fun c hc => ?_⟩
    have hblank : c = ' ' := by
      unfold margin at hc
      split at hc
      · cases hc
      · split at hc
        · cases hc
        · exact hindent c hc
    exact hblank ▸ by decide
  fun_induction escapeQuotes cs with
  | case1 rest ih => simp [hung_cons, isLineBreak_quote, isLineBreak_backslash, escapeQuotes, ih]
  | case2 rest ih => simp [hung_cons, isLineBreak_backslash, escapeQuotes, ih]
  | case3 c rest hquotes hslash ih =>
    cases hc : Text.isLineBreak c with
    | false =>
      rw [hung_cons _ hc, hung_cons _ hc, ih, escapeQuotes]
      · intro more hquote hnext
        obtain ⟨rest', rfl, hmore⟩ := head?_hung_eq_quote hnext
        obtain ⟨rest'', rfl, -⟩ := head?_hung_eq_quote hmore.symm
        exact hquotes rest'' hquote rfl
      · exact hslash
    | true =>
      by_cases hreturn : c = '\r' ∧ rest.head? = some '\n'
      · obtain ⟨rfl, hfeed⟩ := hreturn
        obtain ⟨more, rfl⟩ : ∃ more, rest = '\n' :: more := by cases rest <;> simp_all
        have hmore : escapeQuotes ('\n' :: more) = '\n' :: escapeQuotes more := by
          rw [escapeQuotes] <;> simp
        rw [hmore] at ih ⊢
        rw [hung_return, hung_return, ih]
      · have hreturn : c = '\r' → rest.head? ≠ some '\n' := fun hc hfeed => hreturn ⟨hc, hfeed⟩
        rw [hung_cons_of_break hc hreturn,
          hung_cons_of_break hc fun hc => mt head?_escapeQuotes_eq_feed.mp (hreturn hc),
          margin_escapeQuotes, ih, ← List.cons_append, ← List.cons_append,
          escapeQuotes_plain_append (hplain rest)]
  | case4 => rfl

/-! ## Lines below one another -/

/-- The lines of a text as they stand below one another: each but the first is indented, unless it
is empty. -/
def hangingLines (indent : List Char) : List (List Char) → List (List Char)
  | [] => []
  | first :: more => first :: more.map fun l => if l.isEmpty then [] else indent ++ l

theorem exists_linesFrom_cons {acc : List Char} (cs : List Char) (h : acc ≠ []) :
    ∃ line more, Text.linesFrom acc cs = line :: more ∧ line ≠ [] := by
  fun_induction Text.linesFrom acc cs with
  | case1 acc hempty => exact absurd (List.isEmpty_iff.mp hempty) h
  | case2 acc => exact ⟨_, _, rfl, by simpa using h⟩
  | case3 acc rest => exact ⟨_, _, rfl, by simpa using h⟩
  | case4 acc c rest => exact ⟨_, _, rfl, by simpa using h⟩
  | case5 acc c rest _ _ ih => exact ih (List.cons_ne_nil _ _)

theorem exists_linesFrom_break {c : Char} (rest : List Char) (hc : Text.isLineBreak c) :
    ∃ more, Text.linesFrom [] (c :: rest) = [] :: more := by
  unfold Text.linesFrom
  split
  · contradiction
  · exact ⟨_, rfl⟩
  · rename_i heq
    obtain ⟨rfl, rfl⟩ := List.cons.inj heq
    exact ⟨_, if_pos hc⟩

/-- All lines of a text are indented together if its margin comes before them and its first line
stays. -/
theorem joinWith_map_linesFrom (indent : List Char) {cs : List Char} (h : cs ≠ []) :
    Text.joinWith ['\n'] ((Text.linesFrom [] cs).map fun l => if l.isEmpty then []
      else indent ++ l) =
      margin indent cs ++ Text.joinWith ['\n'] (hangingLines indent (Text.linesFrom [] cs)) := by
  obtain ⟨c, rest, rfl⟩ := List.exists_cons_of_ne_nil h
  rw [margin]
  split
  · rename_i hc
    obtain ⟨more, hmore⟩ := exists_linesFrom_break rest hc
    rw [hmore]
    rfl
  · rename_i hc
    rw [Text.linesFrom, if_neg hc]
    · obtain ⟨line, more, hmore, hline⟩ := exists_linesFrom_cons rest (List.cons_ne_nil c [])
      rw [hmore, List.map_cons, if_neg (by simpa using hline), Text.joinWith_append_cons]
      rfl
    · rintro more rfl
      exact absurd (by decide) hc

/-- **Lines.** The lines of a text that does not end in a line break are the text laid out. -/
theorem joinWith_hangingLines {indent acc cs : List Char}
    (h : ∀ c ∈ cs.getLast?, Text.isLineBreak c = false) :
    Text.joinWith ['\n'] (hangingLines indent (Text.linesFrom acc cs)) =
      acc.reverse ++ hung indent cs := by
  have hbreak {acc rest : List Char} (hrest : rest ≠ [])
      (ih : Text.joinWith ['\n'] (hangingLines indent (Text.linesFrom [] rest)) =
        hung indent rest) :
      Text.joinWith ['\n'] (hangingLines indent (acc.reverse :: Text.linesFrom [] rest)) =
        acc.reverse ++ '\n' :: (margin indent rest ++ hung indent rest) := by
    obtain ⟨line, more, hlines⟩ := List.exists_cons_of_ne_nil (linesFrom_ne_nil (.inr hrest))
    rw [← ih, ← joinWith_map_linesFrom indent hrest, hangingLines, hlines]
    simp [Text.joinWith]
  fun_induction Text.linesFrom acc cs with
  | case1 acc hacc => simp_all [hangingLines, Text.joinWith, hung]
  | case2 acc hacc => simp [hangingLines, Text.joinWith, hung]
  | case3 acc rest ih =>
    cases rest with
    | nil => exact absurd (h '\n' rfl) (by decide)
    | cons d rest =>
      rw [hbreak (List.cons_ne_nil _ _) (ih h), hung_return,
        hung_cons_of_break (c := '\n') (by decide) fun hfeed => absurd hfeed (by decide)]
  | case4 acc c rest hreturn hc ih =>
    cases rest with
    | nil => exact absurd (h c rfl) (by simp [hc])
    | cons d rest =>
      rw [hbreak (List.cons_ne_nil _ _) (ih h), hung_cons_of_break hc]
      rintro rfl hfeed
      exact hreturn rest rfl (by rw [Option.some.inj hfeed])
  | case5 acc c rest _ hc ih =>
    rw [ih fun d hd => h d (by cases rest <;> simp_all), hung_cons _ (by simpa using hc),
      List.reverse_cons, List.append_assoc, List.singleton_append]

/-- A text that does not end in a line break has one line exactly if it has no line break. -/
theorem length_linesFrom_eq_one {acc cs : List Char} (hcs : cs ≠ [])
    (h : ∀ c ∈ cs.getLast?, Text.isLineBreak c = false) :
    (Text.linesFrom acc cs).length = 1 ↔ ∀ c ∈ cs, Text.isLineBreak c = false := by
  have hmore {acc rest : List Char} (hrest : rest ≠ []) :
      (acc :: Text.linesFrom [] rest).length ≠ 1 := by
    simpa using linesFrom_ne_nil (.inr hrest)
  fun_induction Text.linesFrom acc cs with
  | case1 => exact absurd rfl hcs
  | case2 => exact absurd rfl hcs
  | case3 acc rest =>
    cases rest with
    | nil => exact absurd (h '\n' rfl) (by decide)
    | cons d rest =>
      exact iff_of_false (hmore (List.cons_ne_nil _ _)) fun hall =>
        absurd (hall '\n' (by simp)) (by decide)
  | case4 acc c rest _ hc =>
    cases rest with
    | nil => exact absurd (h c rfl) (by simp [hc])
    | cons d rest =>
      exact iff_of_false (hmore (List.cons_ne_nil _ _)) fun hall => by
        simp [hall c List.mem_cons_self] at hc
  | case5 acc c rest _ hc ih =>
    cases rest with
    | nil => simpa [Text.linesFrom] using hc
    | cons d rest =>
      refine (ih (List.cons_ne_nil _ _) h).trans ?_
      rw [List.forall_mem_cons (a := c)]
      simp [hc]

/-! ## Reading -/

/-- An escaped text that does not end in a quote goes up to the closing quotes. -/
theorem literalBody_closed {cs : List Char} (h : cs.getLast? ≠ some '"') (rest : List Char) :
    literalBody '"' true [] (escapeQuotes cs ++ '"' :: '"' :: '"' :: rest) =
      some (escapeQuotes cs, rest) := by
  obtain rfl | ⟨init, c, rfl⟩ := cs.eq_nil_or_concat
  · simp [escapeQuotes, literalBody]
  · have hquote : c ≠ '"' := by simpa using h
    rw [List.concat_eq_append, escapeQuotes_append _ _ hquote, List.append_assoc]
    by_cases hslash : c = '\\'
    · rw [hslash, show escapeQuotes ['\\'] = ['\\', '\\'] from rfl, List.cons_append,
        literalBody_escapeQuotes _ _ _ (by decide)]
      simp [literalBody]
    · have hc : escapeQuotes [c] = [c] := by simp [escapeQuotes]
      rw [hc, List.cons_append, literalBody_escapeQuotes _ _ _ hquote, literalBody]
      · simp [literalBody, hquote]
      · exact fun _ _ h _ => hslash h

theorem literalValue?_escapeQuotes (cs : List Char) :
    literalValue? (escapeQuotes cs) = some cs := by
  obtain ⟨fuel, -, h⟩ := valueFrom_escapeQuotes cs [] [] _ (Nat.le_refl _)
  rw [List.append_nil, List.append_nil] at h
  rw [literalValue?, h, valueFrom, List.reverse_reverse]

/-- **Reading back.** An escaped text without carriage returns and null characters that does not end
in a quote is read between triple quotes as the text, and what follows the quotes is left. -/
theorem readTripleQuoted_escapeQuotes {cs rest : List Char} (h : cs.getLast? ≠ some '"')
    (hr : '\r' ∉ cs) (h0 : '\x00' ∉ cs) (hrest : '\x00' ∉ rest) :
    readTripleQuoted (['"', '"', '"'] ++ escapeQuotes cs ++ ['"', '"', '"'] ++ rest) =
      some (cs, Text.unifyLineEnds rest) := by
  have hnull : '\x00' ∉ ['"', '"', '"'] ++ escapeQuotes cs ++ ['"', '"', '"'] ++ rest := by
    simpa [hrest] using fun hmem => (mem_escapeQuotes hmem).elim (by decide) h0
  have hreturn : '\r' ∉ ['"', '"', '"'] ++ escapeQuotes cs ++ ['"', '"', '"'] := by
    simpa using fun hmem => (mem_escapeQuotes hmem).elim (by decide) hr
  rw [readTripleQuoted, if_neg hnull, unifyLineEnds_append hreturn]
  simp only [List.cons_append, List.append_assoc, List.nil_append]
  simp only [literalBody_closed h, literalValue?_escapeQuotes, Option.map_some]

/-! ## Descriptions -/

/-- What the documentation of a trimmed description stands for: the description laid out, a blank
behind a final quote, and below several lines the indentation of the closing quotes. -/
def documented (indent t : List Char) : List Char :=
  hung indent t ++ guardOf t ++ if t.any Text.isLineBreak then '\n' :: indent else []

theorem isBlank_of_isLineBreak {c : Char} (h : Text.isLineBreak c) : Text.isBlank c := by
  simp only [Text.isLineBreak, Text.isBlank, Text.inRanges, List.any_cons, List.any_nil,
    Bool.or_eq_true, Bool.and_eq_true, decide_eq_true_eq, Bool.or_false] at h ⊢
  omega

theorem isLineBreak_getLast?_trim (cs : List Char) :
    ∀ c ∈ (Text.trim cs).getLast?, Text.isLineBreak c = false := by
  intro c hc
  rw [Text.trim, Text.trimBy, List.getLast?_reverse] at hc
  have hblank := List.head?_dropWhile_not Text.isBlank (cs.dropWhile Text.isBlank).reverse
  rw [hc] at hblank
  exact Bool.eq_false_iff.mpr fun hbreak => by simp [isBlank_of_isLineBreak hbreak] at hblank

theorem mem_of_mem_trim {c : Char} {cs : List Char} (h : c ∈ Text.trim cs) : c ∈ cs := by
  rw [Text.trim, Text.trimBy, List.mem_reverse] at h
  exact List.dropWhile_subset _ (List.mem_reverse.mp (List.dropWhile_subset _ h))

theorem any_escapeQuotes (cs : List Char) :
    (escapeQuotes cs).any Text.isLineBreak = cs.any Text.isLineBreak := by
  fun_induction escapeQuotes cs <;> simp_all [isLineBreak_quote, isLineBreak_backslash]

theorem exists_docstring? {s : String} (hs : ¬ ∀ c ∈ s.toList, Text.isBlank c) (indent : String) :
    ∃ lines, docstring? (some s) indent = some lines ∧
      ("\n".intercalate lines).toList =
        indent.toList ++ (['"', '"', '"'] ++
          (Text.joinWith ['\n']
            (hangingLines indent.toList (Text.splitLines (escapeChars (Text.trim s.toList)))) ++
            if (Text.splitLines (escapeChars (Text.trim s.toList))).length = 1 then []
              else '\n' :: indent.toList) ++
          ['"', '"', '"']) := by
  have hempty : s.isEmpty = false := by
    rw [Bool.eq_false_iff, ne_eq, String.isEmpty_iff]
    rintro rfl
    exact hs nofun
  have hcontent : Text.splitLines (escapeChars (Text.trim s.toList)) ≠ [] :=
    mt splitLines_eq_nil.mp (mt escapeChars_eq_nil.mp (mt trim_eq_nil.mp hs))
  simp only [docstring?, hempty, Bool.false_eq_true, if_false]
  generalize Text.splitLines (escapeChars (Text.trim s.toList)) = content at hcontent ⊢
  match content, hcontent with
  | [line], _ => exact ⟨_, rfl, by simp [hangingLines, Text.joinWith]⟩
  | line :: next :: more, _ =>
    have hmore :
        (((next :: more).map fun l => if l.isEmpty then "" else indent ++ String.ofList l).map
          (·.toList)) =
        (next :: more).map fun l => if l.isEmpty then [] else indent.toList ++ l := by
      rw [List.map_map]
      refine List.map_congr_left fun l _ => ?_
      cases l <;> simp
    refine ⟨_, rfl, ?_⟩
    rw [Text.toList_intercalate, List.map_append, List.map_cons, hmore, List.map_singleton,
      Text.joinWith_append _ (List.cons_ne_nil _ _) (List.cons_ne_nil _ _), String.toList_append,
      String.toList_ofList, Text.joinWith_append_cons]
    simp [hangingLines, Text.joinWith]

section Documented

variable {indent t : List Char}

theorem mem_guardOf {c : Char} (h : c ∈ guardOf t) : c = ' ' := by
  unfold guardOf at h
  split at h
  · exact List.mem_singleton.mp h
  · cases h

theorem getLast?_append_guardOf (t : List Char) :
    (t ++ guardOf t).getLast? = if t.getLast? = some '"' then some ' ' else t.getLast? := by
  unfold guardOf
  split <;> simp

theorem isLineBreak_getLast?_append_guardOf (hlast : ∀ c ∈ t.getLast?, Text.isLineBreak c = false) :
    ∀ c ∈ (t ++ guardOf t).getLast?, Text.isLineBreak c = false := by
  rw [getLast?_append_guardOf]
  split
  · rintro c ⟨⟩
    decide
  · exact hlast

theorem any_append_guardOf (t : List Char) :
    (t ++ guardOf t).any Text.isLineBreak = t.any Text.isLineBreak := by
  have hguard : (guardOf t).any Text.isLineBreak = false :=
    List.any_eq_false.mpr fun c hc => mem_guardOf hc ▸ by decide
  rw [List.any_append, hguard, Bool.or_false]

theorem escapeQuotes_append_guardOf (t : List Char) :
    escapeQuotes (t ++ guardOf t) = escapeChars t := by
  rw [escapeChars_eq]
  unfold guardOf
  split
  · exact escapeQuotes_append t [] (by decide)
  · rw [List.append_nil, List.append_nil]

theorem hung_append_guardOf (hlast : ∀ c ∈ t.getLast?, Text.isLineBreak c = false) :
    hung indent (t ++ guardOf t) = hung indent t ++ guardOf t := by
  rw [hung_append hlast, hung_of_not_break fun c (hc : c ∈ guardOf t) => mem_guardOf hc ▸ by decide]

/-- The escaped lines of a trimmed text, with closing quotes of their own if there are several, are
one escaped text. -/
theorem joinWith_hangingLines_escapeChars (hindent : ∀ c ∈ indent, c = ' ') (ht : t ≠ [])
    (hlast : ∀ c ∈ t.getLast?, Text.isLineBreak c = false) :
    (Text.joinWith ['\n'] (hangingLines indent (Text.splitLines (escapeChars t))) ++
      if (Text.splitLines (escapeChars t)).length = 1 then [] else '\n' :: indent) =
      escapeQuotes (documented indent t) := by
  have hescaped : ∀ c ∈ (escapeChars t).getLast?, Text.isLineBreak c = false := by
    rw [← escapeQuotes_append_guardOf, getLast?_escapeQuotes]
    exact isLineBreak_getLast?_append_guardOf hlast
  have hlines : (Text.splitLines (escapeChars t)).length = 1 ↔ t.any Text.isLineBreak = false := by
    rw [Text.splitLines, length_linesFrom_eq_one (mt escapeChars_eq_nil.mp ht) hescaped,
      ← any_append_guardOf, ← any_escapeQuotes, escapeQuotes_append_guardOf]
    simp
  rw [Text.splitLines, joinWith_hangingLines hescaped, ← escapeQuotes_append_guardOf,
    hung_escapeQuotes hindent, hung_append_guardOf hlast, documented, List.reverse_nil,
    List.nil_append]
  rw [← Text.splitLines, escapeQuotes_append_guardOf, if_congr hlines rfl rfl]
  cases hbreaks : t.any Text.isLineBreak with
  | false => simp
  | true =>
    have hplain : ∀ c ∈ '\n' :: indent, c ≠ '"' ∧ c ≠ '\\' :=
      List.forall_mem_cons.mpr ⟨by decide, fun c hc => hindent c hc ▸ by decide⟩
    have hclosing : escapeQuotes ('\n' :: indent) = '\n' :: indent := by
      simpa [escapeQuotes] using escapeQuotes_plain_append hplain []
    rw [if_neg (by simp), if_pos rfl, escapeQuotes_append _ _ (by decide), hclosing]

/-- A layout that documents a text does not end in a quote. -/
theorem getLast?_documented (hindent : ∀ c ∈ indent, c = ' ')
    (hlast : ∀ c ∈ t.getLast?, Text.isLineBreak c = false) :
    (documented indent t).getLast? ≠ some '"' := by
  rw [documented, ← hung_append_guardOf hlast]
  split
  · intro h
    have hquote : '"' ∈ '\n' :: indent := by
      rw [List.getLast?_append, List.getLast?_cons] at h
      exact List.mem_of_getLast? (by simpa [List.getLast?_cons] using h)
    exact (List.mem_cons.mp hquote).elim (by decide) fun h => absurd (hindent _ h) (by decide)
  · rw [List.append_nil, getLast?_hung (isLineBreak_getLast?_append_guardOf hlast),
      getLast?_append_guardOf]
    split
    · decide
    · assumption

/-- A layout that documents a text consists of line feeds, blanks and characters of the text that
are no line breaks. -/
theorem mem_documented (hindent : ∀ c ∈ indent, c = ' ') {c : Char} (h : c ∈ documented indent t) :
    c = '\n' ∨ c = ' ' ∨ c ∈ t ∧ Text.isLineBreak c = false := by
  rw [documented, List.append_assoc] at h
  rcases List.mem_append.mp h with h | h
  · exact (mem_hung h).imp_right (Or.imp_left (hindent c))
  · rcases List.mem_append.mp h with h | h
    · exact .inr (.inl (mem_guardOf h))
    · split at h
      · exact (List.mem_cons.mp h).imp_right fun h => .inl (hindent c h)
      · cases h

end Documented

/-- **Documentation.** The documentation of a description that is not blank is one literal in triple
quotes behind the indentation. The literal ends where its text ends, whatever follows, and stands
for the description laid out. -/
theorem docstring?_reads {s : String} (h0 : '\x00' ∉ s.toList)
    (hs : ¬ ∀ c ∈ s.toList, Text.isBlank c) (n : Nat) :
    ∃ lines literal, docstring? (some s) (Text.repeated n ' ') = some lines ∧
      ("\n".intercalate lines).toList = List.replicate n ' ' ++ literal ∧
      ∀ rest, '\x00' ∉ rest → readTripleQuoted (literal ++ rest) =
        some (documented (List.replicate n ' ') (Text.trim s.toList), Text.unifyLineEnds rest) := by
  have hindent : (Text.repeated n ' ').toList = List.replicate n ' ' := String.toList_ofList
  obtain ⟨lines, hlines, htext⟩ := exists_docstring? hs (Text.repeated n ' ')
  rw [hindent] at htext
  have hblank : ∀ c ∈ List.replicate n ' ', c = ' ' := fun c hc => List.eq_of_mem_replicate hc
  have hlast := isLineBreak_getLast?_trim s.toList
  rw [joinWith_hangingLines_escapeChars hblank (mt trim_eq_nil.mp hs) hlast] at htext
  refine ⟨lines, _, hlines, htext, fun rest hrest => ?_⟩
  refine readTripleQuoted_escapeQuotes (getLast?_documented hblank hlast) (fun hr => ?_)
    (fun hnull => ?_) hrest
  · rcases mem_documented hblank hr with h | h | ⟨-, h⟩
    · exact absurd h (by decide)
    · exact absurd h (by decide)
    · exact absurd h (by decide)
  · rcases mem_documented hblank hnull with h | h | ⟨h, -⟩
    · exact absurd h (by decide)
    · exact absurd h (by decide)
    · exact h0 (mem_of_mem_trim h)

/-- A description of four lines, one of them empty, with quotes and backslashes beside its line
breaks. -/
theorem docstring?_reads_breaks :
    '\x00' ∉ "  a\"\"\"\r\n\\\x0b\x0b\"q\" ".toList ∧
    (¬ ∀ c ∈ "  a\"\"\"\r\n\\\x0b\x0b\"q\" ".toList, Text.isBlank c) ∧
      ∃ lines literal,
        docstring? (some "  a\"\"\"\r\n\\\x0b\x0b\"q\" ") (Text.repeated 4 ' ') = some lines ∧
        ("\n".intercalate lines).toList = List.replicate 4 ' ' ++ literal ∧
        ∀ rest, '\x00' ∉ rest → readTripleQuoted (literal ++ rest) =
          some ("a\"\"\"\n    \\\n\n    \"q\" \n    ".toList, Text.unifyLineEnds rest) := by
  have letter : ¬ ∀ c ∈ "  a\"\"\"\r\n\\\x0b\x0b\"q\" ".toList, Text.isBlank c :=
    fun blank => absurd (blank 'a' (by simp)) (by decide)
  exact ⟨by decide, letter, docstring?_reads (by decide) letter 4⟩

end Module

end Graphwright
