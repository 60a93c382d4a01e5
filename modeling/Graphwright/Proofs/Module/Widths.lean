import Graphwright.Proofs.Lists
import Graphwright.Proofs.Module.Rereading

/-!
# Widths of import lines

A statement whose line is too long has a line for each of its names. To say how long the lines are
that name several symbols, each character of an import block is marked with the symbol that it is
written for. Without the marks the block is what it was (`ImportBlock.map_char_letters`), and it is
cut into lines as any text is (`Text.map_linesBy`).

A line that names several symbols belongs to a statement on one line, and was measured. What is
behind the test for type checkers is indented after that: there a line may be four characters too
long, and it is exactly if the statement has nearly the full width (`width_iff`). `width_exceeded`
is such a registry.
-/
namespace Graphwright

namespace Text

/-! ## Cutting text with marks -/

section Cutting

variable {α : Type} (char : α → Char)

/-- The lines of a text in which each character carries something more. -/
def linesBy (acc : List α) : List α → List (List α)
  | [] => if acc.isEmpty then [] else [acc.reverse]
  | [x] => if isLineBreak (char x) then [acc.reverse] else [(x :: acc).reverse]
  | x :: y :: rest =>
    if char x = '\r' ∧ char y = '\n' then acc.reverse :: linesBy [] rest
    else if isLineBreak (char x) then acc.reverse :: linesBy [] (y :: rest)
    else linesBy (x :: acc) (y :: rest)

theorem linesFrom_cons {acc : List Char} {c : Char} {rest : List Char}
    (h : c = '\r' → rest.head? ≠ some '\n') :
    linesFrom acc (c :: rest) =
      if isLineBreak c then acc.reverse :: linesFrom [] rest else linesFrom (c :: acc) rest := by
  rw [linesFrom]
  rintro more rfl rfl
  exact h rfl rfl

theorem map_linesBy (acc xs : List α) :
    (linesBy char acc xs).map (List.map char) = linesFrom (acc.map char) (xs.map char) := by
  have not_return {x y : α} {rest : List α} (h : ¬ (char x = '\r' ∧ char y = '\n')) :
      char x = '\r' → ((y :: rest).map char).head? ≠ some '\n' :=
    fun hx hy => h ⟨hx, Option.some.inj hy⟩
  induction acc, xs using linesBy.induct char with
  | case1 acc h => simp_all [linesBy, linesFrom]
  | case2 acc h => simp_all [linesBy, linesFrom]
  | case3 acc x h => simp_all [linesBy, linesFrom]
  | case4 acc x h => simp_all [linesBy, linesFrom]
  | case5 acc x y rest h ih => simp_all [linesBy, linesFrom]
  | case6 acc x y rest h hbreak ih =>
    rw [linesBy, if_neg h, if_pos hbreak, List.map_cons, ih, List.map_reverse,
      List.map_cons (l := y :: rest), linesFrom_cons (not_return h), if_pos hbreak]
    rfl
  | case7 acc x y rest h hbreak ih =>
    rw [linesBy, if_neg h, if_neg hbreak, ih, List.map_cons (l := y :: rest),
      linesFrom_cons (not_return h), if_neg hbreak]
    rfl

variable {char}

theorem infix_of_mem_linesBy {acc xs l : List α} (hacc : ∀ x ∈ acc, isLineBreak (char x) = false)
    (h : l ∈ linesBy char acc xs) :
    (∀ x ∈ l, isLineBreak (char x) = false) ∧ l <:+: acc.reverse ++ xs := by
  induction acc, xs using linesBy.induct char with
  | case1 acc hempty => simp_all [linesBy]
  | case2 acc hempty => simp_all [linesBy]
  | case3 acc x hbreak =>
    rw [linesBy, if_pos hbreak, List.mem_singleton] at h
    rw [h]
    exact ⟨by simpa using hacc, List.infix_append_left⟩
  | case4 acc x hbreak =>
    rw [linesBy, if_neg hbreak, List.mem_singleton] at h
    rw [h, List.reverse_cons]
    refine ⟨List.forall_mem_append.mpr ⟨by simpa using hacc, ?_⟩, List.infix_refl _⟩
    exact List.forall_mem_singleton.mpr (Bool.eq_false_iff.mpr hbreak)
  | case5 acc x y rest hreturn ih =>
    rw [linesBy, if_pos hreturn] at h
    rcases List.mem_cons.mp h with rfl | h
    · exact ⟨by simpa using hacc, List.infix_append_left⟩
    · obtain ⟨hl, hwithin⟩ := ih nofun h
      exact ⟨hl, hwithin.trans ⟨acc.reverse ++ [x, y], [], by simp⟩⟩
  | case6 acc x y rest hreturn hbreak ih =>
    rw [linesBy, if_neg hreturn, if_pos hbreak] at h
    rcases List.mem_cons.mp h with rfl | h
    · exact ⟨by simpa using hacc, List.infix_append_left⟩
    · obtain ⟨hl, hwithin⟩ := ih nofun h
      exact ⟨hl, hwithin.trans ⟨acc.reverse ++ [x], [], by simp⟩⟩
  | case7 acc x y rest hreturn hbreak ih =>
    rw [linesBy, if_neg hreturn, if_neg hbreak] at h
    obtain ⟨hl, hwithin⟩ := ih (List.forall_mem_cons.mpr ⟨Bool.eq_false_iff.mpr hbreak, hacc⟩) h
    rw [List.reverse_cons, List.append_assoc] at hwithin
    exact ⟨hl, hwithin⟩

theorem linesBy_cons {x : α} (hx : isLineBreak (char x) = false) (acc xs : List α) :
    linesBy char acc (x :: xs) = linesBy char (x :: acc) xs := by
  cases xs with
  | nil => simp [linesBy, hx]
  | cons y rest =>
    have hreturn : ¬ (char x = '\r' ∧ char y = '\n') := fun h => by
      rw [h.1] at hx
      exact absurd hx (by decide)
    rw [linesBy, if_neg hreturn, if_neg (Bool.eq_false_iff.mp hx)]

theorem linesBy_append {l : List α} (hl : ∀ x ∈ l, isLineBreak (char x) = false) (acc xs : List α) :
    linesBy char acc (l ++ xs) = linesBy char (l.reverse ++ acc) xs := by
  induction l generalizing acc with
  | nil => rfl
  | cons x rest ih =>
    obtain ⟨hx, hrest⟩ := List.forall_mem_cons.mp hl
    rw [List.cons_append, linesBy_cons hx, ih hrest, List.reverse_cons, List.append_assoc,
      List.singleton_append]

variable {feed : α} (hfeed : char feed = '\n')
include hfeed

theorem linesBy_feed (acc xs : List α) :
    linesBy char acc (feed :: xs) = acc.reverse :: linesBy char [] xs := by
  have hbreak : isLineBreak (char feed) := by rw [hfeed]; decide
  cases xs with
  | nil => simp [linesBy, hbreak]
  | cons y rest => rw [linesBy, if_neg (by simp [hfeed]), if_pos hbreak]

theorem linesBy_subset (ys : List α) :
    ∀ acc xs, linesBy char [] ys ⊆ linesBy char acc (xs ++ feed :: ys)
  | acc, [] => by
    rw [List.nil_append, linesBy_feed hfeed]
    exact List.subset_cons_self _ _
  | acc, [x] => by
    rw [List.singleton_append, linesBy]
    split_ifs
    · exact List.subset_cons_self _ _
    · exact List.subset_cons_of_subset _ (linesBy_subset ys [] [])
    · exact linesBy_subset ys (x :: acc) []
  | acc, x :: y :: rest => by
    rw [List.cons_append, List.cons_append, linesBy]
    split_ifs
    · exact List.subset_cons_of_subset _ (linesBy_subset ys [] rest)
    · exact List.subset_cons_of_subset _ (linesBy_subset ys [] (y :: rest))
    · exact linesBy_subset ys (x :: acc) (y :: rest)

/-- The lines of the last of some texts, each with a line feed behind it, are among the lines of
all. -/
theorem linesBy_last_subset (texts : List (List α)) (last : List α) :
    linesBy char [] last ⊆ linesBy char [] ([feed].intercalate (texts ++ [last])) := by
  induction texts with
  | nil =>
    rw [List.nil_append, List.intercalate_singleton]
    exact List.Subset.refl _
  | cons t rest ih =>
    have hne : rest ++ [last] ≠ [] := List.append_ne_nil_of_right_ne_nil _ (List.cons_ne_nil _ _)
    rw [List.cons_append, List.intercalate_cons_of_ne_nil hne, List.append_assoc,
      List.singleton_append]
    exact List.Subset.trans ih (linesBy_subset hfeed _ [] t)

/-- Lines with line feeds between them are the lines of the text. -/
theorem linesBy_intercalate {ls : List (List α)}
    (h : ∀ l ∈ ls, l ≠ [] ∧ ∀ x ∈ l, isLineBreak (char x) = false) :
    linesBy char [] ([feed].intercalate ls) = ls := by
  induction ls with
  | nil => rfl
  | cons l rest ih =>
    obtain ⟨⟨hne, hl⟩, hrest⟩ := List.forall_mem_cons.mp h
    by_cases hlast : rest = []
    · have hlines := linesBy_append hl [] []
      rw [List.append_nil, List.append_nil, linesBy, if_neg (by simpa using hne),
        List.reverse_reverse] at hlines
      rw [hlast, List.intercalate_singleton, hlines]
    · rw [List.intercalate_cons_of_ne_nil hlast, List.append_assoc, List.singleton_append,
        linesBy_append hl, linesBy_feed hfeed, ih hrest, List.append_nil, List.reverse_reverse]

end Cutting

end Text

namespace Module

/-! ## Marked statements -/

/-- A character, and the symbol that it is written for with the module of that. -/
structure Letter where
  char : Char
  symbol? : Option (Option String × String)
  deriving DecidableEq

def unmarked (cs : List Char) : List Letter := cs.map fun c => ⟨c, none⟩

def marked (symbol : Option String × String) (cs : List Char) : List Letter :=
  cs.map fun c => ⟨c, some symbol⟩

/-- The symbols that a text names. -/
def named (ls : List Letter) : List (Option String × String) := ls.filterMap Letter.symbol?

/-- The text names more than one symbol. -/
def NamesSeveral (ls : List Letter) : Prop := ∃ a ∈ named ls, ∃ b ∈ named ls, a ≠ b

instance (ls : List Letter) : Decidable (NamesSeveral ls) :=
  inferInstanceAs (Decidable (∃ a ∈ named ls, ∃ b ∈ named ls, a ≠ b))

def lineFeed : Letter := ⟨'\n', none⟩

theorem char_lineFeed : lineFeed.char = '\n' := rfl

@[simp] theorem map_char_unmarked (cs : List Char) : (unmarked cs).map Letter.char = cs := by
  simp [unmarked, Function.comp_def]

@[simp] theorem map_char_marked (symbol : Option String × String) (cs : List Char) :
    (marked symbol cs).map Letter.char = cs := by
  simp [marked, Function.comp_def]

@[simp] theorem named_append (ls ms : List Letter) : named (ls ++ ms) = named ls ++ named ms :=
  List.filterMap_append

@[simp] theorem named_unmarked (cs : List Char) : named (unmarked cs) = [] := by
  simp [named, unmarked]

theorem eq_of_mem_named_marked {symbol a : Option String × String} {cs : List Char}
    (h : a ∈ named (marked symbol cs)) : a = symbol := by
  simp only [named, marked, List.filterMap_map, List.mem_filterMap, Function.comp_apply] at h
  obtain ⟨-, -, h⟩ := h
  exact (Option.some.inj h).symm

theorem NamesSeveral.of_infix {ls ms : List Letter} (h : NamesSeveral ls) (hwithin : ls <:+: ms) :
    NamesSeveral ms := by
  obtain ⟨a, ha, b, hb, hne⟩ := h
  have hsub : named ls ⊆ named ms := (hwithin.sublist.filterMap _).subset
  exact ⟨a, hsub ha, b, hsub hb, hne⟩

theorem NamesSeveral.ne_nil {ls : List Letter} (h : NamesSeveral ls) : ls ≠ [] := by
  rintro rfl
  obtain ⟨a, ha, -⟩ := h
  cases ha

theorem not_namesSeveral {ls : List Letter} (symbol : Option String × String)
    (h : ∀ a ∈ named ls, a = symbol) : ¬ NamesSeveral ls := by
  rintro ⟨a, ha, b, hb, hne⟩
  exact hne ((h a ha).trans (h b hb).symm)

/-- Text without line feeds is in one of the texts that line feeds are put between. -/
theorem exists_infix_of_intercalate {texts : List (List Letter)} {l : List Letter} (hne : l ≠ [])
    (hl : lineFeed ∉ l) (h : l <:+: [lineFeed].intercalate texts) : ∃ t ∈ texts, l <:+: t := by
  induction texts with
  | nil => exact absurd (List.infix_nil.mp h) hne
  | cons t rest ih =>
    by_cases hrest : rest = []
    · rw [hrest, List.intercalate_singleton] at h
      exact ⟨t, List.mem_cons_self, h⟩
    · rw [List.intercalate_cons_of_ne_nil hrest, List.append_assoc, List.singleton_append,
        List.infix_append_iff] at h
      rcases h with h | h | ⟨front, back, rfl, hfront, hback⟩
      · exact ⟨t, List.mem_cons_self, h⟩
      · rcases List.infix_cons_iff.mp h with h | h
        · rcases List.prefix_cons_iff.mp h with rfl | ⟨more, rfl, -⟩
          · exact absurd rfl hne
          · exact absurd List.mem_cons_self hl
        · obtain ⟨u, hu, hwithin⟩ := ih h
          exact ⟨u, List.mem_cons_of_mem _ hu, hwithin⟩
      · rcases List.prefix_cons_iff.mp hback with rfl | ⟨more, rfl, -⟩
        · rw [List.append_nil]
          exact ⟨t, List.mem_cons_self, hfront.isInfix⟩
        · exact absurd (List.mem_append_right _ List.mem_cons_self) hl

theorem not_mem_of_unbroken {l : List Letter} (h : ∀ x ∈ l, Text.isLineBreak x.char = false) :
    lineFeed ∉ l :=
  fun hmem => absurd (h lineFeed hmem) (by decide)

theorem map_char_intercalate (gap : List Letter) (texts : List (List Letter)) :
    (gap.intercalate texts).map Letter.char =
      Text.joinWith (gap.map Letter.char) (texts.map (·.map Letter.char)) := by
  induction texts with
  | nil => rfl
  | cons t rest ih =>
    cases rest with
    | nil => simp [Text.joinWith]
    | cons u rest =>
      rw [List.intercalate_cons_cons, List.map_append, List.map_append, ih]
      rfl

namespace Statement

def markedNames (s : Statement) : List (List Letter) :=
  s.said.2.map fun item => marked (s.said.1, item.1) (itemText item).toList

/-- The parts of a statement that line feeds are put between. -/
def parts (s : Statement) : List (List Letter) :=
  let line := unmarked (opening s.said.1) ++ (unmarked [',', ' ']).intercalate s.markedNames
  match s with
  | names _ _ =>
    if maxLineLength < line.length then
      [unmarked (opening s.said.1 ++ ['('])] ++
        (s.markedNames.map fun t => unmarked "    ".toList ++ t ++ unmarked [',']) ++
          [unmarked [')']]
    else [line]
  | _ => [line]

def letters (s : Statement) : List Letter := [lineFeed].intercalate s.parts

def markedLines (s : Statement) : List (List Letter) := Text.linesBy Letter.char [] s.letters

variable {s : Statement}

theorem map_char_markedNames (s : Statement) :
    s.markedNames.map (·.map Letter.char) = s.nameTexts := by
  simp [markedNames, nameTexts, Function.comp_def]

theorem map_char_parts (s : Statement) : s.parts.map (·.map Letter.char) = s.lines := by
  have hline : (unmarked (opening s.said.1) ++
      (unmarked [',', ' ']).intercalate s.markedNames).map Letter.char =
      opening s.said.1 ++ Text.joinWith [',', ' '] s.nameTexts := by
    rw [List.map_append, map_char_intercalate, map_char_markedNames, map_char_unmarked,
      map_char_unmarked]
  cases s with
  | whole source other? => exact congrArg (fun line => [line]) hline
  | member package name other? => exact congrArg (fun line => [line]) hline
  | names source items =>
    rw [parts, lines, ← hline, List.length_map, apply_ite (List.map _), List.map_singleton]
    congr 1
    simp [← map_char_markedNames, Function.comp_def]

theorem map_char_letters (h : s.said.2 ≠ []) : s.letters.map Letter.char = s.text.toList := by
  rw [letters, map_char_intercalate, map_char_parts, toList_text s h]
  rfl

/-- A part that names several symbols is a line that was not too long. -/
theorem length_le_of_mem_parts {p : List Letter} (hp : p ∈ s.parts) (h : NamesSeveral p) :
    p.length ≤ maxLineLength := by
  have hsingle (symbol : Option String × String) (cs before : List Char) (after : List Char) :
      ¬ NamesSeveral (unmarked before ++ marked symbol cs ++ unmarked after) :=
    not_namesSeveral symbol fun a ha => eq_of_mem_named_marked (by simpa using ha)
  cases s with
  | whole source other? =>
    rw [List.mem_singleton.mp hp] at h
    exact absurd h (by simpa [markedNames, said, unmarked] using hsingle (none, source) _ _ [])
  | member package name other? =>
    rw [List.mem_singleton.mp hp] at h
    exact absurd h
      (by simpa [markedNames, said, unmarked] using hsingle (some package, name) _ _ [])
  | names source items =>
    rw [parts] at hp
    split_ifs at hp with hlong
    -- between the brackets each name has a line of its own
    · rw [List.mem_append, List.mem_append, List.mem_singleton, List.mem_singleton] at hp
      rcases hp with (rfl | hp) | rfl
      · exact absurd h (not_namesSeveral (none, "") (by simp))
      · obtain ⟨t, ht, rfl⟩ := List.mem_map.mp hp
        obtain ⟨item, -, rfl⟩ := List.mem_map.mp ht
        exact absurd h (hsingle _ _ _ _)
      · exact absurd h (not_namesSeveral (none, "") (by simp))
    · rw [List.mem_singleton.mp hp]
      omega

theorem length_le_of_infix {l : List Letter} (hl : lineFeed ∉ l) (hwithin : l <:+: s.letters)
    (h : NamesSeveral l) : l.length ≤ maxLineLength := by
  obtain ⟨p, hp, hlp⟩ := exists_infix_of_intercalate h.ne_nil hl hwithin
  exact Nat.le_trans hlp.length_le (length_le_of_mem_parts hp (h.of_infix hlp))

/-- A line of a statement that names several symbols was not too long. -/
theorem length_le_of_mem_markedLines {l : List Letter} (hl : l ∈ s.markedLines)
    (h : NamesSeveral l) : l.length ≤ maxLineLength := by
  obtain ⟨hunbroken, hwithin⟩ := Text.infix_of_mem_linesBy nofun hl
  exact length_le_of_infix (not_mem_of_unbroken hunbroken) hwithin h

end Statement

/-! ## Marked blocks -/

namespace ImportBlock

/-- The indented lines behind the test for type checkers. -/
def indentedLines (b : ImportBlock) : List (List Letter) :=
  (b.checking.flatMap Statement.markedLines).map (unmarked "    ".toList ++ ·)

/-- What is behind the test for type checkers, with the test. -/
def checkedLetters (b : ImportBlock) : List Letter :=
  [lineFeed].intercalate (unmarked checkingLine :: b.indentedLines)

def markedTexts (b : ImportBlock) : List (List Letter) :=
  b.runtime.map Statement.letters ++ if b.checking.isEmpty then [] else [b.checkedLetters]

def letters (b : ImportBlock) : List Letter := [lineFeed].intercalate b.markedTexts

def markedLines (b : ImportBlock) : List (List Letter) := Text.linesBy Letter.char [] b.letters

variable {b : ImportBlock}

theorem map_char_indentedLines (h : ∀ s ∈ b.checking, s.said.2 ≠ []) :
    b.indentedLines.map (·.map Letter.char) =
      ((b.checking.flatMap fun s => Text.lines s.text).map ("    " ++ ·)).map (·.toList) := by
  have hlines : ∀ s ∈ b.checking,
      s.markedLines.map (·.map Letter.char) = (Text.lines s.text).map (·.toList) := by
    intro s hs
    rw [Statement.markedLines, Text.map_linesBy, Statement.map_char_letters (h s hs), Text.lines,
      List.map_map]
    simp [Function.comp_def, Text.splitLines]
  simp only [indentedLines, List.map_map, List.map_flatMap]
  refine List.flatMap_congr fun s hs => ?_
  have heach := congrArg (List.map ("    ".toList ++ ·)) (hlines s hs)
  simpa [Function.comp_def] using heach

theorem map_char_letters (h : ∀ s ∈ b.runtime ++ b.checking, s.said.2 ≠ []) :
    b.letters.map Letter.char = ("\n".intercalate b.texts).toList := by
  obtain ⟨hrunning, hchecked⟩ := List.forall_mem_append.mp h
  have hstatements : (b.runtime.map Statement.letters).map (·.map Letter.char) =
      (b.runtime.map Statement.text).map (·.toList) := by
    rw [List.map_map, List.map_map]
    exact List.map_congr_left fun s hs => s.map_char_letters (hrunning s hs)
  have hbehind : b.checkedLetters.map Letter.char = ("\n".intercalate ("if TYPE_CHECKING:" ::
      (b.checking.flatMap fun s => Text.lines s.text).map ("    " ++ ·))).toList := by
    rw [checkedLetters, map_char_intercalate, List.map_cons, List.map_cons,
      map_char_indentedLines hchecked, map_char_unmarked, Text.toList_intercalate]
    rfl
  rw [letters, map_char_intercalate, Text.toList_intercalate, markedTexts, texts, List.map_append,
    List.map_append, hstatements]
  congr 2
  split_ifs
  · rfl
  · rw [List.map_singleton, List.map_singleton, hbehind]

theorem indentedLines_subset (hchecking : b.checking ≠ []) : b.indentedLines ⊆ b.markedLines := by
  have hlines : Text.linesBy Letter.char [] b.checkedLetters =
      unmarked checkingLine :: b.indentedLines := by
    refine Text.linesBy_intercalate char_lineFeed (List.forall_mem_cons.mpr
      ⟨by decide, List.forall_mem_map.mpr fun l hl => ?_⟩)
    obtain ⟨s, -, hl⟩ := List.mem_flatMap.mp hl
    refine ⟨List.append_ne_nil_of_left_ne_nil (by decide) _,
      List.forall_mem_append.mpr ⟨by decide, ?_⟩⟩
    exact (Text.infix_of_mem_linesBy nofun hl).1
  have hlast :
      b.letters = [lineFeed].intercalate
      (b.runtime.map Statement.letters ++ [b.checkedLetters]) := by
    rw [letters, markedTexts, if_neg (by simpa using hchecking)]
  intro l hl
  rw [markedLines, hlast]
  exact Text.linesBy_last_subset char_lineFeed _ _ (hlines ▸ List.mem_cons_of_mem _ hl)

/-- A line of a block that names several symbols was not too long, unless it has been indented
since. -/
theorem width_cases {l : List Letter} (hl : l ∈ b.markedLines) (h : NamesSeveral l) :
    l.length ≤ Statement.maxLineLength ∨ ∃ s ∈ b.checking, ∃ line ∈ s.markedLines,
      NamesSeveral line ∧ line.length ≤ Statement.maxLineLength ∧ l.length ≤ line.length + 4 := by
  obtain ⟨hunbroken, hwithin⟩ := Text.infix_of_mem_linesBy nofun hl
  have hfeed := not_mem_of_unbroken hunbroken
  obtain ⟨t, ht, hlt⟩ := exists_infix_of_intercalate h.ne_nil hfeed hwithin
  rcases List.mem_append.mp ht with ht | ht
  · obtain ⟨s, -, rfl⟩ := List.mem_map.mp ht
    exact .inl (Statement.length_le_of_infix hfeed hlt h)
  · split_ifs at ht
    · cases ht
    · rw [List.mem_singleton.mp ht] at hlt
      obtain ⟨p, hp, hlp⟩ := exists_infix_of_intercalate h.ne_nil hfeed hlt
      have hseveral := h.of_infix hlp
      rcases List.mem_cons.mp hp with rfl | hp
      · exact absurd hseveral (not_namesSeveral (none, "") (by simp))
      · obtain ⟨line, hline, rfl⟩ := List.mem_map.mp hp
        obtain ⟨s, hs, hline⟩ := List.mem_flatMap.mp hline
        have hnames : NamesSeveral line := by simpa [NamesSeveral] using hseveral
        refine .inr ⟨s, hs, line, hline, hnames,
          Statement.length_le_of_mem_markedLines hline hnames, ?_⟩
        have hlength := hlp.length_le
        simp only [List.length_append, unmarked, List.length_map] at hlength
        change l.length ≤ 4 + line.length at hlength
        omega

end ImportBlock

theorem said_ne_nil_of_mem_statementsOf {source : String} {is : List Import} {s : Statement}
    (h : s ∈ statementsOf source is) : s.said.2 ≠ [] := by
  unfold statementsOf at h
  rcases List.mem_append.mp h with h | h
  · obtain ⟨i, -, rfl⟩ := List.mem_map.mp h
    unfold Statement.ofModule
    dsimp only
    split <;> exact List.cons_ne_nil _ _
  · split at h
    · cases h
    · rename_i hsymbols
      rw [List.mem_singleton.mp h]
      simpa [Statement.said] using hsymbols

namespace Registry

theorem said_ne_nil_of_mem_block (r : Registry) :
    ∀ s ∈ r.block.runtime ++ r.block.checking, s.said.2 ≠ [] := by
  intro s hs
  rcases List.mem_append.mp hs with hs | hs <;> obtain ⟨g, -, hs⟩ := List.mem_flatMap.mp hs <;>
    exact said_ne_nil_of_mem_statementsOf hs

theorem block_checking_of_unseparated {r : Registry} (h : r.separateTyping = false) :
    r.block.checking = [] := by
  simp [block, h]

/-- **Widths.** The marked lines of an import block are the lines of its text. One that names
several symbols is not too long, or it is a line of a statement behind the test for type checkers,
which was not too long before it was indented. So no line that names several symbols is too long
exactly if those statements leave room for that, and always where type checkers have no block of
their own. -/
theorem width_iff (r : Registry) :
    r.block.markedLines.map (·.map Letter.char) =
      Text.splitLines ("\n".intercalate r.texts).toList ∧
    (∀ l ∈ r.block.markedLines, NamesSeveral l → l.length ≤ Statement.maxLineLength ∨
      ∃ s ∈ r.block.checking, ∃ line ∈ s.markedLines,
        NamesSeveral line ∧ line.length ≤ Statement.maxLineLength ∧ l.length ≤ line.length + 4) ∧
    ((∀ l ∈ r.block.markedLines, NamesSeveral l → l.length ≤ Statement.maxLineLength) ↔
      ∀ s ∈ r.block.checking, ∀ line ∈ s.markedLines,
        NamesSeveral line → line.length + 4 ≤ Statement.maxLineLength) ∧
    (r.separateTyping = false → ∀ l ∈ r.block.markedLines, NamesSeveral l →
      l.length ≤ Statement.maxLineLength) := by
  have hiff : (∀ l ∈ r.block.markedLines, NamesSeveral l → l.length ≤ Statement.maxLineLength) ↔
      ∀ s ∈ r.block.checking, ∀ line ∈ s.markedLines,
        NamesSeveral line → line.length + 4 ≤ Statement.maxLineLength := by
    constructor
    · intro hall s hs line hline hnames
      have hmem : unmarked "    ".toList ++ line ∈ r.block.indentedLines :=
        List.mem_map_of_mem (List.mem_flatMap_of_mem hs hline)
      have hlength := hall _ (ImportBlock.indentedLines_subset (List.ne_nil_of_mem hs) hmem)
        (hnames.of_infix (List.suffix_append _ _).isInfix)
      rw [List.length_append] at hlength
      change 4 + line.length ≤ Statement.maxLineLength at hlength
      omega
    · intro hroom l hl hnames
      rcases ImportBlock.width_cases hl hnames with
        hlength | ⟨s, hs, line, hline, hseveral, -, hlength⟩
      · exact hlength
      · exact Nat.le_trans hlength (hroom s hs line hline hseveral)
  refine ⟨?_, fun l hl hnames => ImportBlock.width_cases hl hnames, hiff, fun hone => hiff.mpr ?_⟩
  · rw [ImportBlock.markedLines, Text.map_linesBy,
      ImportBlock.map_char_letters r.said_ne_nil_of_mem_block]
    rfl
  · rw [block_checking_of_unseparated hone]
    exact nofun

/-- Two symbols for type checkers, the import of which takes 76 characters on one line. -/
def nearlyWide : Registry :=
  { separateTyping := true
    imports := ["GeneratedTypeWithLongName", "GeneratedTypeWithLongName2"].map fun name =>
      ⟨name, "app.models", .typing, none⟩ }

/-- A line behind the test for type checkers may be too long. -/
theorem width_exceeded :
    ¬ ∀ r : Registry, ∀ l ∈ r.block.markedLines, NamesSeveral l →
    l.length ≤ Statement.maxLineLength :=
  fun hall => absurd (hall nearlyWide) (by decide +kernel)

end Registry

end Module

end Graphwright
