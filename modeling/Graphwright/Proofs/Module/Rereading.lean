import Graphwright.Proofs.Module.Binding
import Graphwright.Proofs.Module.Reading

/-!
# Import blocks that are read again

An import statement stands on one line, or on one line for each of its names. Either way, and
indented or not, it is read as what it was written for (`Statement.readStatement_logical`). So is a
whole block, with what is behind its test for type checkers (`ImportBlock.readBlock_texts`).
-/
namespace Graphwright.Module

namespace Statement

/-! ## What a statement says -/

/-- The module that names are imported from, if any, and the names with what they are called. -/
def said : Statement → Option String × List (String × Option String)
  | names source items => (some source, items)
  | whole source other? => (none, [(source, other?)])
  | member package name other? => (some package, [(name, other?)])

def items (s : Statement) : List Item :=
  s.said.2.map fun item => ⟨s.said.1, item.1, item.2.getD item.1⟩

/-- The names of a statement cannot be mistaken, and there are some. -/
structure IsReadable (s : Statement) : Prop where
  from? : ∀ source ∈ s.said.1, IsPlain source.toList
  nonempty : s.said.2 ≠ []
  names : ∀ item ∈ s.said.2, IsPlainItem item

def nameTexts (s : Statement) : List (List Char) := s.said.2.map fun item => (itemText item).toList

def lines (s : Statement) : List (List Char) :=
  let line := opening s.said.1 ++ Text.joinWith [',', ' '] s.nameTexts
  match s with
  | names _ _ =>
    if maxLineLength < line.length then
      [opening s.said.1 ++ ['(']] ++
        (s.nameTexts.map fun t => "    ".toList ++ t ++ [',']) ++ [[')']]
    else [line]
  | _ => [line]

theorem toList_text (s : Statement) (h : s.said.2 ≠ []) :
    s.text.toList = Text.joinWith ['\n'] s.lines := by
  cases s with
  | whole source other? =>
    simp only [text, lines, nameTexts, said, opening_none, Text.joinWith, String.toList_append,
      List.map_singleton]
  | member package name other? =>
    simp only [text, lines, nameTexts, said, opening_some, Text.joinWith, String.toList_append,
      List.map_singleton, List.append_assoc]
  | names source items =>
    have hline : ("from " ++ source ++ " import " ++ ", ".intercalate (items.map itemText)).toList =
        opening (some source) ++
          Text.joinWith [',', ' '] (items.map fun item => (itemText item).toList) := by
      simp only [String.toList_append, Text.toList_intercalate, List.map_map]
      rfl
    have htexts : items.map (fun item => (itemText item).toList) ≠ [] := by simpa [said] using h
    rw [text, lines]
    simp only [nameTexts, said, ← hline, String.length_toList]
    split_ifs
    · rw [Text.joinWith_append _ (by simp) (List.cons_ne_nil _ _),
        Text.joinWith_append _ (List.cons_ne_nil _ _) (by simpa [said] using h),
        Text.joinWith_map_around _ _ _ htexts]
      simp only [String.toList_append, Text.toList_intercalate, List.map_map, opening_some,
        Text.joinWith, List.append_assoc]
      rfl
    · rfl

/-! ## Its lines put together -/

variable {s : Statement}

/-- The lines of a statement behind some blanks, put together. -/
def logical (s : Statement) (indentation : List Char) : List Char :=
  Text.joinWith [' '] (s.lines.map (indentation ++ ·))

/-- A statement has one line, or a line for each of its names between brackets. -/
theorem lines_cases (s : Statement) :
    s.lines = [opening s.said.1 ++ Text.joinWith [',', ' '] s.nameTexts] ∨
      s.lines = [opening s.said.1 ++ ['(']] ++
        (s.nameTexts.map fun t => "    ".toList ++ t ++ [',']) ++ [[')']] := by
  cases s with
  | whole source other? => exact .inl rfl
  | member package name other? => exact .inl rfl
  | names source items =>
    rw [lines]
    split_ifs
    · exact .inr rfl
    · exact .inl rfl

theorem isQuiet_of_mem_nameTexts (h : s.IsReadable) {t : List Char} (ht : t ∈ s.nameTexts) :
    IsQuiet t := by
  obtain ⟨item, hitem, rfl⟩ := List.mem_map.mp ht
  exact isQuiet_itemText (h.names item hitem)

theorem not_mem_joinWith (h : s.IsReadable) {gap : List Char} (hgap : IsBlank gap) {c : Char}
    (hc : c ∈ ['(', ')']) : c ∉ Text.joinWith (',' :: gap) s.nameTexts := by
  intro hmem
  rcases Text.mem_joinWith hmem with hsep | ⟨t, ht, hct⟩
  · rcases List.mem_cons.mp hsep with rfl | hsep
    · exact absurd hc (by decide)
    · exact hgap.isQuiet.not_mem (List.mem_cons_of_mem _ hc) hsep
  · exact (isQuiet_of_mem_nameTexts h ht).not_mem (List.mem_cons_of_mem _ hc) hct

/-- A statement is read as what it was written for, on one line or on several ones, indented or
not. -/
theorem readStatement_logical (h : s.IsReadable) {indentation : List Char}
    (hblank : IsBlank indentation) : readStatement (s.logical indentation) = some s.items := by
  have htexts : s.nameTexts ≠ [] := by simpa [nameTexts] using h.nonempty
  have hnames {gap : List Char} (hgap : IsBlank gap) := unbracketed_of_not_mem
    (not_mem_joinWith h hgap (c := '(') (by decide))
    (not_mem_joinWith h hgap (c := ')') (by decide))
  rcases s.lines_cases with hlines | hlines
  · have hgap : IsBlank [' '] := by decide
    refine readStatement_of_unbracketed indentation [] [' '] [] h.from? h.nonempty h.names hblank
      nofun hgap (.inl rfl) ?_
    rw [logical, hlines, List.map_singleton, Text.joinWith, unbracketed_append, unbracketed_append,
      hblank.isQuiet.unbracketed, (isQuiet_opening h.from?).unbracketed, hnames hgap, nameTexts]
    simp only [List.append_nil, List.append_assoc]
  · have hgap : IsBlank (' ' :: (indentation ++ "    ".toList)) :=
      List.forall_mem_cons.mpr ⟨rfl, List.forall_mem_append.mpr ⟨hblank, isBlank_four⟩⟩
    have hmore : IsBlank (' ' :: (indentation ++ [' '])) :=
      List.forall_mem_cons.mpr
        ⟨rfl, List.forall_mem_append.mpr ⟨hblank, List.forall_mem_singleton.mpr rfl⟩⟩
    have hmids : (s.nameTexts.map fun t => "    ".toList ++ t ++ [',']).map (indentation ++ ·) =
        s.nameTexts.map fun t => (indentation ++ "    ".toList) ++ t ++ [','] := by
      rw [List.map_map]
      exact List.map_congr_left fun t _ => by simp only [Function.comp_apply, List.append_assoc]
    refine readStatement_of_unbracketed indentation (' ' :: ' ' :: (indentation ++ "    ".toList))
      (' ' :: (indentation ++ "    ".toList))
      (',' :: ' ' :: (indentation ++ [' '])) h.from? h.nonempty h.names hblank
      (List.forall_mem_cons.mpr ⟨rfl, hgap⟩) hgap (.inr ⟨_, hmore, rfl⟩) ?_
    rw [logical, hlines, List.map_append, List.map_append, hmids,
      Text.joinWith_append _ (by simp) (by simp),
      Text.joinWith_append _ (by simp) (by simpa using htexts),
      Text.joinWith_map_around _ _ _ htexts]
    have hjoined :
        unbracketed (Text.joinWith ([','] ++ [' '] ++ (indentation ++ "    ".toList)) s.nameTexts) =
        Text.joinWith (',' :: ' ' :: (indentation ++ "    ".toList)) s.nameTexts := hnames hgap
    simp only [List.map_singleton, Text.joinWith, unbracketed_append, hblank.isQuiet.unbracketed,
      (isQuiet_opening h.from?).unbracketed, hjoined]
    simp only [List.append_assoc, List.cons_append]
    rfl

/-! ## The lines of a statement -/

theorem lines_ne_nil (s : Statement) : s.lines ≠ [] := by
  rcases s.lines_cases with hlines | hlines <;> rw [hlines] <;> simp

/-- The lines of a statement have characters, and nothing in them ends a line. -/
theorem unbroken_of_mem_lines (h : s.IsReadable) {l : List Char} (hl : l ∈ s.lines) :
    l ≠ [] ∧ ∀ c ∈ l, Text.isLineBreak c = false := by
  have hopening : opening s.said.1 ≠ [] := by
    cases s.said.1 with
    | none => decide
    | some source => exact List.append_ne_nil_of_right_ne_nil _ (by decide)
  have hquiet : ∀ c ∈ opening s.said.1, Text.isLineBreak c = false :=
    fun c hc => (isQuiet_opening h.from? c hc).2
  have htext {t : List Char} (ht : t ∈ s.nameTexts) : ∀ c ∈ t, Text.isLineBreak c = false :=
    fun c hc => (isQuiet_of_mem_nameTexts h ht c hc).2
  have hmark {c : Char} (hc : Text.isLineBreak c = false) : ∀ d ∈ [c], Text.isLineBreak d = false :=
    List.forall_mem_singleton.mpr hc
  rcases s.lines_cases with hlines | hlines
  · rw [hlines, List.mem_singleton] at hl
    refine hl ▸ ⟨List.append_ne_nil_of_left_ne_nil hopening _,
      List.forall_mem_append.mpr ⟨hquiet, fun c hc => ?_⟩⟩
    rcases Text.mem_joinWith hc with hsep | ⟨t, ht, hct⟩
    · exact List.forall_mem_cons.mpr ⟨by decide, hmark (by decide)⟩ c hsep
    · exact htext ht c hct
  · rw [hlines, List.mem_append, List.mem_append, List.mem_singleton, List.mem_singleton] at hl
    rcases hl with (rfl | hl) | rfl
    · exact ⟨List.append_ne_nil_of_left_ne_nil hopening _,
        List.forall_mem_append.mpr ⟨hquiet, hmark (by decide)⟩⟩
    · obtain ⟨t, ht, rfl⟩ := List.mem_map.mp hl
      exact ⟨by simp, List.forall_mem_append.mpr
        ⟨List.forall_mem_append.mpr ⟨fun c hc => (isBlank_four.isQuiet c hc).2, htext ht⟩,
          hmark (by decide)⟩⟩
    · exact ⟨List.cons_ne_nil _ _, hmark (by decide)⟩

theorem lines_text (h : s.IsReadable) : Text.lines s.text = s.lines.map String.ofList := by
  rw [Text.lines, toList_text s h.nonempty,
    Text.splitLines_joinWith fun l hl => unbroken_of_mem_lines h hl]

/-! ## Putting the lines of a statement together -/

theorem logicalLines_begun {begun last : List Char} {inner : List (List Char)} (hopen : '(' ∈ begun)
    (hbegun : ')' ∉ begun) (hinner : ∀ l ∈ inner, ')' ∉ l) (hlast : ')' ∈ last)
      (rest : List (List Char)) :
    logicalLines (some begun) (inner ++ last :: rest) =
      Text.joinWith [' '] (begun :: (inner ++ [last])) :: logicalLines none rest := by
  induction inner generalizing begun with
  | nil =>
    rw [List.nil_append, logicalLines, if_neg fun hclosed => hclosed.2 (by simp [hlast])]
    simp [Text.joinWith]
  | cons l inner ih =>
    obtain ⟨hl, hinner⟩ := List.forall_mem_cons.mp hinner
    have hstill : ')' ∉ begun ++ ' ' :: l := by simp [hbegun, hl]
    have hbegan : '(' ∈ begun ++ ' ' :: l := List.mem_append_left _ hopen
    have hjoin := Text.joinWith_append_cons [' '] (begun ++ [' ']) l (inner ++ [last])
    rw [List.append_assoc, List.singleton_append] at hjoin
    rw [List.cons_append, logicalLines, if_pos ⟨hbegan, hstill⟩, ih hbegan hstill hinner, hjoin]
    rfl

/-- The lines of a statement are put together before the next statement begins. -/
theorem logicalLines_lines (h : s.IsReadable) {indentation : List Char}
    (hblank : IsBlank indentation) (rest : List (List Char)) :
    logicalLines none (s.lines.map (indentation ++ ·) ++ rest) =
      s.logical indentation :: logicalLines none rest := by
  rw [logical]
  rcases s.lines_cases with hlines | hlines
  · have hopen :
        '(' ∉ indentation ++ (opening s.said.1 ++ Text.joinWith [',', ' '] s.nameTexts) := by
      have hgap : IsBlank [' '] := by decide
      simp only [List.mem_append, not_or]
      exact ⟨hblank.isQuiet.not_mem (by decide), (isQuiet_opening h.from?).not_mem (by decide),
        not_mem_joinWith h hgap (by decide)⟩
    rw [hlines, List.map_singleton, List.singleton_append, logicalLines,
      if_neg fun hopened => hopen hopened.1]
    rfl
  · have hopen : '(' ∈ indentation ++ (opening s.said.1 ++ ['(']) := by simp
    have hfirst : ')' ∉ indentation ++ (opening s.said.1 ++ ['(']) := by
      simp only [List.mem_append, not_or]
      exact ⟨hblank.isQuiet.not_mem (by decide), (isQuiet_opening h.from?).not_mem (by decide),
        by decide⟩
    have hinner : ∀ l ∈ (s.nameTexts.map fun t => "    ".toList ++ t ++ [',']).map
        (indentation ++ ·), ')' ∉ l := by
      intro l hl
      obtain ⟨inner, hinner, rfl⟩ := List.mem_map.mp hl
      obtain ⟨t, ht, rfl⟩ := List.mem_map.mp hinner
      simp only [List.mem_append, not_or]
      exact ⟨hblank.isQuiet.not_mem (by decide),
        ⟨by decide, (isQuiet_of_mem_nameTexts h ht).not_mem (by decide)⟩, by decide⟩
    have hlast : ')' ∈ indentation ++ [')'] := by simp
    have hlogical := logicalLines_begun hopen hfirst hinner hlast rest
    rw [hlines, List.map_append, List.map_append, List.map_singleton, List.map_singleton,
      List.append_assoc, List.append_assoc, List.singleton_append, List.singleton_append,
      logicalLines, if_pos ⟨hopen, hfirst⟩]
    exact hlogical

theorem exists_logical (s : Statement) (indentation : List Char) :
    ∃ c more, c ≠ ' ' ∧ s.logical indentation = indentation ++ c :: more := by
  obtain ⟨c, tail, hc, hopening⟩ : ∃ c tail, c ≠ ' ' ∧ opening s.said.1 = c :: tail := by
    cases s.said.1 with
    | none => exact ⟨'i', _, by decide, rfl⟩
    | some source => exact ⟨'f', _, by decide, rfl⟩
  obtain ⟨more, rest, hlines⟩ : ∃ more rest, s.lines = (opening s.said.1 ++ more) :: rest := by
    rcases s.lines_cases with hlines | hlines
    · exact ⟨_, _, hlines⟩
    · exact ⟨_, _, hlines⟩
  refine ⟨c, tail ++ Text.joinWith [' '] (more :: rest.map (indentation ++ ·)), hc, ?_⟩
  rw [logical, hlines, List.map_cons, Text.joinWith_append_cons, Text.joinWith_append_cons,
    hopening, List.cons_append]

theorem takeWhile_logical (s : Statement) {indentation : List Char} (hblank : IsBlank indentation) :
    (s.logical indentation).takeWhile (· = ' ') = indentation := by
  obtain ⟨c, more, hc, hlogical⟩ := s.exists_logical indentation
  rw [hlogical, List.takeWhile_append_of_pos fun d hd => decide_eq_true (hblank d hd),
    List.takeWhile_cons_of_neg (by simpa using hc), List.append_nil]

end Statement

/-! ## Reading a block -/

theorem logicalLines_statements {indentation : List Char} (hblank : IsBlank indentation)
    {ss : List Statement} (h : ∀ s ∈ ss, s.IsReadable) (rest : List (List Char)) :
    logicalLines none ((ss.flatMap (·.lines)).map (indentation ++ ·) ++ rest) =
      ss.map (·.logical indentation) ++ logicalLines none rest := by
  induction ss with
  | nil => rfl
  | cons s more ih =>
    obtain ⟨hs, hmore⟩ := List.forall_mem_cons.mp h
    rw [List.flatMap_cons, List.map_append, List.append_assoc, s.logicalLines_lines hs hblank,
      ih hmore]
    rfl

theorem readStatements_logical {indentation : List Char} (hblank : IsBlank indentation)
    {ss : List Statement} (h : ∀ s ∈ ss, s.IsReadable) :
    readStatements indentation.length (ss.map (·.logical indentation)) =
      some (ss.flatMap (·.items)) := by
  have hread : ∀ s ∈ ss,
      (if ((s.logical indentation).takeWhile (· = ' ')).length = indentation.length then
        readStatement (s.logical indentation) else none) = some s.items := fun s hs => by
    rw [s.takeWhile_logical hblank, if_pos rfl, s.readStatement_logical (h s hs) hblank]
  rw [readStatements, List.mapM_map]
  exact congrArg (Option.map List.flatten) (mapM_eq_map hread)

namespace ImportBlock

def lines (b : ImportBlock) : List (List Char) :=
  b.runtime.flatMap (·.lines) ++
    (if b.checking.isEmpty then []
     else checkingLine :: (b.checking.flatMap (·.lines)).map ("    ".toList ++ ·))

variable {b : ImportBlock} (h : ∀ s ∈ b.runtime ++ b.checking, s.IsReadable)

include h

theorem toList_texts : ("\n".intercalate b.texts).toList = Text.joinWith ['\n'] b.lines := by
  obtain ⟨hruntime, hchecking⟩ := List.forall_mem_append.mp h
  have hfeed : "\n".toList = ['\n'] := rfl
  have hinner : ((b.checking.flatMap fun s => Text.lines s.text).map ("    " ++ ·)).map (·.toList) =
      (b.checking.flatMap (·.lines)).map ("    ".toList ++ ·) := by
    have hlines : b.checking.flatMap (fun s => Text.lines s.text) =
        (b.checking.flatMap (·.lines)).map String.ofList := by
      rw [List.map_flatMap]
      exact List.flatMap_congr fun s hs => s.lines_text (hchecking s hs)
    rw [hlines, List.map_map, List.map_map]
    exact List.map_congr_left fun l _ => by
      simp only [Function.comp_apply, String.toList_append, String.toList_ofList]
  have htexts : b.texts.map (·.toList) = (b.runtime.map (·.lines) ++
      (if b.checking.isEmpty then []
       else [checkingLine :: (b.checking.flatMap (·.lines)).map ("    ".toList ++ ·)])).map
       (Text.joinWith ['\n']) := by
    rw [texts, List.map_append, List.map_append, List.map_map, List.map_map]
    refine congrArg₂ (· ++ ·)
      (List.map_congr_left fun s hs => s.toList_text (hruntime s hs).nonempty) ?_
    split_ifs
    · rfl
    · rw [List.map_singleton, List.map_singleton, Text.toList_intercalate, List.map_cons, hinner]
      rfl
  rw [Text.toList_intercalate, hfeed, htexts, Text.joinWith_map_joinWith]
  · rw [List.flatten_append, ← List.flatMap_def, lines]
    split_ifs <;> simp
  · refine List.forall_mem_append.mpr ⟨fun ls hls => ?_, fun ls hls => ?_⟩
    · obtain ⟨s, -, rfl⟩ := List.mem_map.mp hls
      exact s.lines_ne_nil
    · split_ifs at hls
      · cases hls
      · rw [List.mem_singleton.mp hls]
        exact List.cons_ne_nil _ _

/-- No line of a block has a line feed in it. -/
theorem not_mem_of_mem_lines {l : List Char} (hl : l ∈ b.lines) : '\n' ∉ l := by
  have hunbroken {s : Statement} (hs : s ∈ b.runtime ++ b.checking) {l : List Char}
      (hl : l ∈ s.lines) : '\n' ∉ l :=
    fun hfeed => Bool.false_ne_true
      (((s.unbroken_of_mem_lines (h s hs) hl).2 _ hfeed).symm.trans (by decide))
  rw [lines] at hl
  rcases List.mem_append.mp hl with hl | hl
  · obtain ⟨s, hs, hl⟩ := List.mem_flatMap.mp hl
    exact hunbroken (List.mem_append_left _ hs) hl
  · split_ifs at hl
    · cases hl
    · rcases List.mem_cons.mp hl with rfl | hl
      · decide
      · obtain ⟨m, hm, rfl⟩ := List.mem_map.mp hl
        obtain ⟨s, hs, hm⟩ := List.mem_flatMap.mp hm
        exact fun hfeed => (List.mem_append.mp hfeed).elim (by decide)
          (hunbroken (List.mem_append_right _ hs) hm)

theorem logicalLines_lines : logicalLines none b.lines =
    b.runtime.map (·.logical []) ++
      (if b.checking.isEmpty then []
        else checkingLine :: b.checking.map (·.logical "    ".toList)) := by
  obtain ⟨hruntime, hchecking⟩ := List.forall_mem_append.mp h
  have houter (rest : List (List Char)) :=
    logicalLines_statements (show IsBlank [] from nofun) hruntime rest
  have hinner := logicalLines_statements isBlank_four hchecking []
  simp only [List.nil_append, List.map_id'] at houter
  rw [List.append_nil] at hinner
  rw [lines, houter]
  split_ifs
  · rfl
  · rw [logicalLines, if_neg (by decide), hinner, logicalLines]
    simp

theorem filter_logicalLines :
    (logicalLines none (Text.fields '\n' ("\n".intercalate b.texts).toList)).filter
      (wordsOf · ≠ []) = b.runtime.map (·.logical []) ++
        (if b.checking.isEmpty then []
          else checkingLine :: b.checking.map (·.logical "    ".toList)) := by
  have hwords (s : Statement) (indentation : List Char) : wordsOf (s.logical indentation) ≠ [] := by
    obtain ⟨c, more, hc, hlogical⟩ := s.exists_logical indentation
    exact wordsOf_ne_nil (by simp [hlogical]) hc
  rw [toList_texts h, ← logicalLines_lines h]
  by_cases hlines : b.lines = []
  · rw [hlines]
    decide
  · rw [Text.fields_joinWith hlines fun l hl => not_mem_of_mem_lines h hl]
    refine List.filter_eq_self.mpr fun l hl => decide_eq_true ?_
    rw [logicalLines_lines h] at hl
    rcases List.mem_append.mp hl with hl | hl
    · obtain ⟨s, -, rfl⟩ := List.mem_map.mp hl
      exact hwords s _
    · split_ifs at hl
      · cases hl
      · rcases List.mem_cons.mp hl with rfl | hl
        · decide
        · obtain ⟨s, -, rfl⟩ := List.mem_map.mp hl
          exact hwords s _

/-- A block is read as what it was written for. -/
theorem readBlock_texts : readBlock ("\n".intercalate b.texts) =
    some (b.runtime.flatMap (·.items), if b.checking.isEmpty then none
      else some (b.checking.flatMap (·.items))) := by
  obtain ⟨hruntime, hchecking⟩ := List.forall_mem_append.mp h
  have hblank : IsBlank [] := nofun
  have hrunning : readStatements 0 (b.runtime.map (·.logical [])) =
      some (b.runtime.flatMap (·.items)) :=
    readStatements_logical hblank hruntime
  have hinner : readStatements 4 (b.checking.map (·.logical "    ".toList)) =
      some (b.checking.flatMap (·.items)) :=
    readStatements_logical isBlank_four hchecking
  -- the line of the test is no statement, so it ends those that run
  have hbefore : ∀ l ∈ b.runtime.map (·.logical []),
      decide (l ≠ checkingLine) = true := fun l hl => by
    obtain ⟨s, hs, rfl⟩ := List.mem_map.mp hl
    refine decide_eq_true fun heq => ?_
    have hnone : readStatement checkingLine = none := by decide
    have hread := s.readStatement_logical (hruntime s hs) hblank
    rw [heq, hnone] at hread
    cases hread
  rw [readBlock, filter_logicalLines h, List.takeWhile_append_of_pos hbefore,
    List.dropWhile_append_of_pos hbefore]
  split_ifs
  · rw [List.takeWhile_nil, List.append_nil, hrunning]
    rfl
  · rw [List.takeWhile_cons_of_neg (by simp), List.dropWhile_cons_of_neg (by simp), List.append_nil,
      hrunning]
    change (do return (_, some (← readStatements 4 _))) = _
    rw [hinner]
    rfl

end ImportBlock

end Graphwright.Module
