import Graphwright.Module.Import
import Graphwright.Proofs.Text.Fields
import Graphwright.Text.Identifier

/-!
# Reading import statements

`readBlock` reads the text of an import block: lines are put together while a bracket is open, and
each statement says which names it imports from where and what they are called (`Item`). What is
behind the test for type checkers is read apart, and has to be indented.

A text is plain if it cannot be mistaken for anything but one word (`IsPlain`), as identifiers and
names of modules cannot. A line with plain names is read as it was written, with whatever blanks and
brackets, and also if there is one more comma at its end (`readStatement_of_unbracketed`).
-/
namespace Graphwright.Module

/-! ## A reader -/

/-- What a statement imports: a name, the module it is from, or none where a module is imported
itself, and what it is called. -/
structure Item where
  from? : Option String
  name : String
  bound : String
  deriving Repr, DecidableEq

def wordsOf (cs : List Char) : List (List Char) := (Text.fields ' ' cs).filter (· ≠ [])

def unbracketed (line : List Char) : List Char :=
  line.map fun c => if c = '(' ∨ c = ')' then ' ' else c

/-- Puts lines together while a bracket is open; the current one may have begun before. -/
def logicalLines (begun? : Option (List Char)) : List (List Char) → List (List Char)
  | [] => begun?.toList
  | line :: rest =>
    let whole := match begun? with
      | none => line
      | some begun => begun ++ ' ' :: line
    if '(' ∈ whole ∧ ')' ∉ whole then logicalLines (some whole) rest
    else whole :: logicalLines none rest

/-- Reads a name and what it is called. -/
def readItem (from? : Option (List Char)) : List (List Char) → Option Item
  | [name] => some ⟨from?.map String.ofList, String.ofList name, String.ofList name⟩
  | [name, ['a', 's'], other] =>
    some ⟨from?.map String.ofList, String.ofList name, String.ofList other⟩
  | _ => none

/-- Reads names between commas; nothing has to follow the last comma. -/
def readItems (from? : Option (List Char)) (pieces : List (List (List Char))) :
    Option (List Item) :=
  (pieces.filter (· ≠ [])).mapM (readItem from?)

def readStatement (line : List Char) : Option (List Item) :=
  match Text.fields ',' (unbracketed line) with
  | [] => none
  | first :: more =>
    match wordsOf first with
    | ['f', 'r', 'o', 'm'] :: source :: ['i', 'm', 'p', 'o', 'r', 't'] :: words =>
      readItems (some source) (words :: more.map wordsOf)
    | ['i', 'm', 'p', 'o', 'r', 't'] :: words => readItems none (words :: more.map wordsOf)
    | _ => none

/-- Reads statements that are indented in the same way. -/
def readStatements (depth : Nat) (lines : List (List Char)) : Option (List Item) :=
  (lines.mapM fun line =>
    if (line.takeWhile (· = ' ')).length = depth then readStatement line else none).map List.flatten

/-- The line of the test for type checkers. -/
def checkingLine : List Char := "if TYPE_CHECKING:".toList

/-- Reads the text of a block: what is imported when it runs, and, if there is a test for type
checkers, what is imported behind it. -/
def readBlock (text : String) : Option (List Item × Option (List Item)) := do
  let lines := (logicalLines none (Text.fields '\n' text.toList)).filter (wordsOf · ≠ [])
  let running ← readStatements 0 (lines.takeWhile (· ≠ checkingLine))
  match lines.dropWhile (· ≠ checkingLine) with
  | [] => return (running, none)
  | _ :: inner => return (running, some (← readStatements 4 inner))

example : readBlock "import a.b\nfrom m import (\n    X as Y,\n    Z,\n)\nif TYPE_CHECKING:\n    from . import n" =
    some ([⟨none, "a.b", "a.b"⟩, ⟨some "m", "X", "Y"⟩, ⟨some "m", "Z", "Z"⟩],
      some [⟨some ".", "n", "n"⟩]) := by
  decide

/-! ## Words and pieces -/

theorem wordsOf_append (cs rest : List Char) :
    wordsOf (cs ++ ' ' :: rest) = wordsOf cs ++ wordsOf rest := by
  rw [wordsOf, Text.fields_append_sep, List.filter_append, wordsOf, wordsOf]

theorem wordsOf_word {cs : List Char} (hne : cs ≠ []) (h : ' ' ∉ cs) : wordsOf cs = [cs] := by
  rw [wordsOf, Text.fields_of_not_mem h]
  exact List.filter_cons_of_pos (decide_eq_true hne)

def IsBlank (cs : List Char) : Prop := ∀ c ∈ cs, c = ' '

instance (cs : List Char) : Decidable (IsBlank cs) := List.decidableBAll (· = ' ') cs

theorem isBlank_four : IsBlank "    ".toList := by decide

theorem wordsOf_blanks_append {blanks : List Char} (h : IsBlank blanks) (cs : List Char) :
    wordsOf (blanks ++ cs) = wordsOf cs := by
  induction blanks with
  | nil => rfl
  | cons c blanks ih =>
    obtain ⟨rfl, hblanks⟩ := List.forall_mem_cons.mp h
    exact (wordsOf_append [] (blanks ++ cs)).trans (ih hblanks)

theorem wordsOf_ne_nil {cs : List Char} {c : Char} (hmem : c ∈ cs) (hc : c ≠ ' ') :
    wordsOf cs ≠ [] := by
  obtain ⟨piece, hpiece, hcpiece⟩ := (Text.exists_mem_fields hmem).resolve_left hc
  exact List.ne_nil_of_mem
    (List.mem_filter.mpr ⟨hpiece, decide_eq_true (List.ne_nil_of_mem hcpiece)⟩)

/-! ## Plain texts -/

/-- A text that cannot be mistaken: it has characters, and none of them ends a word, a piece or a
line. -/
structure IsPlain (cs : List Char) : Prop where
  nonempty : cs ≠ []
  special : ∀ c ∈ cs, c ∉ [' ', ',', '(', ')']
  breaks : ∀ c ∈ cs, Text.isLineBreak c = false

/-- No identifier has a blank, a comma, a bracket or the end of a line in it. -/
theorem isIdent_of_special {c : Char} (h : c ∈ [' ', ',', '(', ')'] ∨ Text.isLineBreak c) :
    Text.isIdentStart c = false ∧ Text.isIdentRest c = false := by
  -- the characters in question are few, so the tables of identifiers can be looked up for each of
  -- them
  have hnumber :
      c.toNat ∈ [0x20, 0x28, 0x29, 0x2c, 0xa, 0xb, 0xc, 0xd, 0x1c, 0x1d, 0x1e, 0x85, 0x2028,
        0x2029] := by
    rcases h with h | h
    · rcases List.mem_cons.mp h with rfl | h
      · decide
      · simp only [List.mem_cons, List.not_mem_nil, or_false] at h
        rcases h with rfl | rfl | rfl <;> decide
    · simp only [Text.isLineBreak, Text.inRanges, List.any_cons, List.any_nil, Bool.or_false,
        Bool.or_eq_true, Bool.and_eq_true, decide_eq_true_eq] at h
      simp only [List.mem_cons, List.not_mem_nil, or_false]
      omega
  have hall :
      ∀ n ∈ [0x20, 0x28, 0x29, 0x2c, 0xa, 0xb, 0xc, 0xd, 0x1c, 0x1d, 0x1e, 0x85, 0x2028, 0x2029],
      Text.isIdentStart (Char.ofNat n) = false ∧ Text.isIdentRest (Char.ofNat n) = false := by
    decide +kernel
  have hc := hall c.toNat hnumber
  rwa [Char.ofNat_toNat] at hc

theorem isPlain_of_isIdentifier {cs : List Char} (h : Text.isIdentifier cs) : IsPlain cs := by
  have hident : ∀ c ∈ cs, Text.isIdentStart c ∨ Text.isIdentRest c := by
    cases cs with
    | nil => cases h
    | cons c rest =>
      obtain ⟨hc, hrest⟩ := Bool.and_eq_true_iff.mp h
      exact List.forall_mem_cons.mpr ⟨.inl hc, fun d hd => .inr (List.all_eq_true.mp hrest d hd)⟩
  have hplain (c : Char) (hc : c ∈ cs) :
      ¬(c ∈ [' ', ',', '(', ')'] ∨ Text.isLineBreak c) := fun hspecial => by
    have hnone := isIdent_of_special hspecial
    rcases hident c hc with hstart | hrest
    · exact Bool.false_ne_true (hnone.1.symm.trans hstart)
    · exact Bool.false_ne_true (hnone.2.symm.trans hrest)
  refine ⟨?_, fun c hc hs => hplain c hc (.inl hs), fun c hc => ?_⟩
  · rintro rfl
    cases h
  · exact Bool.eq_false_iff.mpr fun hb => hplain c hc (.inr hb)

/-- Identifiers with dots between them, before them and behind them are plain. -/
theorem isPlain_of_fields {cs : List Char} (hne : cs ≠ [])
    (h : ∀ piece ∈ Text.fields '.' cs, piece = [] ∨ Text.isIdentifier piece) : IsPlain cs := by
  have hchar (c : Char) (hc : c ∈ cs) : c = '.' ∨ ∃ piece, IsPlain piece ∧ c ∈ piece := by
    rcases Text.exists_mem_fields hc with hdot | ⟨piece, hpiece, hc⟩
    · exact .inl hdot
    · rcases h piece hpiece with rfl | hid
      · cases hc
      · exact .inr ⟨piece, isPlain_of_isIdentifier hid, hc⟩
  refine ⟨hne, fun c hc => ?_, fun c hc => ?_⟩
  · rcases hchar c hc with rfl | ⟨piece, hpiece, hc⟩
    · decide
    · exact hpiece.special c hc
  · rcases hchar c hc with rfl | ⟨piece, hpiece, hc⟩
    · decide
    · exact hpiece.breaks c hc

section

variable {cs : List Char} (h : IsPlain cs)

include h

theorem IsPlain.not_mem {c : Char} (hc : c ∈ [' ', ',', '(', ')']) : c ∉ cs :=
  fun hcs => h.special c hcs hc

theorem IsPlain.wordsOf : wordsOf cs = [cs] := wordsOf_word h.nonempty (h.not_mem (by decide))

end

/-- A part of a plain text is plain, if it has characters. -/
theorem IsPlain.of_subset {cs part : List Char} (h : IsPlain cs) (hne : part ≠ [])
    (hpart : part ⊆ cs) : IsPlain part :=
  ⟨hne, fun c hc => h.special c (hpart hc), fun c hc => h.breaks c (hpart hc)⟩

/-- The names of an item cannot be mistaken. -/
def IsPlainItem (item : String × Option String) : Prop :=
  IsPlain item.1.toList ∧ ∀ other ∈ item.2, IsPlain other.toList

/-! ## Quiet texts -/

/-- A text within one piece of one line. -/
def IsQuiet (cs : List Char) : Prop := ∀ c ∈ cs, c ∉ [',', '(', ')'] ∧ Text.isLineBreak c = false

instance (cs : List Char) : Decidable (IsQuiet cs) :=
  List.decidableBAll (fun c => c ∉ [',', '(', ')'] ∧ Text.isLineBreak c = false) cs

theorem IsPlain.isQuiet {cs : List Char} (h : IsPlain cs) : IsQuiet cs :=
  fun c hc => ⟨fun hs => h.special c hc (List.mem_cons_of_mem _ hs), h.breaks c hc⟩

theorem IsQuiet.append {cs ds : List Char} (hcs : IsQuiet cs) (hds : IsQuiet ds) :
    IsQuiet (cs ++ ds) :=
  List.forall_mem_append.mpr ⟨hcs, hds⟩

theorem IsQuiet.not_mem {cs : List Char} (h : IsQuiet cs) {c : Char} (hc : c ∈ [',', '(', ')']) :
    c ∉ cs :=
  fun hcs => (h c hcs).1 hc

theorem IsBlank.isQuiet {cs : List Char} (h : IsBlank cs) : IsQuiet cs := fun c hc => by
  rw [h c hc]
  decide

theorem unbracketed_append (cs ds : List Char) :
    unbracketed (cs ++ ds) = unbracketed cs ++ unbracketed ds :=
  List.map_append

theorem unbracketed_of_not_mem {cs : List Char} (hopen : '(' ∉ cs) (hclose : ')' ∉ cs) :
    unbracketed cs = cs := by
  refine (List.map_congr_left fun c hc => if_neg ?_).trans (List.map_id cs)
  rintro (rfl | rfl)
  · exact hopen hc
  · exact hclose hc

theorem IsQuiet.unbracketed {cs : List Char} (h : IsQuiet cs) : unbracketed cs = cs :=
  unbracketed_of_not_mem (h.not_mem (by decide)) (h.not_mem (by decide))

namespace Statement

/-- What a line begins with. -/
def opening : Option String → List Char
  | some source => "from ".toList ++ source.toList ++ " import ".toList
  | none => "import ".toList

theorem opening_some (source : String) :
    opening (some source) = "from ".toList ++ source.toList ++ " import ".toList := rfl

theorem opening_none : opening none = "import ".toList := rfl

end Statement

theorem isQuiet_opening {from? : Option String} (h : ∀ source ∈ from?, IsPlain source.toList) :
    IsQuiet (Statement.opening from?) := by
  cases from? with
  | none => decide
  | some source =>
    have hfrom : IsQuiet "from ".toList := by decide
    have himport : IsQuiet " import ".toList := by decide
    exact (hfrom.append (h source rfl).isQuiet).append himport

theorem isQuiet_itemText {item : String × Option String} (h : IsPlainItem item) :
    IsQuiet (Statement.itemText item).toList := by
  obtain ⟨name, other?⟩ := item
  cases other? with
  | none => exact h.1.isQuiet
  | some other =>
    have hlink : IsQuiet " as ".toList := by decide
    rw [Statement.itemText, String.toList_append, String.toList_append]
    exact (h.1.isQuiet.append hlink).append (h.2 other rfl).isQuiet

/-! ## Reading a statement -/

theorem wordsOf_itemText {item : String × Option String} (h : IsPlainItem item) :
    wordsOf (Statement.itemText item).toList =
      item.1.toList :: (item.2.map fun other => ["as".toList, other.toList]).getD [] := by
  obtain ⟨name, other?⟩ := item
  cases other? with
  | none => exact h.1.wordsOf
  | some other =>
    have htext : (Statement.itemText (name, some other)).toList =
        name.toList ++ ' ' :: ("as".toList ++ ' ' :: other.toList) := by
      rw [Statement.itemText, String.toList_append, String.toList_append, List.append_assoc]
      rfl
    rw [htext, wordsOf_append, wordsOf_append, h.1.wordsOf, (h.2 other rfl).wordsOf]
    rfl

theorem readItem_wordsOf (from? : Option String) {item : String × Option String}
    (h : IsPlainItem item) :
    readItem (from?.map (·.toList)) (wordsOf (Statement.itemText item).toList) =
      some ⟨from?, item.1, item.2.getD item.1⟩ := by
  rw [wordsOf_itemText h]
  obtain ⟨name, other?⟩ := item
  have hfrom : (from?.map (·.toList)).map String.ofList = from? := by
    rw [Option.map_map]
    exact (congrArg (Option.map · from?) (funext fun _ => String.ofList_toList)).trans
      (Option.map_id_fun ▸ rfl)
  cases other? with
  | none =>
    change some (Item.mk _ _ _) = _
    rw [hfrom, String.ofList_toList]
    rfl
  | some other =>
    change some (Item.mk _ _ _) = _
    rw [hfrom, String.ofList_toList, String.ofList_toList]
    rfl

theorem mapM_eq_map {α β : Type} {f : α → Option β} {g : α → β} {xs : List α}
    (h : ∀ x ∈ xs, f x = some (g x)) : xs.mapM f = some (xs.map g) := by
  induction xs with
  | nil => rfl
  | cons x rest ih =>
    obtain ⟨hx, hrest⟩ := List.forall_mem_cons.mp h
    rw [List.mapM_cons, hx, ih hrest]
    rfl

section Core

variable {items : List (String × Option String)} (hitems : ∀ item ∈ items, IsPlainItem item)

include hitems

/-- Names are read as they were written, also if nothing follows the last comma. -/
theorem readItems_wordsOf (from? : Option String) {rest : List (List (List Char))}
    (hrest : ∀ ws ∈ rest, ws = []) :
    readItems (from?.map (·.toList))
      (items.map (fun item => wordsOf (Statement.itemText item).toList) ++ rest) =
      some (items.map fun item => ⟨from?, item.1, item.2.getD item.1⟩) := by
  have hkept : (items.map fun item => wordsOf (Statement.itemText item).toList).filter (· ≠ []) =
      items.map fun item => wordsOf (Statement.itemText item).toList := by
    refine List.filter_eq_self.mpr fun ws hws => decide_eq_true ?_
    obtain ⟨item, hitem, rfl⟩ := List.mem_map.mp hws
    rw [wordsOf_itemText (hitems item hitem)]
    exact List.cons_ne_nil _ _
  rw [readItems, List.filter_append, hkept, List.filter_eq_nil_iff.mpr (by simpa using hrest),
    List.append_nil]
  rw [List.mapM_map]
  exact mapM_eq_map fun item hitem => readItem_wordsOf from? (hitems item hitem)

/-- Items with a comma and blanks between them are the pieces of a line. -/
theorem fields_items {item : String × Option String} {gap before : List Char} (hgap : IsBlank gap)
    (hbefore : IsQuiet before) (hitem : IsPlainItem item) :
    Text.fields ','
        (before ++ Text.joinWith (',' :: gap)
          ((item :: items).map fun i => (Statement.itemText i).toList)) =
      (before ++ (Statement.itemText item).toList) :: items.map fun i => gap ++
        (Statement.itemText i).toList := by
  rw [List.map_cons, ← Text.joinWith_append_cons]
  have hfirst := hbefore.append (isQuiet_itemText hitem)
  generalize before ++ (Statement.itemText item).toList = first at hfirst ⊢
  have hcomma := hfirst.not_mem (show ',' ∈ [',', '(', ')'] by decide)
  induction items generalizing first with
  | nil => exact Text.fields_of_not_mem hcomma
  | cons next rest ih =>
    obtain ⟨hnext, hrest⟩ := List.forall_mem_cons.mp hitems
    have hquiet := hgap.isQuiet.append (isQuiet_itemText hnext)
    rw [List.map_cons, Text.joinWith, List.append_assoc, List.cons_append,
      Text.fields_append_cons hcomma, ← Text.joinWith_append_cons,
      ih hrest _ hquiet (hquiet.not_mem (by decide))]
    rfl

end Core

theorem wordsOf_opening {from? : Option String} (h : ∀ source ∈ from?, IsPlain source.toList)
    {lead blanks : List Char} (hlead : IsBlank lead) (hblanks : IsBlank blanks) (cs : List Char) :
    wordsOf (lead ++ Statement.opening from? ++ blanks ++ cs) =
      (from?.map fun source => ["from".toList, source.toList]).getD [] ++ "import".toList ::
        wordsOf cs := by
  have himport : wordsOf ("import".toList ++ ' ' :: (blanks ++ cs)) =
      "import".toList :: wordsOf cs := by
    rw [wordsOf_append, wordsOf_word (by decide) (by decide), wordsOf_blanks_append hblanks]
    rfl
  rw [List.append_assoc, List.append_assoc, wordsOf_blanks_append hlead]
  cases from? with
  | none => exact himport
  | some source =>
    have hopening : Statement.opening (some source) ++ (blanks ++ cs) =
        "from".toList ++ ' ' ::
          (source.toList ++ ' ' :: ("import".toList ++ ' ' :: (blanks ++ cs))) := by
      simp only [Statement.opening_some, List.append_assoc]
      rfl
    rw [hopening, wordsOf_append, wordsOf_append, himport, wordsOf_word (by decide) (by decide),
      (h source rfl).wordsOf]
    rfl

/-- A line is read that has, without its brackets, blanks, the beginning of a statement, and names
with commas between them; also if there is one more comma, and only blanks behind it. -/
theorem readStatement_of_unbracketed {line : List Char} (lead blanks gap after : List Char)
    {from? : Option String} {items : List (String × Option String)}
    (hfrom : ∀ source ∈ from?, IsPlain source.toList) (hne : items ≠ [])
    (hitems : ∀ item ∈ items, IsPlainItem item) (hlead : IsBlank lead) (hblanks : IsBlank blanks)
    (hgap : IsBlank gap) (hafter : after = [] ∨ ∃ more, IsBlank more ∧ after = ',' :: more)
    (hline : unbracketed line = lead ++ Statement.opening from? ++ blanks ++
      Text.joinWith (',' :: gap) (items.map fun i => (Statement.itemText i).toList) ++ after) :
    readStatement line = some (items.map fun item => ⟨from?, item.1, item.2.getD item.1⟩) := by
  obtain ⟨item, rest, rfl⟩ := List.exists_cons_of_ne_nil hne
  obtain ⟨hitem, hrest⟩ := List.forall_mem_cons.mp hitems
  have hbefore : IsQuiet (lead ++ Statement.opening from? ++ blanks) :=
    (hlead.isQuiet.append (isQuiet_opening hfrom)).append hblanks.isQuiet
  obtain ⟨tail, htail, hfields⟩ : ∃ tail : List (List Char), (∀ ws ∈ tail.map wordsOf, ws = []) ∧
      Text.fields ',' (unbracketed line) =
        (lead ++ Statement.opening from? ++ blanks ++ (Statement.itemText item).toList) ::
          (rest.map fun i => gap ++ (Statement.itemText i).toList) ++ tail := by
    rcases hafter with rfl | ⟨more, hmore, rfl⟩
    · refine ⟨[], nofun, ?_⟩
      rw [hline, List.append_nil, List.append_nil, fields_items hrest hgap hbefore hitem]
    · refine ⟨[more], ?_, ?_⟩
      · have hwords := wordsOf_blanks_append hmore []
        rw [List.append_nil] at hwords
        exact List.forall_mem_singleton.mpr (hwords.trans (by decide))
      · rw [hline, Text.fields_append_sep, fields_items hrest hgap hbefore hitem,
          Text.fields_of_not_mem (hmore.isQuiet.not_mem (by decide))]
  have hmore : ((rest.map fun i => gap ++ (Statement.itemText i).toList) ++ tail).map wordsOf =
      rest.map (fun i => wordsOf (Statement.itemText i).toList) ++ tail.map wordsOf := by
    rw [List.map_append, List.map_map]
    exact congrArg (· ++ _) (List.map_congr_left fun i _ => wordsOf_blanks_append hgap _)
  have hread := readItems_wordsOf hitems from? htail
  rw [List.map_cons, List.cons_append, ← hmore] at hread
  rw [readStatement, hfields, List.cons_append]
  simp only [wordsOf_opening hfrom hlead hblanks]
  cases from? with
  | none => exact hread
  | some source => exact hread

end Graphwright.Module
