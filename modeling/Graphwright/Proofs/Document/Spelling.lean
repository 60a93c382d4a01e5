import Graphwright.Proofs.Document.Literals
import Graphwright.Proofs.Document.Taking
import Graphwright.Proofs.Outcome

/-!
# Spelling types and values

`Lays` says that a text is laid out from some pieces: it is cut into them wherever it is indented,
unless its last piece goes on. Types and literals are laid out from the pieces that readers take for
them (`lays_typeRef`, `lays_value`).
-/
namespace Graphwright.Document

/-! ## Texts and their layout -/

/-- A text that is cut into some pieces, also inside an indented part, unless its last one goes
on. -/
def Lays (s : String) (ps : List Piece) : Prop :=
  ∀ ⦃margin⦄, IsMargin margin → Cuts (indentBy margin s.toList) ps

/-- A text that is cut into some pieces, also inside an indented part and whatever follows. -/
def LaysFreely (s : String) (ps : List Piece) : Prop :=
  ∀ ⦃margin⦄, IsMargin margin → CutsFreely (indentBy margin s.toList) ps

/-- A text that does not continue what is in front of it. -/
def Opens (s : String) : Prop := ∀ c ∈ s.toList.head?, breaks c

instance (s : String) : Decidable (Opens s) := Option.decidableForallMem s.toList.head?

theorem Opens.parts {s : String} (h : Opens s) (margin : List Char) :
    Parts (indentBy margin s.toList) := by
  unfold Opens at h
  cases hs : s.toList with
  | nil => exact parts_nil
  | cons c cs =>
    rw [hs] at h
    have hc := h c rfl
    by_cases hline : c = '\n'
    · subst hline
      exact parts_cons hc _
    · rw [indentBy_cons hline]
      exact parts_cons hc _

theorem Opens.breaks {s : String} (h : Opens s) (hne : s ≠ "") (margin rest : List Char) :
    Breaks (indentBy margin s.toList ++ rest) := by
  obtain ⟨c, cs, hs⟩ := List.exists_cons_of_ne_nil (mt String.toList_eq_nil_iff.mp hne)
  have hc : Graphwright.Document.breaks c := h c (by rw [hs]; rfl)
  rw [hs]
  by_cases hline : c = '\n'
  · subst hline
    exact fun _ hd => Option.some.inj hd ▸ hc
  · rw [indentBy_cons hline]
    exact fun _ hd => Option.some.inj hd ▸ hc

theorem Opens.append_of_ne {s t : String} (h : Opens s) (hne : s ≠ "") : Opens (s ++ t) := by
  obtain ⟨c, cs, hs⟩ := List.exists_cons_of_ne_nil (mt String.toList_eq_nil_iff.mp hne)
  intro d hd
  rw [String.toList_append, hs] at hd
  exact h d (by rw [hs]; exact hd)

theorem Opens.append {s t : String} (hs : Opens s) (ht : Opens t) : Opens (s ++ t) := by
  by_cases hne : s = ""
  · rwa [hne, String.empty_append]
  · exact hs.append_of_ne hne

section Append

variable {s t : String} {ps qs : List Piece}

theorem LaysFreely.lays (h : LaysFreely s ps) : Lays s ps := fun _ hmargin => (h hmargin).cuts

theorem LaysFreely.append (h : LaysFreely s ps) (h' : LaysFreely t qs) :
    LaysFreely (s ++ t) (ps ++ qs) := by
  intro margin hmargin
  rw [String.toList_append, indentBy_append]
  exact CutsFreely.append (h hmargin) (h' hmargin)

theorem LaysFreely.append_lays (h : LaysFreely s ps) (h' : Lays t qs) :
    Lays (s ++ t) (ps ++ qs) := by
  intro margin hmargin
  rw [String.toList_append, indentBy_append]
  exact (h hmargin).append_cuts (h' hmargin)

theorem Lays.append (h : Lays s ps) (h' : Lays t qs) (ht : Opens t) : Lays (s ++ t) (ps ++ qs) := by
  intro margin hmargin
  rw [String.toList_append, indentBy_append]
  exact (h hmargin).append (h' hmargin) (ht.parts margin)

theorem Lays.append_freely (h : Lays s ps) (h' : LaysFreely t qs) (ht : Opens t) (hne : t ≠ "") :
    LaysFreely (s ++ t) (ps ++ qs) := by
  intro margin hmargin
  rw [String.toList_append, indentBy_append]
  exact CutsBefore.append (h hmargin) (h' hmargin) fun rest _ => ht.breaks hne margin rest

end Append

/-! ## Marks and words -/

theorem lays_of_line {s : String} {ps : List Piece} (hline : '\n' ∉ s.toList)
    (h : Cuts s.toList ps) : Lays s ps := by
  intro margin _
  rwa [indentBy_of_ne fun c hc heq => hline (heq ▸ hc)]

theorem lays_empty : Lays "" [] := fun _ _ => cutsFreely_nil.cuts

theorem lays_name {n : String} (h : IsName n) : Lays n [word n] := by
  refine lays_of_line (fun hmem => ?_) (cuts_name h)
  obtain ⟨c, cs, hn, hc, hcs⟩ := h
  rw [hn, List.mem_cons] at hmem
  rcases hmem with rfl | hmem
  · exact absurd hc (by decide)
  · exact absurd (hcs _ hmem) (by decide)

theorem lays_number {kind : TokenKind} {text : String} (h : IsNumber kind text) :
    Lays text [(kind, text)] := by
  refine lays_of_line (fun hmem => ?_) (cuts_number h)
  have hdigits {ds : List Char} (hds : IsDigits ds) : '\n' ∉ ds :=
    fun hmem => absurd (hds.2 _ hmem) (by decide)
  obtain ⟨hsign, hwhole, hfraction, hexponent⟩ := h
  rw [String.toList_ofList] at hmem
  simp only [List.mem_append] at hmem
  rcases hmem with ((hmem | hmem) | hmem) | hmem
  · rcases hsign with rfl | rfl <;> simp at hmem
  · cases hwhole with
    | zero => simp at hmem
    | digits hds _ => exact hdigits hds hmem
  · cases hfraction with
    | none => simp at hmem
    | digits hds => simp [hdigits hds] at hmem
  · cases hexponent with
    | none => simp at hmem
    | digits he hsign hds =>
      simp only [List.cons_append, List.mem_cons, List.mem_append, hdigits hds, or_false] at hmem
      rcases hmem with rfl | hmem
      · rcases he with h | h <;> cases h
      · rcases hsign with rfl | rfl | rfl <;> simp at hmem

/-- The pieces of a text of marks and blanks. -/
def marksOf (s : String) : List Piece :=
  s.toList.filterMap fun c => if marks.contains c then some (mark c.toString) else none

def IsPunctuation (s : String) : Prop := ∀ c ∈ s.toList, isIgnored c ∨ c ∈ marks

instance (s : String) : Decidable (IsPunctuation s) := List.decidableBAll _ s.toList

theorem laysFreely_marks {s : String} (h : IsPunctuation s) : LaysFreely s (marksOf s) := by
  intro margin hmargin
  unfold IsPunctuation at h
  unfold marksOf
  generalize s.toList = cs at h ⊢
  induction cs with
  | nil => exact cutsFreely_nil
  | cons c cs ih =>
    obtain ⟨hc, hcs⟩ := List.forall_mem_cons.mp h
    by_cases hline : c = '\n'
    · subst hline
      have hblank : CutsFreely ('\n' :: margin) [] := cutsFreely_blank fun d hd => by
        rcases List.mem_cons.mp hd with rfl | hd
        · rfl
        · rw [hmargin d hd]
          rfl
      exact hblank.append (ih hcs)
    rw [indentBy_cons hline]
    by_cases hmark : c ∈ marks
    · rw [List.filterMap_cons_some (b := mark c.toString) (by simp [hmark])]
      exact (cutsFreely_mark hmark).append (ih hcs)
    · rw [List.filterMap_cons_none (by simp [hmark])]
      have hblank : CutsFreely [c] [] := cutsFreely_blank fun d hd => by
        rw [List.mem_singleton.mp hd]
        exact hc.resolve_right hmark
      exact hblank.append (ih hcs)

theorem laysFreely_blanks {s : String} (h : IsMargin s.toList) : LaysFreely s [] := by
  have hpunctuation : IsPunctuation s := fun c hc => by
    rw [h c hc]
    decide
  have hmarks : marksOf s = [] := List.filterMap_eq_nil_iff.mpr fun c hc => by
    rw [h c hc]
    decide
  exact hmarks ▸ laysFreely_marks hpunctuation

theorem opens_of_punctuation {s : String} (h : IsPunctuation s) : Opens s := by
  have hmarks : marks.all breaks := by decide
  intro c hc
  rcases h c (List.mem_of_mem_head? hc) with hblank | hmark
  · simp only [isIgnored, Bool.or_eq_true, beq_iff_eq] at hblank
    rcases hblank with ((((rfl | rfl) | rfl) | rfl) | rfl) | rfl <;> decide
  · exact List.all_eq_true.mp hmarks c hmark

theorem laysFreely_empty : LaysFreely "" [] := fun _ _ => cutsFreely_nil

theorem laysFreely_word {before w after : String} {ps qs : List Piece}
    (hbefore : LaysFreely before ps) (hw : IsName w) (hafter : LaysFreely after qs)
    (hopens : Opens after) (hne : after ≠ "") :
    LaysFreely (before ++ w ++ after) (ps ++ word w :: qs) := by
  have htext := (hbefore.append_lays (lays_name hw)).append_freely hafter hopens hne
  simpa using htext

/-! ## Several texts -/

theorem Lays.ne_empty {s : String} {p : Piece} {ps : List Piece} (h : Lays s (p :: ps)) :
    s ≠ "" := by
  rintro rfl
  have hmargin : IsMargin [] := nofun
  obtain ⟨fuel, position, -, hspells⟩ := h hmargin [] nofun 1 0 (Nat.lt_succ_self 0)
  cases hspells

section Intercalate

variable {γ : Type} {text : γ → String} {pieces : γ → List Piece} {sep : String}
  (hsep : IsPunctuation sep) (hne : sep ≠ "")

include hsep hne

theorem lays_intercalate {x : γ} {xs : List γ} (h : ∀ y ∈ x :: xs, Lays (text y) (pieces y)) :
    Lays (sep.intercalate ((x :: xs).map text))
      (pieces x ++ xs.flatMap fun y => marksOf sep ++ pieces y) := by
  induction xs generalizing x with
  | nil => simpa using h x List.mem_cons_self
  | cons y ys ih =>
    obtain ⟨hx, hys⟩ := List.forall_mem_cons.mp h
    rw [List.map_cons, List.map_cons, String.intercalate_cons_cons, List.flatMap_cons,
      List.append_assoc]
    have hrest := (laysFreely_marks hsep).append_lays (ih hys)
    rw [String.append_assoc]
    exact hx.append hrest ((opens_of_punctuation hsep).append_of_ne hne)

theorem lays_lines (hblank : marksOf sep = []) {xs : List γ}
    (h : ∀ x ∈ xs, Lays (text x) (pieces x)) :
    Lays (sep.intercalate (xs.map text)) (xs.flatMap pieces) := by
  cases xs with
  | nil => exact lays_empty
  | cons x xs => simpa [hblank] using lays_intercalate hsep hne h

end Intercalate

theorem lays_separated {sep separator : String} (hsep : IsPunctuation sep) (hne : sep ≠ "")
    (hmark : marksOf sep = [mark separator]) {names : List String} (h : ∀ n ∈ names, IsName n) :
    Lays (sep.intercalate names) (separated separator names) := by
  cases names with
  | nil => exact lays_empty
  | cons n rest =>
    have hnames : Lays (sep.intercalate ((n :: rest).map id))
        ([word n] ++ rest.flatMap fun m => marksOf sep ++ [word m]) :=
      lays_intercalate hsep hne fun m hm => lays_name (h m hm)
    simpa [hmark, separated] using hnames

/-! ## Types and values -/

theorem lays_string (s : String) (isBlock : Bool) :
    Lays (Print.string s isBlock) [stringPiece isBlock] :=
  fun _ hmargin => cuts_string s isBlock hmargin

theorem lays_typeRef {t : TypeRef} (h : t.IsProper) : Lays t.text t.pieces := by
  induction h with
  | named hn => exact lays_name hn
  | @list item _ ih =>
    have hopen : LaysFreely "[" [mark "["] := laysFreely_marks (by decide)
    have hclose : LaysFreely "]" [mark "]"] := laysFreely_marks (by decide)
    exact ((hopen.append_lays ih).append hclose.lays (by decide))
  | @nonNull inner _ _ ih =>
    have hmark : LaysFreely "!" [mark "!"] := laysFreely_marks (by decide)
    exact ih.append hmark.lays (by decide)

theorem toList_join_margin (margin s : String) :
    (String.join (s.toList.map fun c => if c = '\n' then "\n" ++ margin else c.toString)).toList =
      indentBy margin.toList s.toList := by
  rw [String.toList_join, List.flatMap_map, indentBy]
  congr 1
  funext c
  split <;> simp

theorem lays_indent {s : String} {ps : List Piece} (h : Lays s ps) : Lays (Print.indent s) ps := by
  have hlines :
      (String.join (s.toList.map fun c => if c = '\n' then "\n  " else c.toString)).toList =
      indentBy "  ".toList s.toList := toList_join_margin "  " s
  unfold Print.indent Print.wrap
  split
  · rename_i hempty
    rw [hempty] at hlines
    cases hs : s.toList with
    | nil => rwa [String.toList_eq_nil_iff.mp hs] at h
    | cons c cs =>
      rw [hs, indentBy, List.flatMap_cons] at hlines
      split at hlines <;> cases hlines
  · intro margin hmargin
    have hblanks : LaysFreely "  " [] := laysFreely_marks (by decide)
    have hmargin' : IsMargin (margin ++ "  ".toList) :=
      List.forall_mem_append.mpr ⟨hmargin, fun c hc => by simpa using hc⟩
    rw [String.append_empty, String.toList_append, hlines, indentBy_append,
      indentBy_indentBy (by simp)]
    exact (hblanks hmargin).append_cuts (h hmargin')

theorem values_eq (items : List Value) : Print.values items = items.map Print.value := by
  induction items with
  | nil => rfl
  | cons v rest ih => rw [Print.values, ih, List.map_cons]

theorem objectFields_eq (fields : List (String × Value)) :
    Print.objectFields fields = fields.map fun f => f.1 ++ ": " ++ Print.value f.2 := by
  induction fields with
  | nil => rfl
  | cons f rest ih => rw [Print.objectFields, ih, List.map_cons]

theorem join_eq {sep : String} {texts : List String} (h : ∀ t ∈ texts, t ≠ "") :
    Print.join sep texts = sep.intercalate texts := by
  rw [Print.join, List.filter_eq_self.mpr fun t ht => by simpa using h t ht]

theorem lays_argument {n : String} {v : Value} (hn : IsName n)
    (hv : Lays (Print.value v) v.pieces) :
    Lays (n ++ ": " ++ Print.value v) (argumentPieces (n, v)) := by
  have hcolon : LaysFreely ": " [mark ":"] := laysFreely_marks (by decide)
  exact ((lays_name hn).append_freely hcolon (by decide) (by decide)).append_lays hv

theorem mem_map_ne_empty {γ : Type} {text : γ → String} {pieces : γ → List Piece} {xs : List γ}
    (h : ∀ x ∈ xs, Lays (text x) (pieces x)) (hne : ∀ x ∈ xs, pieces x ≠ []) :
    ∀ t ∈ xs.map text, t ≠ "" := by
  intro t ht
  obtain ⟨x, hx, rfl⟩ := List.mem_map.mp ht
  obtain ⟨a, as, hpieces⟩ := List.exists_cons_of_ne_nil (hne x hx)
  exact (hpieces ▸ h x hx).ne_empty

/-- A list, on one line or with an item on each. -/
theorem lays_listValue {items : List Value} (h : ∀ v ∈ items, Lays (Print.value v) v.pieces) :
    Lays (Print.value (.list items)) (Value.list items).pieces := by
  have hne := mem_map_ne_empty h fun v _ => by
    obtain ⟨a, as, hpieces, -⟩ := v.exists_pieces
    simp [hpieces]
  rw [Print.value, Value.pieces, itemPieces_eq, values_eq, join_eq hne, join_eq hne]
  split
  · have hopen : LaysFreely ("[" ++ "\n") [mark "["] := laysFreely_marks (by decide)
    have hclose : LaysFreely ("\n" ++ "]") [mark "]"] := laysFreely_marks (by decide)
    have hend : IsPunctuation "\n" := by decide
    have hlines := (hopen.append_lays (lays_indent (lays_lines hend (by decide) rfl h))).append
      hclose.lays (by decide)
    simpa [String.intercalate_cons_cons, String.append_assoc] using hlines
  · have hopen : LaysFreely "[" [mark "["] := laysFreely_marks (by decide)
    have hclose : LaysFreely "]" [mark "]"] := laysFreely_marks (by decide)
    have hcomma : IsPunctuation ", " := by decide
    exact (hopen.append_lays (lays_lines hcomma (by decide) rfl h)).append hclose.lays (by decide)

/-- An object, on one line or with a field on each. -/
theorem lays_objectValue {fields : List (String × Value)}
    (h : ∀ f ∈ fields, Lays (f.1 ++ ": " ++ Print.value f.2) (argumentPieces f)) :
    Lays (Print.value (.object fields)) (Value.object fields).pieces := by
  have hne := mem_map_ne_empty h fun f _ => List.cons_ne_nil _ _
  rw [Print.value, Value.pieces, fieldPieces_eq, objectFields_eq, join_eq hne]
  split
  · rename_i hlong
    have hopen : LaysFreely "\x7b\n" [mark "\x7b"] := laysFreely_marks (by decide)
    have hclose : LaysFreely "\n\x7d" [mark "\x7d"] := laysFreely_marks (by decide)
    have hend : IsPunctuation "\n" := by decide
    have hlines := lays_indent (lays_lines hend (by decide) rfl h)
    obtain ⟨f, rest, rfl⟩ : ∃ f rest, fields = f :: rest := List.exists_cons_of_ne_nil fun h => by
      subst h
      exact absurd hlong (by decide)
    rw [Print.block, join_eq hne, Print.wrap, if_neg hlines.ne_empty]
    exact (hopen.append_lays hlines).append hclose.lays (by decide)
  · have hopen : LaysFreely "\x7b " [mark "\x7b"] := laysFreely_marks (by decide)
    have hclose : LaysFreely " \x7d" [mark "\x7d"] := laysFreely_marks (by decide)
    have hcomma : IsPunctuation ", " := by decide
    exact (hopen.append_lays (lays_lines hcomma (by decide) rfl h)).append hclose.lays (by decide)

/-- A literal. -/
theorem lays_value {v : Value} (h : v.IsConstant) : Lays (Print.value v) v.pieces := by
  induction h with
  | int h => exact lays_number h
  | float h => exact lays_number h
  | string text block => exact lays_string text block
  | boolean b => cases b <;> exact lays_name (n := Print.value (.boolean _)) (by decide)
  | null => exact lays_name (n := "null") (by decide)
  | enum h => exact lays_name h
  | list _ ih => exact lays_listValue ih
  | object hnames _ ih => exact lays_objectValue fun f hf => lays_argument (hnames f hf) (ih f hf)

/-! ## Whole texts -/

/-- A text that is laid out from pieces is cut into them. -/
theorem Lays.spells {source : Source} {ps : List Piece} (h : Lays source.body ps) :
    ∃ last : Token, last.piece = endPiece ∧ Spells ps (.scan source) (.done last) := by
  have hmargin : IsMargin [] := nofun
  obtain ⟨fuel, position, hfuel, hspells⟩ :=
    h hmargin [] nofun (source.body.toList.length + 1) 0
      (by rw [indentBy_noMargin, List.append_nil]; exact Nat.lt_succ_self _)
  rw [List.append_nil, indentBy_noMargin] at hspells
  obtain ⟨fuel, rfl⟩ := Nat.exists_eq_add_one_of_ne_zero (Nat.ne_zero_of_lt hfuel)
  exact ⟨_, rfl, hspells⟩

/-- A text that is laid out from what a reader takes, up to its end, is read. -/
theorem exists_whole {α : Type} {reader : Nat → Read α} {source : Source} {ps : List Piece}
    (hlays : Lays source.body ps)
    (htakes : ∀ fuel, ps.length < fuel → Takes (reader fuel) (ps ++ [endPiece]) Any fun _ => True) :
    ∃ v, Read.whole source reader = .ok v := by
  obtain ⟨last, hlast, hspells⟩ := hlays.spells
  have hend : Begins [endPiece, endPiece] (.done last) := hlast ▸ .done (.done (.nil _))
  have hstart :
      Cursor.Ahead ⟨source, ⟨.endOfFile, "", 0⟩, .scan source⟩
      (endPiece :: (ps ++ [endPiece, endPiece])) :=
    ⟨rfl, hspells.begins hend⟩
  have hlength : ps.length ≤ source.body.length + 1 := by
    rw [← String.length_toList]
    exact hspells.length_le
  have hreads : Takes (do
      let _ ← Read.advance
      reader (2 * source.body.length + 4)) (endPiece :: (ps ++ [endPiece])) Any fun _ => True :=
    Takes.advance.cons fun _ _ => htakes _ (by omega)
  obtain ⟨v, c', hrun, -⟩ := hreads trivial (by simpa using hstart)
  obtain ⟨⟨t, c⟩, hadvance, hreader⟩ := bind_eq_ok.mp hrun
  refine ⟨v, bind_eq_ok.mpr ⟨(t, c), hadvance, bind_eq_ok.mpr ⟨(v, c'), hreader, rfl⟩⟩⟩

end Graphwright.Document
