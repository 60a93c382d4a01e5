import Mathlib.Data.List.Basic
import Graphwright.Text.Lines

/-!
# Pieces and lines of a text

Cutting a text at a character and joining pieces with it undo each other: pieces without the
character are found again (`fields_joinWith`), and the pieces of a text are without it
(`not_mem_of_mem_fields`). So it is with lines (`splitLines_joinWith`).
-/
namespace Graphwright.Text

theorem fields_of_not_mem {sep : Char} {cs : List Char} (h : sep ∉ cs) : fields sep cs = [cs] := by
  induction cs with
  | nil => rfl
  | cons c rest ih =>
    obtain ⟨hc, hrest⟩ := List.ne_and_not_mem_of_not_mem_cons h
    rw [fields, if_neg (Ne.symm hc), ih hrest]

theorem fields_append_sep (sep : Char) (cs rest : List Char) :
    fields sep (cs ++ sep :: rest) = fields sep cs ++ fields sep rest := by
  induction cs with
  | nil => simp [fields]
  | cons c cs ih =>
    rw [List.cons_append, fields, fields, ih]
    obtain ⟨piece, pieces, hfields⟩ := List.exists_cons_of_ne_nil (fields_ne_nil sep cs)
    rw [hfields]
    split <;> rfl

theorem fields_append_cons {sep : Char} {cs : List Char} (h : sep ∉ cs) (rest : List Char) :
    fields sep (cs ++ sep :: rest) = cs :: fields sep rest := by
  rw [fields_append_sep, fields_of_not_mem h, List.singleton_append]

/-- Pieces that are joined with a character none of them has are the pieces of the text. -/
theorem fields_joinWith {sep : Char} {pieces : List (List Char)} (hne : pieces ≠ [])
    (h : ∀ piece ∈ pieces, sep ∉ piece) : fields sep (joinWith [sep] pieces) = pieces := by
  induction pieces with
  | nil => exact absurd rfl hne
  | cons piece rest ih =>
    obtain ⟨hpiece, hrest⟩ := List.forall_mem_cons.mp h
    cases rest with
    | nil => rw [joinWith, fields_of_not_mem hpiece]
    | cons next rest =>
      rw [joinWith, List.append_assoc, List.singleton_append, fields_append_cons hpiece,
        ih (List.cons_ne_nil _ _) hrest]

theorem not_mem_of_mem_fields {sep : Char} {cs piece : List Char} (h : piece ∈ fields sep cs) :
    sep ∉ piece := by
  induction cs generalizing piece with
  | nil =>
    rw [fields, List.mem_singleton] at h
    rw [h]
    exact List.not_mem_nil
  | cons c rest ih =>
    rw [fields] at h
    split at h
    · rcases List.mem_cons.mp h with rfl | h
      · exact List.not_mem_nil
      · exact ih h
    · rename_i hc
      obtain ⟨first, more, hfields⟩ := List.exists_cons_of_ne_nil (fields_ne_nil sep rest)
      rw [hfields] at h ih
      rcases List.mem_cons.mp h with rfl | h
      · exact fun hsep => (List.mem_cons.mp hsep).elim (Ne.symm hc) (ih List.mem_cons_self)
      · exact ih (List.mem_cons_of_mem _ h)

/-! ## Joining -/

theorem toList_intercalate (sep : String) (texts : List String) :
    (sep.intercalate texts).toList = joinWith sep.toList (texts.map (·.toList)) := by
  induction texts with
  | nil => rfl
  | cons t rest ih =>
    cases rest with
    | nil => simp [joinWith]
    | cons u rest =>
      rw [String.intercalate_cons_cons, String.toList_append, String.toList_append, ih]
      rfl

/-- What the first text begins with, all of them begin with. -/
theorem joinWith_append_cons (sep before t : List Char) (rest : List (List Char)) :
    joinWith sep ((before ++ t) :: rest) = before ++ joinWith sep (t :: rest) := by
  cases rest with
  | nil => rfl
  | cons u rest => simp only [joinWith, List.append_assoc]

theorem joinWith_append (sep : List Char) {xs ys : List (List Char)} (hxs : xs ≠ [])
    (hys : ys ≠ []) : joinWith sep (xs ++ ys) = joinWith sep xs ++ sep ++ joinWith sep ys := by
  induction xs with
  | nil => exact absurd rfl hxs
  | cons x rest ih =>
    cases rest with
    | nil =>
      obtain ⟨y, ys, rfl⟩ := List.exists_cons_of_ne_nil hys
      rfl
    | cons next rest =>
      rw [List.cons_append, List.cons_append, joinWith, ← List.cons_append,
        ih (List.cons_ne_nil _ _), joinWith]
      simp only [List.append_assoc]

theorem mem_joinWith {sep : List Char} {texts : List (List Char)} {c : Char}
    (h : c ∈ joinWith sep texts) : c ∈ sep ∨ ∃ t ∈ texts, c ∈ t := by
  induction texts with
  | nil => cases h
  | cons t rest ih =>
    cases rest with
    | nil => exact .inr ⟨t, List.mem_singleton_self _, h⟩
    | cons u rest =>
      rw [joinWith, List.append_assoc] at h
      rcases List.mem_append.mp h with h | h
      · exact .inr ⟨t, List.mem_cons_self, h⟩
      · rcases List.mem_append.mp h with h | h
        · exact .inl h
        · rcases ih h with hsep | ⟨v, hv, hc⟩
          · exact .inl hsep
          · exact .inr ⟨v, List.mem_cons_of_mem _ hv, hc⟩

/-- A character of a text is in one of its pieces, or between two of them. -/
theorem exists_mem_fields {sep c : Char} {cs : List Char} (h : c ∈ cs) :
    c = sep ∨ ∃ piece ∈ fields sep cs, c ∈ piece := by
  rw [← joinWith_fields sep cs] at h
  exact (mem_joinWith h).imp_left List.mem_singleton.mp

/-- What stands around each text stands between them, before the first and behind the last one. -/
theorem joinWith_map_around (sep before after : List Char) {texts : List (List Char)}
    (hne : texts ≠ []) :
    joinWith sep (texts.map fun t => before ++ t ++ after) =
      before ++ joinWith (after ++ sep ++ before) texts ++ after := by
  induction texts with
  | nil => exact absurd rfl hne
  | cons t rest ih =>
    cases rest with
    | nil => rfl
    | cons u rest =>
      have ih := ih (List.cons_ne_nil _ _)
      rw [List.map_cons] at ih
      rw [List.map_cons, List.map_cons, joinWith, ih, joinWith]
      simp only [List.append_assoc]

/-- Texts that are joined of pieces themselves are joined by joining all pieces. -/
theorem joinWith_map_joinWith (sep : List Char) {groups : List (List (List Char))}
    (h : ∀ g ∈ groups, g ≠ []) :
    joinWith sep (groups.map (joinWith sep)) = joinWith sep groups.flatten := by
  induction groups with
  | nil => rfl
  | cons g rest ih =>
    obtain ⟨hg, hrest⟩ := List.forall_mem_cons.mp h
    cases rest with
    | nil => simp [joinWith]
    | cons next rest =>
      have hne : (next :: rest).flatten ≠ [] := by
        simpa using fun hnil => absurd hnil (List.forall_mem_cons.mp hrest).1
      rw [List.flatten_cons, joinWith_append sep hg hne, ← ih hrest]
      rfl

/-! ## Lines -/

theorem linesFrom_append {cs : List Char} (h : ∀ c ∈ cs, isLineBreak c = false)
    (acc rest : List Char) : linesFrom acc (cs ++ rest) = linesFrom (cs.reverse ++ acc) rest := by
  induction cs generalizing acc with
  | nil => rfl
  | cons c cs ih =>
    obtain ⟨hc, hcs⟩ := List.forall_mem_cons.mp h
    have hreturn : ∀ more, c = '\r' → cs ++ rest = '\n' :: more → False := fun _ hr _ => by
      rw [hr] at hc
      exact absurd hc (by decide)
    rw [List.cons_append, linesFrom, hc, if_neg Bool.false_ne_true, ih hcs, List.reverse_cons,
      List.append_assoc]
    · rfl
    · exact hreturn

/-- Lines that are joined by line feeds are the lines of the text. -/
theorem splitLines_joinWith {ls : List (List Char)}
    (h : ∀ l ∈ ls, l ≠ [] ∧ ∀ c ∈ l, isLineBreak c = false) :
    splitLines (joinWith ['\n'] ls) = ls := by
  induction ls with
  | nil => rfl
  | cons l rest ih =>
    obtain ⟨⟨hne, hl⟩, hrest⟩ := List.forall_mem_cons.mp h
    cases rest with
    | nil =>
      have hlast := linesFrom_append hl [] []
      rw [List.append_nil, List.append_nil, linesFrom, if_neg (by simpa using hne),
        List.reverse_reverse] at hlast
      exact hlast
    | cons next rest =>
      rw [joinWith, List.append_assoc, splitLines, linesFrom_append hl, List.append_nil,
        List.singleton_append, linesFrom, if_pos (by decide), List.reverse_reverse]
      · exact congrArg _ (ih hrest)
      · exact fun _ hr => absurd hr (by decide)

end Graphwright.Text
