import Mathlib.Data.List.Nodup

/-!
# Lists

`eraseDups` keeps the first of equal entries. What it leaves has no repetition, and it leaves alone
what has none.

A list that is found between two ends is found inside of them, if it can neither begin in the one
nor end with the other. What holds of all entries of some lists and of what sets them apart holds of
all entries of the whole.
-/
namespace Graphwright

/-! ## First occurrences -/

theorem nodup_eraseDups {α : Type} [BEq α] [LawfulBEq α] : ∀ xs : List α, xs.eraseDups.Nodup
  | [] => .nil
  | x :: xs => by
    rw [List.eraseDups_cons, List.nodup_cons]
    exact ⟨by simp, nodup_eraseDups _⟩
termination_by xs => xs.length
decreasing_by exact Nat.lt_succ_of_le (List.length_filter_le _ _)

theorem eraseDups_of_nodup {α : Type} [BEq α] [LawfulBEq α] {xs : List α} (h : xs.Nodup) :
    xs.eraseDups = xs := by
  induction h with
  | nil => rfl
  | cons hx _ ih =>
    rw [List.eraseDups_cons, List.filter_eq_self.mpr fun y hy => by simpa using (hx y hy).symm, ih]

/-! ## Lists that are set apart -/

theorem forall_mem_intercalate {α : Type} {P : α → Prop} {separator : List α} {xss : List (List α)}
    (hseparator : ∀ x ∈ separator, P x) (h : ∀ xs ∈ xss, ∀ x ∈ xs, P x) :
    ∀ x ∈ separator.intercalate xss, P x := by
  induction xss with
  | nil => exact nofun
  | cons xs rest ih =>
    obtain ⟨hxs, hrest⟩ := List.forall_mem_cons.mp h
    cases rest with
    | nil => simpa using hxs
    | cons next more =>
      rw [List.intercalate_cons_cons]
      exact List.forall_mem_append.mpr ⟨List.forall_mem_append.mpr ⟨hxs, hseparator⟩, ih hrest⟩

/-! ## Lists inside of others -/

section Inside

variable {α : Type} {xs inside : List α}

theorem infix_of_append {first : α} {before : List α} (hhead : xs.head? = some first)
    (hfirst : first ∉ before) (h : xs <:+: before ++ inside) : xs <:+: inside := by
  induction before with
  | nil => exact h
  | cons b rest ih =>
    rcases List.infix_cons_iff.mp h with h | h
    · rcases List.prefix_cons_iff.mp h with rfl | ⟨_, rfl, -⟩
      · exact List.nil_infix
      · exact (hfirst (Option.some.inj hhead ▸ List.mem_cons_self)).elim
    · exact ih (fun hmem => hfirst (List.mem_cons_of_mem _ hmem)) h

theorem infix_of_concat {last : α} (hlast : xs.getLast? ≠ some last)
    (h : xs <:+: inside ++ [last]) : xs <:+: inside := by
  rcases List.infix_concat_iff.mp h with h | h
  · rcases List.suffix_concat_iff.mp h with rfl | ⟨_, rfl, -⟩
    · exact List.nil_infix
    · exact (hlast List.getLast?_concat).elim
  · exact h

end Inside

end Graphwright
