import Graphwright.Module.Declaration
import Graphwright.Proofs.Types.Chain

/-!
# Marks for optional values

An expression around a chain of wrappers is a mark for optional values exactly if no non-null mark
is outermost (`isOptional_layered`), and no mark stands directly inside another one
(`marksOnce_layered`). Both can be read off the text of the expression, as long as the name inside
has no bracket (`isMark_text`, `doubleMark_not_infix`).

The names that references resolve to have none: classes consist of word characters, and the table of
scalars is free of brackets (`Mapper.not_mem_named`).
-/
namespace Graphwright.Naming

theorem isWord_of_mem_wordChars {c : Char} {cs : List Char} (h : c ∈ wordChars cs) :
    Text.isWord c := by
  have hcleaned : c ∈ cs.map (fun c => if Text.isWord c then c else '_') → Text.isWord c := by
    intro hmem
    obtain ⟨d, -, rfl⟩ := List.mem_map.mp hmem
    split
    · assumption
    · exact Text.isWord_underscore
  unfold wordChars at h
  dsimp only at h
  split at h
  · split at h
    · rcases List.mem_cons.mp h with rfl | h
      · exact Text.isWord_underscore
      · exact hcleaned h
    · exact hcleaned h
  · cases h

theorem isWord_of_mem_className {c : Char} {name : String} (h : c ∈ (className name).toList) :
    Text.isWord c := by
  have hcleaned : c ∈ (Text.onChars wordChars name).toList → Text.isWord c := by
    rw [Text.onChars, String.toList_ofList]
    exact isWord_of_mem_wordChars
  have hmarked : c ∈ (Text.onChars wordChars name ++ "_").toList → Text.isWord c := by
    rw [String.toList_append, List.mem_append]
    rintro (h | h)
    · exact hcleaned h
    · exact List.mem_singleton.mp h ▸ Text.isWord_underscore
  unfold className safeIdentifier at h
  dsimp only at h
  split at h
  · exact hmarked h
  · split at h
    · exact hmarked h
    · exact hcleaned h

theorem not_mem_className (name : String) : '[' ∉ (className name).toList :=
  fun h => absurd (isWord_of_mem_className h) (by decide)

end Graphwright.Naming

namespace Graphwright.Types

open Document (TypeRef)

/-! ## Marks in expressions -/

/-- The expression is a mark for optional values around another one. -/
def Expr.isOptional : Expr → Bool
  | optional _ => true
  | _ => false

/-- No mark for optional values stands directly inside another one. -/
def Expr.MarksOnce : Expr → Prop
  | name _ => True
  | list item => item.MarksOnce
  | optional inner => inner.isOptional = false ∧ inner.MarksOnce

theorem isOptional_layered (base : NamedType) (nullable : Bool) (chain : List Wrapper) :
    (layered base nullable chain).1.isOptional = (nullable && chain.head? ≠ some .nonNull) := by
  have hrequired (rest : List Wrapper) : (layered base false rest).1.isOptional = false := by
    induction rest with
    | nil => rfl
    | cons w rest ih =>
      cases w with
      | list => rfl
      | nonNull => exact ih
  cases nullable with
  | false => exact hrequired chain
  | true =>
    match chain with
    | [] | .list :: _ => rfl
    | .nonNull :: rest => exact hrequired rest

theorem marksOnce_layered (base : NamedType) (nullable : Bool) (chain : List Wrapper) :
    (layered base nullable chain).1.MarksOnce := by
  induction chain generalizing nullable with
  | nil => cases nullable <;> simp [layered, marked, Expr.MarksOnce, Expr.isOptional]
  | cons w rest ih =>
    cases w with
    | list => cases nullable <;> simp [layered, marked, Expr.MarksOnce, Expr.isOptional, ih]
    | nonNull => exact ih false

/-- What a reference resolves to is a mark unless a non-null mark is outermost, and has no mark
directly inside another one. -/
theorem marks_resolve (m : Mapper) (ref : TypeRef) (base? : Option NamedType) :
    let e := (m.resolve ref base?).expr
    e.isOptional = !ref.isNonNull ∧ e.MarksOnce ∧
    e.innermost = (base?.getD (m.named ref.base)).text := by
  intro e
  have he : e = (layered (base?.getD (m.named ref.base)) true (wrappersOf ref)).1 :=
    congrArg Prod.fst (wrap_eq _ ref)
  rw [he]
  refine ⟨?_, marksOnce_layered .., innermost_layered ..⟩
  rw [isOptional_layered, Bool.true_and, Bool.eq_iff_iff]
  simp [head?_wrappersOf]

/-! ## Marks in texts -/

/-- A mark for optional values around some text. -/
def IsMark (text : String) : Prop := ∃ inside, text = "Optional[" ++ inside ++ "]"

/-- How a mark begins with another one directly inside. -/
def doubleMark : String := "Optional[Optional["

theorem Expr.isOptional_of_prefix {e : Expr} (hplain : '[' ∉ e.innermost.toList)
    (h : "Optional[".toList <+: e.text.toList) : e.isOptional := by
  cases e with
  | name own => exact (hplain (h.subset (by decide))).elim
  | list item =>
    rw [text, String.toList_append, String.toList_append] at h
    exact absurd (List.cons_prefix_cons.mp h).1 (by decide)
  | optional inner => rfl

theorem Expr.isMark_text {e : Expr} (hplain : '[' ∉ e.innermost.toList) :
    IsMark e.text ↔ e.isOptional := by
  constructor
  · rintro ⟨inside, h⟩
    refine isOptional_of_prefix hplain ?_
    rw [h, String.append_assoc, String.toList_append]
    exact List.prefix_append _ _
  · intro h
    cases e with
    | name _ | list _ => cases h
    | optional inner => exact ⟨inner.text, rfl⟩

theorem Expr.doubleMark_not_infix {e : Expr} (hplain : '[' ∉ e.innermost.toList)
    (honce : e.MarksOnce) : ¬ doubleMark.toList <:+: e.text.toList := by
  have hhead : doubleMark.toList.head? = some 'O' := by decide
  have hclosing : doubleMark.toList.getLast? ≠ some ']' := by decide
  induction e with
  | name own => exact fun h => hplain (h.subset (by decide))
  | list item ih =>
    intro h
    rw [text, String.toList_append, String.toList_append] at h
    exact ih hplain honce (infix_of_append hhead (by decide) (infix_of_concat hclosing h))
  | optional inner ih =>
    intro h
    rw [text, String.toList_append, String.toList_append] at h
    have h := infix_of_concat hclosing h
    -- a double mark begins where this one does, and then another one is directly inside, or it
    -- begins further inside
    have hopening : "Optional[".toList = 'O' :: "ptional[".toList := by decide
    have hcases : doubleMark.toList <+: "Optional[".toList ++ inner.text.toList ∨
        doubleMark.toList <:+: "ptional[".toList ++ inner.text.toList := by
      rw [hopening] at h ⊢
      exact List.infix_cons_iff.mp h
    rcases hcases with h | h
    · have hdouble : doubleMark.toList = "Optional[".toList ++ "Optional[".toList := by decide
      rw [hdouble, List.prefix_append_right_inj] at h
      have hinner : inner.isOptional := isOptional_of_prefix hplain h
      rw [honce.1] at hinner
      cases hinner
    · exact ih hplain honce.2 (infix_of_append hhead (by decide) h)

/-! ## Names without brackets -/

/-- A mapper with the usual table of scalars, which puts no brackets into names. -/
structure Mapper.IsPlain (m : Mapper) : Prop where
  scalars : m.scalars = .initial
  replacements : m.replacements = []
  qualifier : '[' ∉ m.qualifier.toList

theorem Mapper.not_mem_named {m : Mapper} (h : m.IsPlain) (name : String) :
    '[' ∉ (m.named name).text.toList := by
  have hentries : ∀ e ∈ ScalarTable.initial.entries, '[' ∉ e.2.name.toList := by decide
  have hclass : '[' ∉ (m.qualifier ++ Naming.className name).toList := by
    rw [String.toList_append, List.mem_append, not_or]
    exact ⟨h.qualifier, Naming.not_mem_className name⟩
  unfold named
  rw [h.replacements, h.scalars, List.lookup_nil]
  dsimp only
  split_ifs
  · exact hclass
  · cases hget : ScalarTable.initial.get? name with
    | none => decide
    | some target =>
      obtain ⟨before, after, heq, -⟩ := List.lookup_eq_some_iff.mp hget
      have htarget : '[' ∉ target.name.toList := hentries (name, target) (by rw [heq]; simp)
      obtain ⟨text, none | source⟩ := target <;> exact htarget

end Graphwright.Types

namespace Graphwright.Module

open Graphwright.Types (Expr IsMark doubleMark)

/-! ## Fields of models -/

/-- A field defaults to nothing exactly if its type is a mark for optional values, and no such mark
stands directly inside another one. -/
structure Attribute.MarksOptional (r : Registry) (a : Attribute) : Prop where
  default_iff : a.default? = some "None" ↔ IsMark (a.annotation.text r)
  once : ¬ doubleMark.toList <:+: (a.annotation.text r).toList

theorem Attribute.marksOptional_of_text {r : Registry} {a : Attribute} {e : Expr}
    (htext : a.annotation.text r = e.text) (hplain : '[' ∉ e.innermost.toList) (honce : e.MarksOnce)
    (hdefault : a.default? = some "None" ↔ e.isOptional) :
    a.MarksOptional r where
  default_iff := by rw [htext, hdefault, Expr.isMark_text hplain]
  once := htext ▸ Expr.doubleMark_not_infix hplain honce

/-- The same of all fields of a model, and of those of the models of its members. -/
def Model.MarksOptional (r : Registry) (m : Model) : Prop :=
  ∀ m' ∈ m.all, ∀ a ∈ m'.attributes, a.MarksOptional r

/-- The same of a member, and of the fields of its model. -/
def Member.MarksOptional (r : Registry) : Member → Prop
  | leaf a => a.MarksOptional r
  | node a below => a.MarksOptional r ∧ below.MarksOptional r

theorem Member.MarksOptional.field {r : Registry} {x : Member} (h : x.MarksOptional r) :
    x.field.MarksOptional r := by
  cases x with
  | leaf a => exact h
  | node a below => exact h.1

theorem Model.marksOptional_mk {r : Registry} {name : String} {description? : Option String}
    {ms : List Member} (h : ∀ x ∈ ms, x.MarksOptional r) :
    (Model.mk name description? ms).MarksOptional r := by
  have hbelow : ∀ m ∈ Model.allBelow ms, ∀ a ∈ m.attributes, a.MarksOptional r := by
    clear name description?
    induction ms with
    | nil => exact nofun
    | cons x rest ih =>
      obtain ⟨hx, hrest⟩ := List.forall_mem_cons.mp h
      refine List.forall_mem_append.mpr ⟨?_, ih hrest⟩
      cases x with
      | leaf a => exact nofun
      | node a below => exact hx.2
  refine List.forall_mem_append.mpr ⟨hbelow, List.forall_mem_singleton.mpr fun a ha => ?_⟩
  obtain ⟨x, hx, rfl⟩ := List.mem_map.mp ha
  exact (h x hx).field

end Graphwright.Module
