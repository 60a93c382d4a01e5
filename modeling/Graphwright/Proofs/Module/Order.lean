import Graphwright.Module.Part
import Mathlib.Data.List.Basic

/-!
# What stands before what in a module

A module made of parts has the fragments of all parts, in their sections, before the further blocks
of any of them, however the parts are ordered (`Part.precedes_combine`). `Holds text part` says that
one text is found in another, and `Precedes text first second` that one is found before another in a
third.
-/
namespace Graphwright.Module

/-! ## Texts in a text -/

/-- The one text is found in the other. -/
def Holds (text part : String) : Prop := ∃ before after, text = before ++ part ++ after

/-- The one text is found in a text, and the other one behind it. -/
def Precedes (text first second : String) : Prop :=
  ∃ before after, text = before ++ first ++ after ∧ Holds after second

namespace Holds

theorem refl (text : String) : Holds text text := ⟨"", "", by simp⟩

theorem append_left {text part : String} (h : Holds text part) (more : String) :
    Holds (more ++ text) part := by
  obtain ⟨before, after, rfl⟩ := h
  exact ⟨more ++ before, after, by simp only [String.append_assoc]⟩

theorem append_right {text part : String} (h : Holds text part) (more : String) :
    Holds (text ++ more) part := by
  obtain ⟨before, after, rfl⟩ := h
  exact ⟨before, after ++ more, by simp only [String.append_assoc]⟩

theorem trans {text middle part : String} (h : Holds text middle) (h' : Holds middle part) :
    Holds text part := by
  obtain ⟨before, after, rfl⟩ := h
  exact (h'.append_left before).append_right after

theorem ne_empty {text part : String} (h : Holds text part) (hne : part ≠ "") : text ≠ "" := by
  obtain ⟨before, after, rfl⟩ := h
  simp [String.append_eq_empty_iff, hne]

theorem intercalate {texts : List String} {t : String} (h : t ∈ texts) (separator : String) :
    Holds (separator.intercalate texts) t := by
  induction texts with
  | nil => cases h
  | cons u rest ih =>
    cases rest with
    | nil =>
      rw [List.mem_singleton.mp h, String.intercalate_singleton]
      exact .refl u
    | cons v rest =>
      rw [String.intercalate_cons_cons]
      rcases List.mem_cons.mp h with rfl | h
      · exact ((Holds.refl t).append_right _).append_right _
      · exact (ih h).append_left _

theorem join {texts : List String} {t : String} (h : t ∈ texts) : Holds (String.join texts) t := by
  induction texts with
  | nil => cases h
  | cons u rest ih =>
    rw [String.join_cons]
    rcases List.mem_cons.mp h with rfl | h
    · exact (Holds.refl t).append_right _
    · exact (ih h).append_left _

end Holds

namespace Precedes

/-- Of two pieces of a separated text the one in front is found before the other. -/
theorem intercalate {texts more : List String} {t u : String} (ht : t ∈ texts) (hu : u ∈ more)
    (separator : String) : Precedes (separator.intercalate (texts ++ more)) t u := by
  obtain ⟨before, after, heq⟩ := Holds.intercalate ht separator
  refine ⟨before, after ++ separator ++ separator.intercalate more, ?_,
    (Holds.intercalate hu _).append_left _⟩
  rw [String.intercalate_append_of_ne_nil (List.ne_nil_of_mem ht) (List.ne_nil_of_mem hu), heq]
  simp only [String.append_assoc]

theorem append_right {text first second : String} (h : Precedes text first second) (more : String) :
    Precedes (text ++ more) first second := by
  obtain ⟨before, after, rfl, hafter⟩ := h
  exact ⟨before, after ++ more, by simp only [String.append_assoc], hafter.append_right more⟩

theorem holds {text first second part : String} (h : Precedes text first second)
    (hs : Holds second part) : Precedes text first part := by
  obtain ⟨before, after, rfl, hafter⟩ := h
  exact ⟨before, after, rfl, hafter.trans hs⟩

end Precedes

/-! ## Texts in a module -/

/-- A text that neither begins nor ends with a line feed is laid out as it is. -/
theorem strip_eq_self {text : String} (hfirst : text.toList.head? ≠ some '\n')
    (hlast : text.toList.getLast? ≠ some '\n') : Text.strip (· == '\n') text = text := by
  have hkept {cs : List Char} (h : cs.head? ≠ some '\n') : cs.dropWhile (· == '\n') = cs := by
    cases cs with
    | nil => rfl
    | cons c rest => exact List.dropWhile_cons_of_neg (by simpa using h)
  rw [Text.strip, Text.onChars, Text.trimBy, hkept hfirst, hkept (by rwa [List.head?_reverse]),
    List.reverse_reverse, String.ofList_toList]

theorem mem_nonempty {texts : List String} {t : String} (h : t ∈ texts) (hne : t ≠ "") :
    t ∈ nonempty texts :=
  List.mem_filter.mpr ⟨h, by simpa using hne⟩

theorem precedes_assemble {header? : Option String} {imports body extras : List String}
    {first second : String} (hfirst : first ∈ body) (hsecond : second ∈ extras) (hne : first ≠ "")
    (hne' : second ≠ "") :
    Precedes (assemble header? imports body extras none) (Text.strip (· == '\n') first)
      (Text.strip (· == '\n') second) := by
  unfold assemble
  dsimp only
  rw [List.map_append]
  refine (Precedes.intercalate
    (List.mem_map_of_mem ?_) (List.mem_map_of_mem ?_) _).append_right "\n"
  · exact List.mem_append_right _ (mem_nonempty hfirst hne)
  · exact mem_nonempty hsecond hne'

/-- **Order.** In a module made of parts, whatever their order, a section of a part stands before
the further blocks of any part. -/
theorem Part.precedes_combine {parts : List Part} {p q : Part} {first second : String}
    (hp : p ∈ parts) (hq : q ∈ parts) (hfirst : first ∈ bodySections p.body p.wrap?)
    (hsecond : second ∈ q.extras) (hne : first ≠ "") (hne' : second ≠ "") :
    Precedes (combine parts) (Text.strip (· == '\n') first) (Text.strip (· == '\n') second) := by
  cases parts with
  | nil => cases hp
  | cons r rest =>
    exact precedes_assemble (List.mem_flatMap.mpr ⟨p, hp, hfirst⟩)
      (List.mem_flatMap.mpr ⟨q, hq, hsecond⟩) hne hne'

end Graphwright.Module
