import Mathlib.Data.List.Basic
import Graphwright.Module.Declaration
import Graphwright.Proofs.Text.Fields

/-!
# Classes that derive from models

Every declaration of a module has one text for each class or alias. A text declares a model if its
first line opens a class that derives from the class of models; `modelClass?` reads the name of that
class. Enums, unions and mappings of variables open in other ways (`modelClass?_enum`,
`modelClass?_union`, `modelClass?_mapping`), so the models among the texts of a declaration are
those it has, in order (`filterMap_modelClass?_models`).
-/
namespace Graphwright.Module

open Graphwright.Types (Symbol)

/-! ## The class that a text declares -/

/-- What a text begins with, up to its first line feed. -/
def firstLine (text : String) : List Char := text.toList.takeWhile (· != '\n')

/-- The name of the model that a text declares: its first line is the keyword, the name and the
class of models in brackets. -/
def modelClass? (text : String) : Option String :=
  let name := ((firstLine text).drop 6).takeWhile (· != '(')
  if firstLine text = "class ".toList ++ name ++ "(BaseModel):".toList then
    some (String.ofList name) else none

theorem modelClass?_eq_some {text name : String} (hname : '(' ∉ name.toList)
    (h : firstLine text = "class ".toList ++ name.toList ++ "(BaseModel):".toList) :
    modelClass? text = some name := by
  have hread : ((firstLine text).drop 6).takeWhile (· != '(') = name.toList := by
    rw [h, List.append_assoc, List.drop_left' (by rfl), List.takeWhile_append_of_pos]
    · exact List.append_nil _
    · exact fun c hc => bne_iff_ne.mpr fun heq => hname (heq ▸ hc)
  rw [modelClass?]
  simp only [hread]
  rw [if_pos h, String.ofList_toList]

theorem modelClass?_eq_none {text : String}
    (h : ∀ name, firstLine text ≠ "class ".toList ++ name ++ "(BaseModel):".toList) :
    modelClass? text = none :=
  if_neg (h _)

/-- A class with another base that is written in as many characters is no model. -/
theorem modelClass?_of_base {text : String} {before base : List Char}
    (h : firstLine text = before ++ base) (hlength : base.length = 12)
    (hne : base ≠ "(BaseModel):".toList) : modelClass? text = none :=
  modelClass?_eq_none fun _ heq => hne (List.append_inj' (h.symm.trans heq) hlength).2

/-- The first line of a text that goes on below it. -/
theorem firstLine_intercalate {opening : String} (h : '\n' ∉ opening.toList) (more : List String) :
    firstLine ("\n".intercalate (opening :: more)) = opening.toList := by
  have hopening : ∀ c ∈ opening.toList, (c != '\n') = true :=
    fun c hc => bne_iff_ne.mpr fun heq => h (heq ▸ hc)
  rw [firstLine, Text.toList_intercalate, List.map_cons]
  cases more with
  | nil =>
    have hall : (opening.toList ++ []).takeWhile (· != '\n') =
        opening.toList ++ [].takeWhile (· != '\n') :=
      List.takeWhile_append_of_pos hopening
    simpa [Text.joinWith] using hall
  | cons next more =>
    rw [List.map_cons, Text.joinWith, List.append_assoc, List.takeWhile_append_of_pos hopening]
    exact List.append_nil _

theorem firstLine_classText {opening : String} (h : '\n' ∉ opening.toList)
    (sections : List (List String)) : firstLine (classText opening sections) = opening.toList :=
  firstLine_intercalate h _

/-! ## Classes by their first lines -/

theorem head?_commentLine (line : List Char) :
    (Declaration.commentLine line).toList.head? = some '#' := by
  have hreverse : ('#' :: ' ' :: line).reverse = (' ' :: line).reverse ++ ['#'] := List.reverse_cons
  rw [Declaration.commentLine, String.toList_ofList, hreverse, List.dropWhile_append]
  split
  · rfl
  · rw [List.reverse_append]
    rfl

def IsWordText (cs : List Char) : Prop := ∀ c ∈ cs, Text.isWord c

theorem IsWordText.not_mem {cs : List Char} (h : IsWordText cs) {c : Char}
    (hc : Text.isWord c = false) : c ∉ cs :=
  fun hmem => by simp [h c hmem] at hc

section Texts

variable {r : Registry} {name : String} (hname : IsWordText name.toList)

include hname

theorem modelClass?_model (hmodel : r.local modelSymbol = "BaseModel")
    (description? : Option String) (members : List Member) :
    modelClass? (Model.text r (.mk name description? members)) = some name := by
  refine modelClass?_eq_some (hname.not_mem (by decide)) ?_
  have hopening : ("class " ++ name ++ "(" ++ r.local modelSymbol ++ "):").toList =
      "class ".toList ++ name.toList ++ "(BaseModel):".toList := by
    rw [hmodel]
    simp
  have hfeed : '\n' ∉ "class ".toList ++ name.toList ++ "(BaseModel):".toList := by
    simpa using hname.not_mem (by decide)
  rw [Model.text, firstLine_classText (hopening ▸ hfeed), hopening]

theorem modelClass?_enum (henum : r.local enumSymbol = "Enum") (description? : Option String)
    (choices : List Choice) :
    ((Declaration.enum name description? choices).blocks r).filterMap modelClass? = [] := by
  have hopening : ("class " ++ name ++ "(str, " ++ r.local enumSymbol ++ "):").toList =
      "class ".toList ++ name.toList ++ "(str, Enum):".toList := by
    rw [henum]
    simp
  have hfeed : '\n' ∉ "class ".toList ++ name.toList ++ "(str, Enum):".toList := by
    simpa using hname.not_mem (by decide)
  refine List.filterMap_eq_nil_iff.mpr fun text htext => ?_
  obtain rfl := List.mem_singleton.mp htext
  exact modelClass?_of_base ((firstLine_classText (hopening ▸ hfeed) _).trans hopening)
    (by decide) (by decide)

/-- A union is no class, unless it is called like the keyword. -/
theorem modelClass?_union (hkeyword : name ≠ "class") (description? : Option String)
    (members : List String) :
    ((Declaration.union name description? members).blocks r).filterMap modelClass? = [] := by
  have hfeed : ∀ c ∈ name.toList, (c != '\n') = true :=
    fun c hc => bne_iff_ne.mpr fun heq => hname.not_mem (by decide) (heq ▸ hc)
  have hblank : ∀ c ∈ name.toList, (c != ' ') = true :=
    fun c hc => bne_iff_ne.mpr fun heq => hname.not_mem (by decide) (heq ▸ hc)
  refine List.filterMap_eq_nil_iff.mpr fun text htext => modelClass?_eq_none fun other heq => ?_
  obtain rfl := List.mem_singleton.mp htext
  cases hcomment : (Text.splitLines (description?.getD "").toList).map Declaration.commentLine with
  | nil =>
    rw [hcomment, List.nil_append, String.intercalate_singleton, firstLine] at heq
    simp only [String.toList_append, List.append_assoc, List.takeWhile_append_of_pos hfeed] at heq
    have hwords := congrArg (List.takeWhile (· != ' ')) heq
    rw [List.takeWhile_append_of_pos hblank] at hwords
    exact hkeyword (String.toList_inj.mp (by simpa using hwords))
  | cons comment more =>
    obtain ⟨rest, hrest⟩ : ∃ rest, comment.toList = ['#'] ++ rest := by
      obtain ⟨line, -, rfl⟩ := List.mem_map.mp (hcomment ▸ List.mem_cons_self)
      exact List.head?_eq_some_iff.mp (head?_commentLine line)
    rw [hcomment, firstLine, Text.toList_intercalate, List.cons_append, List.map_cons, hrest,
      Text.joinWith_append_cons] at heq
    exact absurd (List.cons.inj heq).1 (by decide)

end Texts

/-- The variables of an operation are a class with another base, or no class at all. -/
theorem modelClass?_mapping {r : Registry} (hmapping : r.local mappingSymbol = "TypedDict")
    {v : Variables} (hname : IsWordText v.name.toList) : modelClass? (v.text r) = none := by
  have hfeed : '\n' ∉ v.name.toList := hname.not_mem (by decide)
  rw [Variables.text, hmapping]
  split
  · have hopening : ("class " ++ v.name ++ "(" ++ "TypedDict" ++ "):").toList =
        "class ".toList ++ v.name.toList ++ "(TypedDict):".toList := by simp
    have hopeningFeed : '\n' ∉ ("class " ++ v.name ++ "(" ++ "TypedDict" ++ "):").toList := by
      simpa using hfeed
    exact modelClass?_of_base ((firstLine_classText hopeningFeed _).trans hopening)
      (by decide) (by decide)
  · refine modelClass?_eq_none fun name heq => ?_
    rw [List.cons_append, firstLine_intercalate (by simpa using hfeed)] at heq
    have hlast := congrArg List.getLast? heq
    simp [List.getLast?_cons] at hlast

/-- **Models.** The texts of a model declare it and those of its members, in order. -/
theorem filterMap_modelClass?_models {r : Registry} (hmodel : r.local modelSymbol = "BaseModel")
    {m : Model} (h : ∀ n ∈ m.names, IsWordText n.toList) :
    ((Declaration.model m).blocks r).filterMap modelClass? = m.names := by
  rw [Declaration.blocks, List.filterMap_map, Model.names, ← List.filterMap_eq_map]
  refine List.filterMap_congr fun below hbelow => ?_
  obtain ⟨name, description?, members⟩ := below
  exact modelClass?_model (h name (List.mem_map_of_mem hbelow)) hmodel description? members

end Graphwright.Module
