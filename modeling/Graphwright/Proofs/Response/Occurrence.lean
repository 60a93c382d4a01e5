import Graphwright.Proofs.Response.Inlining
import Graphwright.Proofs.Response.Joining

/-!
# Occurrences of fields

Where selections select a field, and under what. With the spreads of a document expanded in place
(`inPlace`), the occurrences of fields in a selection set are those outside and inside of its inline
fragments, in order; each stands under guards, the outermost first. Fields with one key have their
selection sets read one after the other, so the occurrences at a path (`occurrencesAt`) may come
from selection sets that are far apart.

Collecting joins what it finds at every inline fragment, spread and field, on the way up. What comes
out follows the occurrences nevertheless:

* `asks_follows`: the fields that selections without spreads ask for follow the occurrences in them.
* `asks_inPlace`: a document asks for the same with its spreads expanded in place.
-/
namespace Graphwright.Response

open Document Relation

/-! ## Fragments at hand -/

/-- The fragments at hand while one of them is expanded. -/
def without (available : List (String × Fragment)) (name : String) : List (String × Fragment) :=
  available.filter (·.1 != name)

theorem length_without_lt {available : List (String × Fragment)} {name : String}
    (h : (available.lookup name).isSome) : (without available name).length < available.length := by
  obtain ⟨p, hp, rfl⟩ := exists_mem_of_lookup h
  exact List.length_filter_lt_length_iff_exists.mpr ⟨p, hp, by simp⟩

theorem lookup_without (available : List (String × Fragment)) (name n : String) :
    (without available name).lookup n = if n = name then none else available.lookup n := by
  induction available with
  | nil => simp [without]
  | cons p rest ih =>
    simp only [without] at ih ⊢
    by_cases hp : p.1 = name
    · rw [List.filter_cons_of_neg (by simp [hp]), ih, List.lookup_cons]
      by_cases hn : n = name
      · simp [hn]
      · rw [if_neg hn, if_neg hn, hp, beq_false_of_ne hn]
    · rw [List.filter_cons_of_pos (by simpa using hp), List.lookup_cons, List.lookup_cons, ih]
      by_cases hn : n = name
      · simp [hn, beq_false_of_ne (Ne.symm hp)]
      · simp [hn]

/-! ## Spreads expanded in place -/

mutual

/-- A selection with the spreads of the fragments at hand expanded in place. -/
def inPlaceOne (available : List (String × Fragment)) (s : Selection) : Selection :=
  match s with
  | .field alias? name arguments ds none => .field alias? name arguments ds none
  | .field alias? name arguments ds (some sub) =>
    .field alias? name arguments ds (some (inPlace available sub))
  | .inline on? ds sub => .inline on? ds (inPlace available sub)
  | .spread name ds =>
    match _h : available.lookup name with
    | none => .spread name ds
    | some f => .inline (some f.on) ds (inPlace (without available name) f.selections)
termination_by (available.length, sizeOf s)
decreasing_by
  · exact Prod.Lex.right _ (by rw [Selection.field.sizeOf_spec, Option.some.sizeOf_spec]; omega)
  · exact Prod.Lex.right _ (by rw [Selection.inline.sizeOf_spec]; omega)
  · exact Prod.Lex.left _ _ (length_without_lt (by rw [_h]; rfl))

/-- Selections with the spreads of the fragments at hand expanded in place. -/
def inPlace (available : List (String × Fragment)) (ss : List Selection) : List Selection :=
  match ss with
  | [] => []
  | s :: rest => inPlaceOne available s :: inPlace available rest
termination_by (available.length, sizeOf ss)

end

/-- Every fragment that the names lead to is at hand. -/
def AtHand (fragments available : List (String × Fragment)) (names : List String) : Prop :=
  ∀ m ∈ names, ∀ n, ReflTransGen (Spreads fragments) m n → available.lookup n = fragments.lookup n

theorem atHand_mono {fragments available : List (String × Fragment)} {names names' : List String}
    (h : AtHand fragments available names) (hs : ∀ m ∈ names', m ∈ names) :
    AtHand fragments available names' :=
  fun m hm => h m (hs m hm)

theorem atHand_without {fragments available : List (String × Fragment)} {name : String}
    {f : Fragment} (h : AtHand fragments available [name]) (hf : fragments.lookup name = some f)
    (hterm : Terminates fragments name) :
    AtHand fragments (without available name) (spreadsIn f.selections) := by
  intro m hm n hmn
  have hs : Spreads fragments name m := ⟨f, hf, hm⟩
  have hne : n ≠ name := by
    rintro rfl
    exact hterm.not_reaches (TransGen.head' hs hmn)
  rw [lookup_without, if_neg hne]
  exact h name (by simp) n (.head hs hmn)

/-- Expanding the selections in place is inlining, and leaves no spread. -/
def Expanded (fragments available : List (String × Fragment)) (ss : List Selection) : Prop :=
  Inlines fragments ss (inPlace available ss) ∧ spreadsIn (inPlace available ss) = []

section Expanded

variable {fragments available : List (String × Fragment)} {rest : List Selection}

theorem expanded_leaf (alias? : Option String) (name : String) (arguments : List (String × Value))
    (ds : List Directive) (h : Expanded fragments available rest) :
    Expanded fragments available (.field alias? name arguments ds none :: rest) := by
  rw [Expanded, inPlace, inPlaceOne]
  exact ⟨.leaf h.1, h.2⟩

theorem expanded_node {sub : List Selection} (alias? : Option String) (name : String)
    (arguments : List (String × Value)) (ds : List Directive)
    (hs : Expanded fragments available sub) (h : Expanded fragments available rest) :
    Expanded fragments available (.field alias? name arguments ds (some sub) :: rest) := by
  rw [Expanded, inPlace, inPlaceOne]
  refine ⟨.node hs.1 h.1, ?_⟩
  rw [spreadsIn, Selection.spreads, spreadsBelow, hs.2, h.2]
  rfl

theorem expanded_inline {sub : List Selection} (on? : Option String) (ds : List Directive)
    (hs : Expanded fragments available sub) (h : Expanded fragments available rest) :
    Expanded fragments available (.inline on? ds sub :: rest) := by
  rw [Expanded, inPlace, inPlaceOne]
  refine ⟨.inline hs.1 h.1, ?_⟩
  rw [spreadsIn, Selection.spreads, hs.2, h.2]
  rfl

theorem expanded_spread {name : String} {f : Fragment} (ds : List Directive)
    (hf : fragments.lookup name = some f) (ha : available.lookup name = some f)
    (hs : Expanded fragments (without available name) f.selections)
    (h : Expanded fragments available rest) :
    Expanded fragments available (.spread name ds :: rest) := by
  have hone : inPlaceOne available (.spread name ds) =
      .inline (some f.on) ds (inPlace (without available name) f.selections) := by
    rw [inPlaceOne]
    split
    · rename_i hnone
      cases ha.symm.trans hnone
    · rename_i g hg
      obtain rfl : f = g := Option.some.inj (ha.symm.trans hg)
      rfl
  rw [Expanded, inPlace, hone]
  refine ⟨.inlined hf hs.1 h.1, ?_⟩
  rw [spreadsIn, Selection.spreads, hs.2, h.2]
  rfl

end Expanded

/-- With all fragments at hand that they lead to, selections that ask for fields can be expanded. -/
theorem expanded_of_asks {env : Env} {parent? : Option TypeDefinition} {ss : List Selection}
    {fields : List Field} (h : Asks env parent? ss fields) :
    ∀ available, AtHand env.fragments available (spreadsIn ss) →
    Expanded env.fragments available ss := by
  have hfirst : ∀ {available first rest}, AtHand env.fragments available (first ++ rest) →
      AtHand env.fragments available first :=
    fun ha => atHand_mono ha fun _ hm => List.mem_append_left _ hm
  have hrest : ∀ {available first rest}, AtHand env.fragments available (first ++ rest) →
      AtHand env.fragments available rest :=
    fun ha => atHand_mono ha fun _ hm => List.mem_append_right _ hm
  induction h with
  | nil =>
    intro available _
    rw [Expanded, inPlace]
    exact ⟨.nil, rfl⟩
  | typename _ ih => exact fun available ha => expanded_leaf _ _ _ _ (ih available ha)
  | leaf _ _ _ ih => exact fun available ha => expanded_leaf _ _ _ _ (ih available ha)
  | typenameOver _ _ ihs ih =>
    exact fun available ha =>
      expanded_node _ _ _ _ (ihs available (hfirst ha)) (ih available (hrest ha))
  | node _ _ _ _ ihs ih =>
    exact fun available ha =>
      expanded_node _ _ _ _ (ihs available (hfirst ha)) (ih available (hrest ha))
  | inline _ _ ihs ih =>
    exact fun available ha =>
      expanded_inline _ _ (ihs available (hfirst ha)) (ih available (hrest ha))
  | @spread _ name _ f _ _ _ hf ht hb _ ihs ih =>
    intro available ha
    have hname : AtHand env.fragments available [name] := hfirst ha
    have hterm : Terminates env.fragments name := by
      have h : Asks env none [.spread name []] _ := .spread hf ht hb .nil
      exact h.terminates name List.mem_cons_self
    have hlookup : available.lookup name = some f := (hname name (by simp) name .refl).trans hf
    exact expanded_spread _ hf hlookup (ihs _ (atHand_without hname hf hterm))
      (ih available (hrest ha))

/-- A document asks for the same with its spreads expanded in place. -/
theorem asks_inPlace {env : Env} {parent? : Option TypeDefinition} {ss : List Selection}
    {fields : List Field} (h : Asks env parent? ss fields) :
    Asks env parent? (inPlace env.fragments ss) fields ∧
    spreadsIn (inPlace env.fragments ss) = [] := by
  obtain ⟨hi, hs⟩ := expanded_of_asks h env.fragments fun _ _ _ _ => rfl
  exact ⟨asks_inlined (.refl env) h _ hi, hs⟩

/-! ## Occurrences -/

/-- What a field or an inline fragment is selected under: its directives, its type condition, and
the type that it is selected on. -/
structure Guard where
  directives : List Directive
  on? : Option String
  parent? : Option TypeDefinition

/-- The guard may leave out what is selected under it. -/
def Guard.mayFail (g : Guard) : Bool := hasCondition g.directives || isElsewhere g.on? g.parent?

/-- Selections, and the type they are made on. -/
structure Scope where
  parent? : Option TypeDefinition
  selections : List Selection

/-- A field where it is selected, under the guards within its selection set. -/
structure Occurrence where
  key : String
  name : String
  guards : List Guard
  parent? : Option TypeDefinition
  selections? : Option (List Selection)

/-- The occurrence of a field outside of inline fragments. -/
def Occurrence.ofField (parent? : Option TypeDefinition) (key name : String) (ds : List Directive)
    (sub? : Option (List Selection)) : Occurrence :=
  ⟨key, name, [⟨ds, none, parent?⟩], parent?, sub?⟩

mutual

def occurrencesOf (s : Schema) (parent? : Option TypeDefinition) : Selection → List Occurrence
  | .field alias? name _ ds sub? => [.ofField parent? (alias?.getD name) name ds sub?]
  | .inline on? ds sub =>
    (occurrences s (inlineType s parent? on?) sub).map fun o =>
      { o with guards := ⟨ds, on?, parent?⟩ :: o.guards }
  | .spread _ _ => []

def occurrences (s : Schema) (parent? : Option TypeDefinition) : List Selection → List Occurrence
  | [] => []
  | selection :: rest => occurrencesOf s parent? selection ++ occurrences s parent? rest

end

def Scope.occurrences (s : Schema) (sc : Scope) : List Occurrence :=
  Response.occurrences s sc.parent? sc.selections

namespace Occurrence

/-- The type of the field. The name of the object's own type has none. -/
def type? (s : Schema) (o : Occurrence) : Option TypeRef :=
  if o.name = "__typename" then none else fieldTypeOn s o.parent? o.name

def written? (s : Schema) (o : Occurrence) : Option Scope :=
  o.selections?.map fun sub => ⟨s.compositeBase? (fieldTypeOn s o.parent? o.name), sub⟩

/-- The selections below the field. A field without a type is a leaf, whatever is written below
it. -/
def below? (s : Schema) (o : Occurrence) : Option Scope :=
  if (o.type? s).isSome then o.written? s else none

/-- The field may be left out where its selection set is read. -/
def isConditional (o : Occurrence) : Bool := o.guards.any (·.mayFail)

/-- What is found of an occurrence at its place. -/
def finding (s : Schema) (o : Occurrence) : Finding :=
  ⟨o.key, o.type? s, (o.below? s).isSome, o.isConditional⟩

end Occurrence

/-- The occurrences at a path, where `sub?` says what is below an occurrence. -/
def occurrencesAt (s : Schema) (sub? : Occurrence → Option Scope) :
    List String → List Occurrence → List Occurrence
  | [], os => os
  | key :: path, os =>
    occurrencesAt s sub? path
      ((os.filter (·.key == key)).flatMap fun o => (sub? o).toList.flatMap (·.occurrences s))

def surveyOfOccurrences (s : Schema) (os : List Occurrence) : Survey :=
  fun path => (occurrencesAt s (·.below? s) path os).map (·.finding s)

/-! ## What selections ask for follows their occurrences -/

section Follows

variable {s : Schema}

theorem occurrencesAt_append (sub? : Occurrence → Option Scope) (path : List String) :
    ∀ os os' : List Occurrence, occurrencesAt s sub? path (os ++ os') =
      occurrencesAt s sub? path os ++ occurrencesAt s sub? path os' := by
  induction path with
  | nil => intro os os'; rfl
  | cons key path ih =>
    intro os os'
    simp only [occurrencesAt, List.filter_append, List.flatMap_append, ih]

theorem occurrencesAt_nil (sub? : Occurrence → Option Scope) (path : List String) :
    occurrencesAt s sub? path [] = [] := by
  induction path with
  | nil => rfl
  | cons key path ih => exact ih

/-- What holds of some occurrences, and of those below where it holds, holds at every path. -/
theorem forall_occurrencesAt {sub? : Occurrence → Option Scope} {P : Occurrence → Prop}
    (hsub : ∀ o sc, P o → sub? o = some sc → ∀ o' ∈ sc.occurrences s, P o') (path : List String) :
    ∀ os, (∀ o ∈ os, P o) → ∀ o ∈ occurrencesAt s sub? path os, P o := by
  induction path with
  | nil => intro os h; exact h
  | cons key path ih =>
    intro os h
    refine ih _ fun o ho => ?_
    obtain ⟨o', ho', hmem⟩ := List.mem_flatMap.mp ho
    obtain ⟨sc, hsc, hmem⟩ := List.mem_flatMap.mp hmem
    exact hsub o' sc (h o' (List.mem_filter.mp ho').1) (Option.mem_toList.mp hsc) o hmem

theorem surveyOfOccurrences_append (os os' : List Occurrence) :
    surveyOfOccurrences s (os ++ os') =
      (surveyOfOccurrences s os).append (surveyOfOccurrences s os') := by
  funext path
  simp [surveyOfOccurrences, Survey.append, occurrencesAt_append]

theorem surveyOfOccurrences_node (o : Occurrence) :
    surveyOfOccurrences s [o] =
      (surveyOfOccurrences s ((o.below? s).toList.flatMap (·.occurrences s))).node
        (o.finding s) := by
  funext path
  cases path with
  | nil => rfl
  | cons key path =>
    have hkey : (o.finding s).key = o.key := rfl
    by_cases hk : o.key = key
    · simp [surveyOfOccurrences, Survey.node, occurrencesAt, hkey, hk]
    · simp [surveyOfOccurrences, Survey.node, occurrencesAt, hkey, hk, occurrencesAt_nil]

theorem surveyOfOccurrences_mark (g : Guard) (os : List Occurrence) :
    surveyOfOccurrences s (os.map fun o => { o with guards := g :: o.guards }) =
      (surveyOfOccurrences s os).mark g.mayFail := by
  funext path
  cases path with
  | nil =>
    simp only [surveyOfOccurrences, occurrencesAt, Survey.mark, List.map_map]
    rfl
  | cons key path =>
    simp only [surveyOfOccurrences, occurrencesAt, Survey.mark, List.filter_map, List.flatMap_map]
    rfl

theorem follows_cons {f : Field} {fs : List Field} {o : Occurrence} {os : List Occurrence}
    (he : f.finding = o.finding s)
    (hb : Follows (surveyOf (f.children?.getD []))
      (surveyOfOccurrences s ((o.below? s).toList.flatMap (·.occurrences s))))
    (hr : Follows (surveyOf fs) (surveyOfOccurrences s os)) :
    Follows (surveyOf (f :: fs)) (surveyOfOccurrences s (o :: os)) := by
  have hf : surveyOf (f :: fs) = _ := surveyOf_append [f] fs
  have ho : surveyOfOccurrences s (o :: os) = _ := surveyOfOccurrences_append [o] os
  rw [hf, ho, surveyOf_node, surveyOfOccurrences_node, he]
  exact (hb.node _).append hr

theorem follows_nil : Follows (surveyOf []) (surveyOfOccurrences s []) := by
  have h : surveyOf [] = surveyOfOccurrences s [] := by
    funext path
    simp [surveyOf, surveyOfOccurrences, fieldsAt_nil, occurrencesAt_nil]
  exact h ▸ .refl _

theorem isConditional_field (parent? : Option TypeDefinition) (key name : String)
    (ds : List Directive) (sub? : Option (List Selection)) :
    (Occurrence.ofField parent? key name ds sub?).isConditional = hasCondition ds := by
  simp [Occurrence.ofField, Occurrence.isConditional, Guard.mayFail, isElsewhere]

theorem finding_typename (parent? : Option TypeDefinition) (key : String) (ds : List Directive)
    (sub? : Option (List Selection)) :
    (Occurrence.ofField parent? key "__typename" ds sub?).finding s =
      ⟨key, none, false, hasCondition ds⟩ := by
  simp only [Occurrence.finding, isConditional_field]
  rfl

theorem finding_field {parent? : Option TypeDefinition} {name : String} {type : TypeRef}
    (hn : name ≠ "__typename") (ht : fieldTypeOn s parent? name = some type) (key : String)
    (ds : List Directive) (sub? : Option (List Selection)) :
    (Occurrence.ofField parent? key name ds sub?).finding s =
      ⟨key, some type, sub?.isSome, hasCondition ds⟩ ∧
    (Occurrence.ofField parent? key name ds sub?).below? s =
      sub?.map fun sub => ⟨s.compositeBase? (some type), sub⟩ := by
  have htype : (Occurrence.ofField parent? key name ds sub?).type? s = some type := by
    simp [Occurrence.ofField, Occurrence.type?, hn, ht]
  have hbelow : (Occurrence.ofField parent? key name ds sub?).below? s =
      sub?.map fun sub => ⟨s.compositeBase? (some type), sub⟩ := by
    rw [Occurrence.below?, htype]
    simp [Occurrence.written?, Occurrence.ofField, ht]
  refine ⟨?_, hbelow⟩
  rw [Occurrence.finding, isConditional_field, htype, hbelow, Option.isSome_map]
  rfl

/-- **Collecting.** The fields that selections without spreads ask for follow the occurrences in
them. -/
theorem asks_follows {env : Env} {parent? : Option TypeDefinition} {ss : List Selection}
    {fields : List Field} (h : Asks env parent? ss fields) (hs : spreadsIn ss = []) :
    Follows (surveyOf fields)
      (surveyOfOccurrences env.schema (occurrences env.schema parent? ss)) := by
  induction h with
  | nil => exact follows_nil
  | @typename parent? alias? _ ds _ _ _ ih =>
    exact follows_cons (finding_typename parent? _ ds none).symm follows_nil (ih hs)
  | @typenameOver parent? alias? _ ds sub _ _ _ _ _ _ ih =>
    rw [spreadsIn, List.append_eq_nil_iff] at hs
    exact follows_cons (finding_typename parent? _ ds (some sub)).symm follows_nil (ih hs.2)
  | @leaf parent? alias? _ _ ds _ _ _ hn ht _ ih =>
    obtain ⟨he, hb⟩ := finding_field hn ht (alias?.getD _) ds none
    refine follows_cons he.symm ?_ (ih hs)
    rw [hb]
    exact follows_nil
  | @node parent? alias? _ _ ds _ sub _ _ _ hn ht _ _ ihs ih =>
    rw [spreadsIn, List.append_eq_nil_iff] at hs
    obtain ⟨he, hb⟩ := finding_field hn ht (alias?.getD _) ds (some sub)
    refine follows_cons he.symm ?_ (ih hs.2)
    rw [hb]
    simpa [Scope.occurrences, Field.children?] using (follows_merge _).trans (ihs hs.1)
  | inline _ _ ihs ih =>
    rw [spreadsIn, List.append_eq_nil_iff] at hs
    rw [occurrences, occurrencesOf, surveyOf_append, surveyOfOccurrences_append, surveyOf_mark,
      surveyOfOccurrences_mark]
    exact (((follows_merge _).trans (ihs hs.1)).mark _).append (ih hs.2)
  | spread => cases hs

end Follows

theorem Asks.orderly {env : Env} {parent? : Option TypeDefinition} {ss : List Selection}
    {fields : List Field} (h : Asks env parent? ss fields) : Orderly fields := by
  have hleaf : ∀ {name type? conditional}, Orderly [.mk name type? none conditional] := by
    intro name type? conditional f hf own hc
    rw [List.mem_singleton.mp hf] at hc
    cases hc
  have hnode : ∀ {name type? conditional below}, Orderly below →
      Orderly [.mk name type? (some (merge below)) conditional] := by
    intro name type? conditional below hb f hf own hc
    rw [List.mem_singleton.mp hf] at hc
    cases hc
    exact distinct_merge hb
  induction h with
  | nil => intro f hf; cases hf
  | typename _ ih => exact orderly_append hleaf ih
  | typenameOver _ _ _ ih => exact orderly_append hleaf ih
  | leaf _ _ _ ih => exact orderly_append hleaf ih
  | node _ _ _ _ ihs ih => exact orderly_append (hnode ihs) ih
  | inline _ _ ihs ih => exact orderly_append (orderly_mark _ (distinct_merge ihs).orderly) ih
  | spread _ _ _ _ ihs ih => exact orderly_append (orderly_mark _ (distinct_merge ihs).orderly) ih

end Graphwright.Response
