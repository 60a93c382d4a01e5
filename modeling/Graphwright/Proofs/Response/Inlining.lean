import Mathlib.Data.List.Forall2
import Graphwright.Proofs.Response.Shapes

/-!
# Spreads and the inline fragments they stand for

A spread goes through the memory of expanded fragments and starts from the type of its fragment; an
inline fragment is read in place, with the type that is at hand. `Inlines fragments ss ss'` says
that `ss'` is `ss` with some spreads replaced by inline fragments of their fragments' selections,
and the two ask for the same fields (`asks_inlined`): by induction on what `ss` asks for, also where
the selections of the fragments themselves have been changed.

* `part_of_inlined`: with one spread of the documents replaced, a run that answered a part answers
  the same part: header, imports, the text of every block, and the names of the models.
-/
namespace Graphwright.Response

open Document

/-! ## Replacing spreads in selections -/

/-- One spread is replaced by the inline fragment it stands for, under the directives of the
spread. -/
inductive InlinesOne (fragments : List (String × Fragment)) : List Selection → List Selection → Prop
  | spread {name ds f rest} : fragments.lookup name = some f →
      InlinesOne fragments (.spread name ds :: rest) (.inline (some f.on) ds f.selections :: rest)
  | field {alias? name arguments ds sub sub' rest} : InlinesOne fragments sub sub' →
      InlinesOne fragments (.field alias? name arguments ds (some sub) :: rest)
        (.field alias? name arguments ds (some sub') :: rest)
  | inline {on? ds sub sub' rest} : InlinesOne fragments sub sub' →
      InlinesOne fragments (.inline on? ds sub :: rest) (.inline on? ds sub' :: rest)
  | later {s rest rest'} : InlinesOne fragments rest rest' →
      InlinesOne fragments (s :: rest) (s :: rest')

/-- Any spreads are replaced, also those within the selections that come in. -/
inductive Inlines (fragments : List (String × Fragment)) : List Selection → List Selection → Prop
  | nil : Inlines fragments [] []
  | leaf {alias? name arguments ds rest rest'} : Inlines fragments rest rest' →
      Inlines fragments (.field alias? name arguments ds none :: rest)
        (.field alias? name arguments ds none :: rest')
  | node {alias? name arguments ds sub sub' rest rest'} : Inlines fragments sub sub' →
      Inlines fragments rest rest' →
      Inlines fragments (.field alias? name arguments ds (some sub) :: rest)
        (.field alias? name arguments ds (some sub') :: rest')
  | inline {on? ds sub sub' rest rest'} : Inlines fragments sub sub' →
      Inlines fragments rest rest' →
      Inlines fragments (.inline on? ds sub :: rest) (.inline on? ds sub' :: rest')
  | spread {name ds rest rest'} : Inlines fragments rest rest' →
      Inlines fragments (.spread name ds :: rest) (.spread name ds :: rest')
  | inlined {name ds f sub' rest rest'} : fragments.lookup name = some f →
      Inlines fragments f.selections sub' → Inlines fragments rest rest' →
      Inlines fragments (.spread name ds :: rest) (.inline (some f.on) ds sub' :: rest')

variable {fragments : List (String × Fragment)}

mutual

theorem inlines_refl : ∀ ss : List Selection, Inlines fragments ss ss
  | [] => .nil
  | s :: rest => inlines_cons s (inlines_refl rest)

theorem inlines_cons {rest rest' : List Selection} (s : Selection)
    (h : Inlines fragments rest rest') : Inlines fragments (s :: rest) (s :: rest') := by
  cases s with
  | field alias? name arguments ds sub? =>
    cases sub? with
    | none => exact .leaf h
    | some sub => exact .node (inlines_refl sub) h
  | inline on? ds sub => exact .inline (inlines_refl sub) h
  | spread name ds => exact .spread h

end

theorem InlinesOne.inlines {ss ss' : List Selection} (h : InlinesOne fragments ss ss') :
    Inlines fragments ss ss' := by
  induction h with
  | spread hf => exact .inlined hf (inlines_refl _) (inlines_refl _)
  | field _ ih => exact .node ih (inlines_refl _)
  | inline _ ih => exact .inline ih (inlines_refl _)
  | later _ ih => exact inlines_cons _ ih

/-- The same schema, and fragments of the same types with spreads replaced in their selections. -/
structure Inlined (env env' : Env) : Prop where
  schema : env'.schema = env.schema
  lookup : ∀ name f, env.fragments.lookup name = some f →
    ∃ f', env'.fragments.lookup name = some f' ∧
    f'.on = f.on ∧ Inlines env.fragments f.selections f'.selections

theorem Inlined.refl (env : Env) : Inlined env env :=
  ⟨rfl, fun _ f h => ⟨f, h, rfl, inlines_refl _⟩⟩

/-- Replacing spreads does not change what selections ask for. -/
theorem asks_inlined {env env' : Env} (he : Inlined env env') {parent? : Option TypeDefinition}
    {ss : List Selection} {fields : List Field} (h : Asks env parent? ss fields) :
    ∀ ss', Inlines env.fragments ss ss' → Asks env' parent? ss' fields := by
  obtain ⟨s, fragments'⟩ := env'
  obtain rfl : s = env.schema := he.schema
  induction h with
  | nil => intro _ hi; cases hi; exact .nil
  | typename _ ih =>
    intro _ hi
    cases hi with
    | leaf hr => exact .typename (ih _ hr)
  | typenameOver _ _ ihs ih =>
    intro _ hi
    cases hi with
    | node hs hr => exact .typenameOver (ihs _ hs) (ih _ hr)
  | leaf hn ht _ ih =>
    intro _ hi
    cases hi with
    | leaf hr => exact .leaf hn ht (ih _ hr)
  | node hn ht _ _ ihs ih =>
    intro _ hi
    cases hi with
    | node hs hr => exact .node hn ht (ihs _ hs) (ih _ hr)
  | inline _ _ ihs ih =>
    intro _ hi
    cases hi with
    | inline hs hr => exact .inline (ihs _ hs) (ih _ hr)
  | spread hf ht _ _ ihs ih =>
    intro _ hi
    cases hi with
    | spread hr =>
      obtain ⟨f', hf', hon, hs⟩ := he.lookup _ _ hf
      rw [← hon] at ht ihs ⊢
      exact .spread hf' ht (ihs _ hs) (ih _ hr)
    | inlined hf' hs hr =>
      obtain rfl := Option.some.inj (hf.symm.trans hf')
      exact .inline (ihs _ hs) (ih _ hr)

/-! ## Replacing spreads in documents -/

/-- One spread in the selections of an operation or a fragment is replaced. -/
inductive InlinesOneOf (fragments : List (String × Fragment)) :
    List Definition → List Definition → Prop
  | operation {o : Operation} {ss rest} : InlinesOne fragments o.selections ss →
      InlinesOneOf fragments (.operation o :: rest) (.operation { o with selections := ss } :: rest)
  | fragment {f : Fragment} {ss rest} : InlinesOne fragments f.selections ss →
      InlinesOneOf fragments (.fragment f :: rest) (.fragment { f with selections := ss } :: rest)
  | later {d rest rest'} : InlinesOneOf fragments rest rest' →
      InlinesOneOf fragments (d :: rest) (d :: rest')

/-- Any spreads of a definition are replaced. -/
inductive InlinesWithin (fragments : List (String × Fragment)) : Definition → Definition → Prop
  | operation {o : Operation} {ss} : Inlines fragments o.selections ss →
      InlinesWithin fragments (.operation o) (.operation { o with selections := ss })
  | fragment {f : Fragment} {ss} : Inlines fragments f.selections ss →
      InlinesWithin fragments (.fragment f) (.fragment { f with selections := ss })
  | same {d} : InlinesWithin fragments d d

theorem InlinesOneOf.forall₂ {ds ds' : List Definition} (h : InlinesOneOf fragments ds ds') :
    List.Forall₂ (InlinesWithin fragments) ds ds' := by
  have hsame : ∀ rest, List.Forall₂ (InlinesWithin fragments) rest rest :=
    fun rest => List.forall₂_same.mpr fun _ _ => .same
  induction h with
  | operation h => exact .cons (.operation h.inlines) (hsame _)
  | fragment h => exact .cons (.fragment h.inlines) (hsame _)
  | later _ ih => exact .cons .same ih

/-- A fragment is found under the name it had, with spreads replaced in its selections. -/
theorem lookup_inlined {d d' : Document}
    (h : List.Forall₂ (InlinesWithin fragments) d.definitions d'.definitions) (name : String)
    (f : Fragment) (hf : (fragmentsOf d).lookup name = some f) :
    ∃ f', (fragmentsOf d').lookup name = some f' ∧ f'.on = f.on ∧
      Inlines fragments f.selections f'.selections := by
  simp only [fragmentsOf] at hf ⊢
  have h := List.forall₂_reverse_iff.mpr h
  generalize d.definitions.reverse = ds at h hf
  generalize d'.definitions.reverse = ds' at h
  induction h with
  | nil => cases hf
  | @cons x _ _ _ hx _ ih =>
    cases hx with
    | operation => exact ih hf
    | @fragment g ss hs =>
      simp only [List.filterMap_cons, List.lookup_cons] at hf ⊢
      by_cases hn : name = g.name
      · simp only [hn, beq_self_eq_true] at hf ⊢
        cases hf
        exact ⟨_, rfl, rfl, hs⟩
      · simp only [beq_false_of_ne hn] at hf ⊢
        exact ih hf
    | same =>
      cases x with
      | fragment g =>
        simp only [List.filterMap_cons, List.lookup_cons] at hf ⊢
        by_cases hn : name = g.name
        · simp only [hn, beq_self_eq_true] at hf ⊢
          cases hf
          exact ⟨_, rfl, rfl, inlines_refl _⟩
        · simp only [beq_false_of_ne hn] at hf ⊢
          exact ih hf
      | operation => exact ih hf
      | schema => exact ih hf
      | type => exact ih hf
      | directive => exact ih hf

/-- Shapes that differ at most in the selections they come from. -/
inductive Alike : Shape → Shape → Prop
  | operation {name fields} {o : Operation} {ss} :
      Alike (.operation name o fields) (.operation name { o with selections := ss } fields)
  | fragment {fields} {f : Fragment} {ss} :
      Alike (.fragment f fields) (.fragment { f with selections := ss } fields)

theorem Alike.refl (sh : Shape) : Alike sh sh := by
  cases sh with
  | operation name o fields => exact .operation
  | fragment f fields => exact .fragment

theorem asksFor_inlined {env env' : Env} (he : Inlined env env') {d d' : Definition}
    {fields : List Field} (hd : InlinesWithin env.fragments d d') (h : AsksFor env d fields) :
    AsksFor env' d' fields := by
  have hdef : ∀ {parent? ss ss'}, Inlines env.fragments ss ss' →
      (∃ below, Asks env parent? ss below ∧ fields = merge below) →
      ∃ below, Asks env' parent? ss' below ∧ fields = merge below := by
    rintro parent? ss ss' hi ⟨below, hb, rfl⟩
    exact ⟨below, asks_inlined he hb ss' hi, rfl⟩
  obtain ⟨s, fragments'⟩ := env'
  obtain rfl : s = env.schema := he.schema
  cases hd with
  | operation hi => exact hdef hi h
  | fragment hi => exact hdef hi h
  | same =>
    cases d with
    | operation o => exact hdef (inlines_refl _) h
    | fragment f => exact hdef (inlines_refl _) h
    | schema => exact h
    | type => exact h
    | directive => exact h

theorem alike_shapeOf {d d' : Definition} (hd : InlinesWithin fragments d d')
    (fields : List Field) :
    List.Forall₂ Alike (shapeOf? d fields).toList (shapeOf? d' fields).toList := by
  cases hd with
  | @operation o ss hi =>
    obtain ⟨_, _, name?, _, _, _⟩ := o
    cases name? with
    | none => exact .nil
    | some name => exact .cons .operation .nil
  | fragment hi => exact .cons .fragment .nil
  | same => exact List.forall₂_same.mpr fun sh _ => .refl sh

theorem shaped_inlined {env env' : Env} (he : Inlined env env') {ds ds' : List Definition}
    {found : List Shape} (hds : List.Forall₂ (InlinesWithin env.fragments) ds ds')
    (h : Shaped env ds found) :
    ∃ found', Shaped env' ds' found' ∧ List.Forall₂ Alike found found' := by
  induction hds generalizing found with
  | nil => cases h; exact ⟨[], .nil, .nil⟩
  | cons hd _ ih =>
    cases h with
    | cons hf hs =>
      obtain ⟨found', hs', ha⟩ := ih hs
      exact ⟨_, .cons (asksFor_inlined he hd hf) hs', List.rel_append (alike_shapeOf hd _) ha⟩

end Graphwright.Response

namespace Graphwright.OperationTypes

open Graphwright.Document Graphwright.Module Graphwright.Response

/-! ## The same part -/

theorem blockOf_alike {sh sh' : Shape} (h : Alike sh sh') (m : Types.Mapper) (dedupe : Bool) :
    blockOf m dedupe sh = blockOf m dedupe sh' := by
  cases h <;> rfl

theorem mapM_blockOf_alike {found found' : List Shape} (h : List.Forall₂ Alike found found')
    (m : Types.Mapper) (dedupe : Bool) :
    found.mapM (blockOf m dedupe) = found'.mapM (blockOf m dedupe) := by
  induction h with
  | nil => rfl
  | cons hd _ ih => rw [List.mapM_cons, List.mapM_cons, blockOf_alike hd, ih]

theorem reservedNames_inlined {fragments : List (String × Fragment)} {d d' : Document}
    (dedupe : Bool) (h : List.Forall₂ (InlinesWithin fragments) d.definitions d'.definitions) :
    reservedNames dedupe d = reservedNames dedupe d' := by
  simp only [reservedNames]
  generalize d.definitions = ds at h
  generalize d'.definitions = ds' at h
  induction h with
  | nil => rfl
  | cons hd _ ih =>
    rw [List.flatMap_cons, List.flatMap_cons, ih]
    cases hd <;> rfl

/-- **Inlining.** Let the operation types of documents be generated, and let `ds'` have one spread
replaced by the inline fragment it stands for. Then the same is generated for `ds'`, down to the
text. -/
theorem part_of_inlined (s : Schema) (ds ds' : List Document) (o : Options) (path : String)
    (w w₁ : List Warning) (p : Part)
    (hi : InlinesOneOf (fragmentsOf (Document.concat ds)) (Document.concat ds).definitions
      (Document.concat ds').definitions)
    (h : (part s (Document.concat ds) o path).run w = .ok p w₁) :
    ∃ w₂, (part s (Document.concat ds') o path).run w = .ok p w₂ := by
  obtain ⟨package, found, hp, hs, -, rfl⟩ := part_ok h
  have hds := hi.forall₂
  have he : Inlined ⟨s, fragmentsOf (Document.concat ds)⟩ ⟨s, fragmentsOf (Document.concat ds')⟩ :=
    ⟨rfl, lookup_inlined hds⟩
  obtain ⟨found', hs', ha⟩ := shaped_inlined he hds hs
  have hr : resultOf s (Document.concat ds) o found =
      resultOf s (Document.concat ds') o found' := by
    simp only [resultOf, blocksOf, reservedNames_inlined o.dedupeSuffix hds, mapM_blockOf_alike ha]
  obtain ⟨w₂, -, h'⟩ := part_of_shaped o hp hs' w
  exact ⟨w₂, hr ▸ h'⟩

/-- A query that spreads a fragment under a condition, or makes its selections in place. -/
def conditionalQuery (s : Selection) : List Document := [
  ⟨[.operation { name? := some "Q", selections := [s] },
    .fragment { name := "F", on := "Query", selections := [.field none "x" [] [] none] }]⟩]

theorem part_of_inlined_conditional_spread :
    let s : Schema := { roots := [(.query, "Query")], types := [
      { name := "Query", body := .object [] [{ name := "x", type := .named "Int" }] }] }
    let c : Directive := { name := "include", arguments := [("if", .variable "c")] }
    let spread := Document.concat (conditionalQuery (.spread "F" [c]))
    let inlined := Document.concat
      (conditionalQuery (.inline (some "Query") [c] [.field none "x" [] [] none]))
    InlinesOneOf (fragmentsOf spread) spread.definitions inlined.definitions ∧
      ∃ p w₁ w₂, (part s spread {} "operations.py").run [] = .ok p w₁ ∧
        (part s inlined {} "operations.py").run [] = .ok p w₂ := by
  intro s c spread inlined
  have hf : (fragmentsOf spread).lookup "F" =
      some { name := "F", on := "Query", selections := [.field none "x" [] [] none] } := rfl
  have hi : InlinesOneOf (fragmentsOf spread) spread.definitions inlined.definitions :=
    .operation (.spread hf)
  have hx : Asks ⟨s, fragmentsOf spread⟩ (s.composite? "Query") [.field none "x" [] [] none] _ :=
    .leaf (by decide) rfl .nil
  have hs : Shaped ⟨s, fragmentsOf spread⟩ spread.definitions _ :=
    .cons ⟨_, .spread hf rfl hx .nil, rfl⟩ (.cons ⟨_, hx, rfl⟩ .nil)
  obtain ⟨w₁, -, h⟩ :=
    part_of_shaped {} (show Naming.packageOf "operations.py" = .ok "generated" by rfl) hs []
  obtain ⟨w₂, h'⟩ := part_of_inlined s _ _ {} "operations.py" [] w₁ _ hi h
  exact ⟨hi, _, w₁, w₂, h, h'⟩

end Graphwright.OperationTypes
