import Graphwright.Proofs.Response.Models

/-!
# Selected fields

No field that is selected is lost, invented or moved. `Lists s sub? sc m` compares the models in `m`
with the occurrences in the scope `sc`, where `sub?` says what is below an occurrence: at each path,
the model has the keys of the occurrences there, each once, in order of first occurrence, and there
is a model below each occurrence that has selections below it.

* `part_lists_selected`: the blocks of a document list its occurrences, for each definition in which
  the occurrences of one key at one path agree on whether there are selections below them.

There is nothing below `__typename`, whatever is written there. Taken as it is written, what is
below it would be missing from the models (`written_below_typename`).
-/
namespace Graphwright.OperationTypes

open Graphwright.Document Graphwright.Module Graphwright.Response

/-- Occurrences of one key at one path all have selections below them, or none has. -/
def Agrees (s : Schema) (sub? : Occurrence → Option Scope) (sc : Scope) : Prop :=
  ∀ path, ∀ o ∈ occurrencesAt s sub? path (sc.occurrences s),
    ∀ o' ∈ occurrencesAt s sub? path (sc.occurrences s), o.key = o'.key →
    (sub? o).isSome = (sub? o').isSome

/-- The models list what is selected, at each path. -/
structure Lists (s : Schema) (sub? : Occurrence → Option Scope) (sc : Scope) (m : Model) :
    Prop where
  keys : ∀ path m', m.Nested path m' →
    m'.keys = ((occurrencesAt s sub? path (sc.occurrences s)).map (·.key)).eraseDups
  nested : ∀ path key, (∃ m', m.Nested (path ++ [key]) m') ↔
    ∃ o ∈ occurrencesAt s sub? path (sc.occurrences s), o.key = key ∧ (sub? o).isSome

theorem Agrees.uniform {s : Schema} {sc : Scope} (h : Agrees s (·.below? s) sc) :
    Uniform (surveyOfOccurrences s (sc.occurrences s)) := by
  intro path e he e' he' hk
  obtain ⟨o, ho, rfl⟩ := List.mem_map.mp he
  obtain ⟨o', ho', rfl⟩ := List.mem_map.mp he'
  exact h path o ho o' ho' hk

theorem keys_of_nested {fs : List Field} {m m' : Model} {path : List String} (hd : Distinct fs)
    (hm : DepictsAll fs m.members) (hn : m.Nested path m') :
    m'.keys = (fieldsAt path fs).map (·.name) := by
  rw [Model.keys, Model.attributes, List.map_map]
  exact (nested_depicts hn fs hd hm).keys

/-- Whatever the occurrences, a model has no key that is not selected. -/
theorem exists_occurrence_of_mem_keys {env : Env} {sc : Scope} {m m' : Model} {path : List String}
    (h : Describes env sc m) (hn : m.Nested path m') {key : String} (hk : key ∈ m'.keys) :
    ∃ o ∈ occurrencesAt env.schema (·.below? env.schema) path (sc.occurrences env.schema),
      o.key = key := by
  obtain ⟨fs, hf, hd, -, hm⟩ := h.follows
  rw [keys_of_nested hd hm hn] at hk
  obtain ⟨f, hmem, rfl⟩ := List.mem_map.mp hk
  obtain ⟨⟨e, he, hk, -⟩, -⟩ := hf.covers path f.finding (List.mem_map_of_mem hmem)
  obtain ⟨o, ho, rfl⟩ := List.mem_map.mp he
  exact ⟨o, ho, hk⟩

/-- A model that describes a scope lists what is selected in it. -/
theorem lists_of_describes {env : Env} {sc : Scope} {m : Model} (h : Describes env sc m)
    (ha : Agrees env.schema (·.below? env.schema) sc) :
    Lists env.schema (·.below? env.schema) sc m := by
  obtain ⟨fs, hf, hd, ht, hm⟩ := h.follows
  have hkeep := hf.keeps ha.uniform
  constructor
  · intro path m' hn
    have h := (hkeep path).1
    rw [surveyOf, keysOf_findings, eraseDups_of_nodup (hd path), ← keys_of_nested hd hm hn] at h
    rw [h, keysOf, surveyOfOccurrences, List.map_map]
    rfl
  · intro path key
    rw [exists_nested_iff hd ht hm path key]
    constructor
    · rintro ⟨f, hmem, rfl, hc⟩
      obtain ⟨⟨e, he, hk, -, hcomp⟩, -⟩ := hf.covers path f.finding (List.mem_map_of_mem hmem)
      obtain ⟨o, ho, rfl⟩ := List.mem_map.mp he
      exact ⟨o, ho, hk, hcomp.trans hc⟩
    · rintro ⟨o, ho, rfl, hc⟩
      have hmem : o.key ∈ keysOf (surveyOf fs path) := by
        rw [(hkeep path).1, mem_keysOf]
        exact ⟨o.finding env.schema, List.mem_map_of_mem ho, rfl⟩
      obtain ⟨e, he, hk⟩ := mem_keysOf.mp hmem
      obtain ⟨f, hfm, rfl⟩ := List.mem_map.mp he
      -- the field comes from an occurrence with its key, which agrees with this one
      obtain ⟨⟨e', he', hk', -, hcomp⟩, -⟩ := hf.covers path f.finding he
      obtain ⟨o', ho', rfl⟩ := List.mem_map.mp he'
      have hagree := ha path o ho o' ho' (hk.symm.trans hk'.symm)
      exact ⟨f, hfm, hk, hcomp.symm.trans (hagree.symm.trans hc)⟩

/-- **Selected fields.** Let the operation types of documents be generated. The blocks belong to the
named operations and fragments, in order, and the models of each list what is selected there, with
spreads expanded in place, if occurrences of one key at one path agree on whether there is anything
below. -/
theorem part_lists_selected (s : Schema) (ds : List Document) (o : Options) (path : String)
    (w w₁ : List Warning) (p : Part) (h : (part s (Document.concat ds) o path).run w = .ok p w₁) :
    ∃ r : Result, (generate s (Document.concat ds) o).run w = .ok r w₁ ∧ p.body = r.body ∧
      List.Forall₂ (fun sc b => Agrees s (·.below? s) sc → Lists s (·.below? s) sc b.model)
        (scopesOf s (Document.concat ds)) r.blocks := by
  obtain ⟨package, found, -, hs, hg, rfl⟩ := part_ok h
  exact ⟨_, hg, rfl, (blocks_describe hs o).imp fun _ _ hd ha => lists_of_describes hd ha⟩

/-- The occurrences at all paths, where there are two at the top and one below each of them. -/
theorem mem_of_two {s : Schema} {sub? : Occurrence → Option Scope} {sc sc₁ sc₂ : Scope}
    {o₁ o₂ o₃ o₄ : Occurrence} (h : sc.occurrences s = [o₁, o₂]) (h₁ : sub? o₁ = some sc₁)
    (h₂ : sub? o₂ = some sc₂) (hsc₁ : sc₁.occurrences s = [o₃]) (hsc₂ : sc₂.occurrences s = [o₄])
    (h₃ : sub? o₃ = none) (h₄ : sub? o₄ = none) (path : List String) :
    ∀ o ∈ occurrencesAt s sub? path (sc.occurrences s), o ∈ [o₁, o₂, o₃, o₄] := by
  refine forall_occurrencesAt (fun o below ho hbelow o' ho' => ?_) path _ fun o ho => ?_
  · simp only [List.mem_cons, List.not_mem_nil, or_false] at ho ⊢
    rcases ho with rfl | rfl | rfl | rfl
    · cases h₁.symm.trans hbelow
      rw [hsc₁] at ho'
      exact .inr (.inr (.inl (List.mem_singleton.mp ho')))
    · cases h₂.symm.trans hbelow
      rw [hsc₂] at ho'
      exact .inr (.inr (.inr (List.mem_singleton.mp ho')))
    · cases h₃.symm.trans hbelow
    · cases h₄.symm.trans hbelow
  · rw [h] at ho
    exact List.mem_append_left [o₃, o₄] ho

theorem agrees_of_key {s : Schema} {sub? : Occurrence → Option Scope} {sc : Scope}
    (c : String → Bool) (h : ∀ path, ∀ o ∈ occurrencesAt s sub? path (sc.occurrences s),
      (sub? o).isSome = c o.key) :
    Agrees s sub? sc := by
  intro path o ho o' ho' hk
  rw [h path o ho, h path o' ho', hk]

theorem scopesOf_pairQuery (ss : List Selection) :
    scopesOf pairSchema (Document.concat (pairQuery ss)) =
      [⟨rootOf pairSchema .query, inPlace [] ss⟩] := rfl

theorem block_of_pairQuery {R : Scope → Block → Prop} {ss : List Selection} {bs : List Block}
    (hin : inPlace [] ss = ss)
    (h : List.Forall₂ R (scopesOf pairSchema (Document.concat (pairQuery ss))) bs) :
    ∃ b, bs = [b] ∧ R ⟨rootOf pairSchema .query, ss⟩ b := by
  rw [scopesOf_pairQuery, hin] at h
  obtain ⟨b, rest, hb, hrest, rfl⟩ := List.forall₂_cons_left_iff.mp h
  rw [List.forall₂_nil_left_iff.mp hrest]
  exact ⟨b, rfl, hb⟩

/-- The pair is selected twice, for one number each, the second time under directives. -/
def pairTwice (ds : List Directive) : List Selection := [pair [] [ofPair "x"], pair ds [ofPair "y"]]

theorem asks_pairTwice (ds : List Directive) :
    ∃ below, Asks ⟨pairSchema, []⟩ (rootOf pairSchema .query) (pairTwice ds) below :=
  ⟨_, .node (by decide) rfl (.leaf (by decide) rfl .nil)
    (.node (by decide) rfl (.leaf (by decide) rfl .nil) .nil)⟩

theorem inPlace_pairTwice (ds : List Directive) : inPlace [] (pairTwice ds) = pairTwice ds := by
  simp [pairTwice, pair, ofPair, inPlace, inPlaceOne]

def pairTwiceOccurrences (ds : List Directive) : List Occurrence :=
  [.ofField (some pairRoot) "a" "a" [] (some [ofPair "x"]),
    .ofField (some pairRoot) "a" "a" ds (some [ofPair "y"]),
    .ofField (some pairType) "x" "x" [] none, .ofField (some pairType) "y" "y" [] none]

theorem mem_pairTwiceOccurrences (ds : List Directive) (path : List String) :
    ∀ o ∈ occurrencesAt pairSchema (·.below? pairSchema) path
      (Scope.occurrences pairSchema ⟨rootOf pairSchema .query, pairTwice ds⟩),
      o ∈ pairTwiceOccurrences ds :=
  mem_of_two rfl rfl rfl rfl rfl rfl rfl path

theorem agrees_pairTwice (ds : List Directive) :
    Agrees pairSchema (·.below? pairSchema) ⟨rootOf pairSchema .query, pairTwice ds⟩ := by
  refine agrees_of_key (· == "a") fun path o ho => ?_
  have ho := mem_pairTwiceOccurrences ds path o ho
  simp only [pairTwiceOccurrences, List.mem_cons, List.not_mem_nil, or_false] at ho
  rcases ho with rfl | rfl | rfl | rfl <;> rfl

theorem part_lists_pairTwice :
    ∃ p r w b m,
      (part pairSchema (Document.concat (pairQuery (pairTwice []))) {} "operations.py").run [] =
        .ok p w ∧
      (generate pairSchema (Document.concat (pairQuery (pairTwice []))) {}).run [] = .ok r w ∧
      r.blocks = [b] ∧ b.model.Nested ["a"] m ∧ m.keys = ["x", "y"] := by
  obtain ⟨below, ha⟩ := asks_pairTwice []
  obtain ⟨p, w, hp⟩ := part_pairQuery ha
  obtain ⟨r, hg, -, hl⟩ := part_lists_selected _ _ _ _ _ _ _ hp
  obtain ⟨b, hb, hl⟩ := block_of_pairQuery (inPlace_pairTwice []) hl
  obtain ⟨hkeys, hnested⟩ := hl (agrees_pairTwice [])
  obtain ⟨m, hm⟩ := (hnested [] "a").mpr ⟨_, List.mem_cons_self, rfl, rfl⟩
  exact ⟨p, r, w, b, m, hp, hg, hb, hm, hkeys ["a"] m hm⟩

/-- The pair is selected together with a name of its type, below which a name is written. -/
def pairAndTypename : List Selection :=
  [pair [] [ofPair "x"], .field (some "a") "__typename" [] [] (some [ofPair "__typename"])]

/-- What is written below `__typename` is in no model, so the models do not list what is written. -/
theorem written_below_typename :
    ∃ p r w b,
      (part pairSchema (Document.concat (pairQuery pairAndTypename)) {} "operations.py").run [] =
        .ok p w ∧
      (generate pairSchema (Document.concat (pairQuery pairAndTypename)) {}).run [] = .ok r w ∧
      r.blocks = [b] ∧
      ∃ sc, scopesOf pairSchema (Document.concat (pairQuery pairAndTypename)) = [sc] ∧
        Agrees pairSchema (·.written? pairSchema) sc ∧
        ¬ Lists pairSchema (·.written? pairSchema) sc b.model := by
  have ha : Asks ⟨pairSchema, []⟩ (rootOf pairSchema .query) pairAndTypename _ :=
    .node (by decide) rfl (.leaf (by decide) rfl .nil) (.typenameOver (.typename .nil) .nil)
  obtain ⟨p, w, hp⟩ := part_pairQuery ha
  have hin : inPlace [] pairAndTypename = pairAndTypename := by
    simp [pairAndTypename, pair, ofPair, inPlace, inPlaceOne]
  obtain ⟨_, found, -, hs, hg, -⟩ := part_ok hp
  obtain ⟨b, hb, hd⟩ := block_of_pairQuery hin (blocks_describe hs {})
  refine ⟨p, _, w, b, hp, hg, hb, _, by rw [scopesOf_pairQuery, hin], ?_, fun hl => ?_⟩
  · refine agrees_of_key (· == "a") fun path o ho => ?_
    have ho := mem_of_two rfl rfl rfl rfl rfl rfl rfl path o ho
    simp only [List.mem_cons, List.not_mem_nil, or_false] at ho
    rcases ho with rfl | rfl | rfl | rfl <;> rfl
  · obtain ⟨m, hm⟩ := (hl.nested [] "a").mpr ⟨_, List.mem_cons_self, rfl, rfl⟩
    have hkeys : m.keys = ["x", "__typename"] := hl.keys ["a"] m hm
    obtain ⟨o, ho, hk⟩ :=
      exists_occurrence_of_mem_keys hd hm (hkeys ▸ by simp : "__typename" ∈ m.keys)
    rw [List.mem_singleton.mp ho] at hk
    exact absurd hk (by decide)

end Graphwright.OperationTypes
