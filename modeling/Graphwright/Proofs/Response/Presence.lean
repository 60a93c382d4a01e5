import Mathlib.Data.List.Induction
import Graphwright.Proofs.Response.Selected

/-!
# Required fields and presence

An execution decides the conditions of directives and the type of the object at each path. It
includes a field if everything holds that the field is selected under, and reads the selections
below all the fields that it includes under one key. A model keeps its promises if each field that
it requires is in the object that it describes, in every execution that has the object
(`KeepsPromises`).

Joining breaks promises. Where one occurrence of a field is included and another one is left out,
the fields below the one that is left out may be missing, yet they are required if they are selected
there without a condition (`promise_broken`). This is the only way:

* `part_keeps_promises`: the blocks of a document keep their promises if it is `Sheltered`, that is,
  if what the selections left out by an execution require is in the object nevertheless. If
  occurrences with one key agree on whether they are required and on whether there is anything
  below, only if.
* `sheltered_of_once`: a document that selects nothing twice that has selections below it is
  sheltered.
-/
namespace Graphwright.OperationTypes

open Graphwright.Document Graphwright.Module Graphwright.Response

/-! ## Executions -/

/-- The conditions of directives, by their values, and the type of the object at each path. -/
structure Execution where
  truth : Option Value → Bool
  truth_boolean : ∀ b, truth (some (.boolean b)) = b
  typeAt : List String → TypeDefinition

/-- The directive lets in what it is applied to. -/
def Execution.allows (x : Execution) (d : Directive) : Bool :=
  if d.name == "include" then x.truth (d.argument? "if")
  else if d.name == "skip" then !x.truth (d.argument? "if")
  else true

/-- Values of the first type may be objects of the second. -/
def Possible (s : Schema) (p t : TypeDefinition) : Prop :=
  s.type? t.name = some t ∧
    match p.body, t.body with
    | .object _ _, .object _ _ => p.name = t.name
    | .interface _ _, .object interfaces _ => p.name ∈ interfaces
    | .union members, .object _ _ => t.name ∈ members
    | _, _ => False

/-- What is selected under the guard is included, in an object of the type. -/
def Holds (s : Schema) (x : Execution) (t : TypeDefinition) (g : Guard) : Prop :=
  g.directives.all x.allows ∧ ∀ name, g.on? = some name →
    ∃ p, s.type? name = some p ∧ Possible s p t

/-- The occurrence is included, in an object of the type. -/
def Included (s : Schema) (x : Execution) (t : TypeDefinition) (o : Occurrence) : Prop :=
  ∀ g ∈ o.guards, Holds s x t g

/-- The selections whose fields are joined at a path. -/
inductive ScopeAt (s : Schema) (root : Scope) : List String → Scope → Prop
  | root : ScopeAt s root [] root
  | inside {path sc o sub} : ScopeAt s root path sc → o ∈ sc.occurrences s → o.below? s = some sub →
      ScopeAt s root (path ++ [o.key]) sub

/-- The selections that an execution reads at a path. -/
inductive ReadAt (s : Schema) (x : Execution) (root : Scope) : List String → Scope → Prop
  | root : ReadAt s x root [] root
  | inside {path sc o sub} : ReadAt s x root path sc → o ∈ sc.occurrences s →
      Included s x (x.typeAt path) o → o.below? s = some sub → ReadAt s x root (path ++ [o.key]) sub

/-- The selections are made on objects of the type. -/
def Admits (s : Schema) (t : TypeDefinition) (sc : Scope) : Prop :=
  ∃ p, sc.parent? = some p ∧ Possible s p t

/-- The execution has an object at the path, and so on the way to it. Its type is one that some of
the selections read there are made on. -/
def Present (s : Schema) (x : Execution) (root : Scope) (path : List String) : Prop :=
  ∀ pre, pre <+: path → ∃ sc, ReadAt s x root pre sc ∧ Admits s (x.typeAt pre) sc

/-- The object at the path has the key. -/
def Contains (s : Schema) (x : Execution) (root : Scope) (path : List String)
    (key : String) : Prop :=
  ∃ sc o, ReadAt s x root path sc ∧ o ∈ sc.occurrences s ∧ Included s x (x.typeAt path) o ∧
    o.key = key

/-- Fields without a default are in every object that the model describes. -/
def KeepsPromises (s : Schema) (root : Scope) (m : Model) : Prop :=
  ∀ path m', m.Nested path m' → ∀ a ∈ m'.attributes, a.default? = none →
    ∀ x, Present s x root path → Contains s x root path a.key

/-- What is selected without a condition and required by selections that an execution does not read,
or that are not made on the object it has, is in the object nevertheless. -/
def Sheltered (s : Schema) (root : Scope) : Prop :=
  ∀ x path, Present s x root path →
    ∀ sc, ScopeAt s root path sc → ¬ (ReadAt s x root path sc ∧ Admits s (x.typeAt path) sc) →
      ∀ o ∈ sc.occurrences s, o.isConditional = false →
        (∃ o' ∈ occurrencesAt s (·.below? s) path (root.occurrences s),
          o'.key = o.key ∧ isRequired (o'.type? s)) →
        Contains s x root path o.key

/-! ## Guards that cannot fail -/

variable {s : Schema}

theorem allows_of_not_condition (x : Execution) {ds : List Directive}
    (h : hasCondition ds = false) : ds.all x.allows := by
  rw [List.all_eq_true]
  intro d hd
  have h := List.any_eq_false.mp h d hd
  simp only [isCondition, Bool.or_eq_true, not_or] at h
  rw [Execution.allows, if_neg h.1, if_neg h.2]

/-- A scope is made on a type of the schema. -/
def Known (s : Schema) (sc : Scope) : Prop :=
  ∀ p, sc.parent? = some p → s.composite? p.name = some p

theorem composite_of_type {name : String} {p : TypeDefinition} (h : s.composite? name = some p) :
    p.name = name := by
  rw [Schema.composite?, Option.filter_eq_some_iff] at h
  obtain ⟨h, -⟩ := h
  have hfound : ∀ ts : List TypeDefinition, ts.find? (·.name == name) = some p → p.name = name :=
    fun ts h => by simpa using List.find?_some h
  unfold Schema.type? at h
  split at h
  · rename_i t ht
    cases h
    exact hfound _ ht
  · exact hfound _ h

mutual

/-- A guard that cannot fail holds in all objects of the type that it is read on, and leaves the
type as it is, so what is selected without a condition is included. -/
theorem included_occurrencesOf {p t : TypeDefinition} (hp : s.composite? p.name = some p)
    (ht : Possible s p t) (x : Execution) : ∀ (selection : Selection),
    ∀ o ∈ occurrencesOf s (some p) selection, o.isConditional = false → Included s x t o
  | .field alias? name arguments ds sub?, o, ho, hc => by
    rw [occurrencesOf, List.mem_singleton] at ho
    subst ho
    rw [isConditional_field] at hc
    intro g hg
    rw [List.mem_singleton.mp hg]
    exact ⟨allows_of_not_condition x hc, fun name h => nomatch h⟩
  | .inline on? ds sub, o, ho, hc => by
    rw [occurrencesOf] at ho
    obtain ⟨o', ho', rfl⟩ := List.mem_map.mp ho
    simp only [Occurrence.isConditional, List.any_cons, Bool.or_eq_false_iff, Guard.mayFail] at hc
    obtain ⟨⟨hds, hon⟩, hrest⟩ := hc
    cases on? with
    | none =>
      have hin := included_occurrences hp ht x sub o' ho' hrest
      intro g hg
      rcases List.mem_cons.mp hg with rfl | hg
      · exact ⟨allows_of_not_condition x hds, fun name h => nomatch h⟩
      · exact hin g hg
    | some name =>
      have hname : name = p.name := by simpa [isElsewhere] using hon
      subst hname
      rw [inlineType, hp] at ho'
      have hin := included_occurrences hp ht x sub o' ho' hrest
      intro g hg
      rcases List.mem_cons.mp hg with rfl | hg
      · refine ⟨allows_of_not_condition x hds, fun name h => ⟨p, ?_, ht⟩⟩
        cases h
        exact (Option.filter_eq_some_iff.mp hp).1
      · exact hin g hg
  | .spread name ds, o, ho, hc => by
    rw [occurrencesOf] at ho
    cases ho

theorem included_occurrences {p t : TypeDefinition} (hp : s.composite? p.name = some p)
    (ht : Possible s p t) (x : Execution) : ∀ (ss : List Selection),
    ∀ o ∈ occurrences s (some p) ss, o.isConditional = false → Included s x t o
  | [], o, ho, hc => by
    rw [occurrences] at ho
    cases ho
  | selection :: rest, o, ho, hc => by
    rw [occurrences] at ho
    rcases List.mem_append.mp ho with ho | ho
    · exact included_occurrencesOf hp ht x selection o ho hc
    · exact included_occurrences hp ht x rest o ho hc

end

theorem included_of_not_conditional {sc : Scope} {t : TypeDefinition} (hk : Known s sc)
    (ha : Admits s t sc) (x : Execution) {o : Occurrence} (ho : o ∈ sc.occurrences s)
    (hc : o.isConditional = false) : Included s x t o := by
  obtain ⟨p, hparent, hp⟩ := ha
  rw [Scope.occurrences, hparent] at ho
  exact included_occurrences (hk p hparent) hp x sc.selections o ho hc

theorem known_composite (s : Schema) (name : String) (ss : List Selection) :
    Known s ⟨s.composite? name, ss⟩ := by
  intro p hp
  have h := composite_of_type hp
  exact h ▸ hp

theorem known_root (s : Schema) (kind : OperationKind) (ss : List Selection) :
    Known s ⟨rootOf s kind, ss⟩ :=
  fun _ hp => composite_of_rootOf hp

theorem known_below {o : Occurrence} {sub : Scope} (h : o.below? s = some sub) : Known s sub := by
  rw [Occurrence.below?] at h
  split at h
  · obtain ⟨ss, -, rfl⟩ := Option.map_eq_some_iff.mp h
    intro p hp
    obtain ⟨type, -, hp⟩ := Option.bind_eq_some_iff.mp hp
    exact known_composite s type.base ss p hp
  · cases h

theorem ScopeAt.known {root sc : Scope} {path : List String} (hk : Known s root)
    (h : ScopeAt s root path sc) : Known s sc := by
  cases h with
  | root => exact hk
  | inside _ _ hsub => exact known_below hsub

theorem known_of_mem_scopesOf {d : Document} {sc : Scope} (h : sc ∈ scopesOf s d) : Known s sc := by
  obtain ⟨x, -, hx⟩ := List.mem_filterMap.mp h
  cases x with
  | operation o =>
    obtain ⟨name, -, rfl⟩ := Option.map_eq_some_iff.mp hx
    exact known_root s o.kind _
  | fragment f =>
    cases hx
    exact known_composite s f.on _
  | schema => cases hx
  | type => cases hx
  | directive => cases hx

/-! ## Occurrences and the selections that hold them -/

theorem occurrencesAt_concat (sub? : Occurrence → Option Scope) (key : String)
    (path : List String) :
    ∀ os, occurrencesAt s sub? (path ++ [key]) os =
      ((occurrencesAt s sub? path os).filter (·.key == key)).flatMap
        fun o => (sub? o).toList.flatMap (·.occurrences s) := by
  induction path with
  | nil => intro os; rfl
  | cons k path ih => intro os; exact ih _

theorem mem_occurrencesAt_iff {root : Scope} {path : List String} {o : Occurrence} :
    o ∈ occurrencesAt s (·.below? s) path (root.occurrences s) ↔
      ∃ sc, ScopeAt s root path sc ∧ o ∈ sc.occurrences s := by
  constructor
  · intro ho
    induction path using List.reverseRecOn generalizing o with
    | nil => exact ⟨root, .root, ho⟩
    | append_singleton path key ih =>
      rw [occurrencesAt_concat] at ho
      obtain ⟨o', ho', hbelow⟩ := List.mem_flatMap.mp ho
      obtain ⟨sub, hsub, hmem⟩ := List.mem_flatMap.mp hbelow
      obtain ⟨hat, hk⟩ := List.mem_filter.mp ho'
      obtain ⟨sc, hsc, hin⟩ := ih hat
      obtain rfl : o'.key = key := eq_of_beq hk
      exact ⟨sub, .inside hsc hin (Option.mem_toList.mp hsub), hmem⟩
  · rintro ⟨sc, hsc, ho⟩
    induction hsc generalizing o with
    | root => exact ho
    | @inside path sc o' sub _ hmem hsub ih =>
      rw [occurrencesAt_concat]
      refine List.mem_flatMap.mpr ⟨o', List.mem_filter.mpr ⟨ih hmem, by simp⟩, ?_⟩
      exact List.mem_flatMap.mpr ⟨sub, Option.mem_toList.mpr hsub, ho⟩

theorem ReadAt.scopeAt {x : Execution} {root sc : Scope} {path : List String}
    (h : ReadAt s x root path sc) : ScopeAt s root path sc := by
  induction h with
  | root => exact .root
  | inside _ ho _ hsub ih => exact .inside ih ho hsub

theorem ReadAt.of_concat {x : Execution} {root sub : Scope} {path : List String} {key : String}
    (h : ReadAt s x root (path ++ [key]) sub) :
    ∃ sc o, ReadAt s x root path sc ∧ o ∈ sc.occurrences s ∧
      Included s x (x.typeAt path) o ∧ o.key = key ∧ o.below? s = some sub := by
  generalize hp : path ++ [key] = p at h
  cases h with
  | root => simp at hp
  | inside hsc ho hin hsub =>
    obtain ⟨rfl, hk⟩ := List.append_inj' hp rfl
    exact ⟨_, _, hsc, ho, hin, (List.singleton_inj.mp hk).symm, hsub⟩

theorem ScopeAt.of_nil {root sc : Scope} (h : ScopeAt s root [] sc) : sc = root := by
  generalize hp : ([] : List String) = p at h
  cases h with
  | root => rfl
  | inside => simp at hp

theorem ScopeAt.of_concat {root sub : Scope} {path : List String} {key : String}
    (h : ScopeAt s root (path ++ [key]) sub) :
    ∃ sc o, ScopeAt s root path sc ∧ o ∈ sc.occurrences s ∧ o.key = key ∧
    o.below? s = some sub := by
  generalize hp : path ++ [key] = p at h
  cases h with
  | root => simp at hp
  | inside hsc ho hsub =>
    obtain ⟨rfl, hk⟩ := List.append_inj' hp rfl
    exact ⟨_, _, hsc, ho, (List.singleton_inj.mp hk).symm, hsub⟩

/-! ## Promises -/

theorem exists_field_of_mem_attributes {fs : List Field} {m m' : Model} {path : List String}
    (hd : Distinct fs) (hm : DepictsAll fs m.members) (hn : m.Nested path m') {a : Attribute}
    (ha : a ∈ m'.attributes) : ∃ f ∈ fieldsAt path fs, f.name = a.key ∧
      (a.default? = none ↔ f.conditional = false ∧ isRequired f.type?) := by
  obtain ⟨member, hmem, rfl⟩ := List.mem_map.mp ha
  obtain ⟨f, hf, hfm⟩ := (nested_depicts hn fs hd hm).exists_field member hmem
  refine ⟨f, hf, hfm.key.symm, ?_⟩
  cases hfm with
  | leaf _ _ hdefault => exact hdefault
  | node _ hdefault _ => exact hdefault

theorem exists_attribute_of_mem {fs : List Field} {m m' : Model} {path : List String}
    (hd : Distinct fs) (hm : DepictsAll fs m.members) (hn : m.Nested path m') {f : Field}
    (hf : f ∈ fieldsAt path fs) : ∃ a ∈ m'.attributes, a.key = f.name ∧
      (a.default? = none ↔ f.conditional = false ∧ isRequired f.type?) := by
  obtain ⟨member, hmem, hfm⟩ := (nested_depicts hn fs hd hm).exists_member f hf
  refine ⟨member.field, List.mem_map_of_mem hmem, hfm.key, ?_⟩
  cases hfm with
  | leaf _ _ hdefault => exact hdefault
  | node _ hdefault _ => exact hdefault

/-- In a sheltered scope, what is required is present. -/
theorem keepsPromises_of_sheltered {env : Env} {root : Scope} {m : Model} (h : Describes env root m)
    (hk : Known env.schema root) (hs : Sheltered env.schema root) :
    KeepsPromises env.schema root m := by
  obtain ⟨fs, hf, hd, -, hm⟩ := h.follows
  intro path m' hn a ha hdefault x hx
  obtain ⟨f, hmem, hname, hiff⟩ := exists_field_of_mem_attributes hd hm hn ha
  obtain ⟨hc, hreq⟩ := hiff.mp hdefault
  obtain ⟨⟨e, he, hke, hte, -⟩, e', he', hke', hce'⟩ :=
    hf.covers path f.finding (List.mem_map_of_mem hmem)
  obtain ⟨o₁, ho₁, rfl⟩ := List.mem_map.mp he
  obtain ⟨o, ho, rfl⟩ := List.mem_map.mp he'
  have hkey : o.key = a.key := hke'.trans hname
  have hcond : o.isConditional = false := hce' hc
  obtain ⟨sc, hsc, ho⟩ := mem_occurrencesAt_iff.mp ho
  by_cases hread : ReadAt env.schema x root path sc ∧ Admits env.schema (x.typeAt path) sc
  · exact ⟨sc, o, hread.1, ho, included_of_not_conditional (hsc.known hk) hread.2 x ho hcond, hkey⟩
  · refine hkey ▸ hs x path hx sc hsc hread o ho hcond ⟨o₁, ho₁, hke.trans hke'.symm, ?_⟩
    rw [show o₁.type? env.schema = f.type? from hte]
    exact hreq

/-- A scope where no two selections are joined is sheltered, whatever the conditions. -/
theorem sheltered_of_once {root : Scope}
    (h : ∀ path sc, ScopeAt s root path sc → ∀ o ∈ sc.occurrences s, ∀ o' ∈ sc.occurrences s,
      o.key = o'.key → (o.below? s).isSome → (o'.below? s).isSome → o.below? s = o'.below? s) :
    Sheltered s root := by
  have hunique : ∀ path sc sc', ScopeAt s root path sc → ScopeAt s root path sc' → sc = sc' := by
    intro path sc sc' hsc hsc'
    induction hsc generalizing sc' with
    | root => exact hsc'.of_nil.symm
    | @inside path sc o sub hsc ho hsub ih =>
      obtain ⟨sc₁, o', hsc₁, ho', hk, hsub'⟩ := hsc'.of_concat
      obtain rfl := ih sc₁ hsc₁
      have heq := h path sc hsc o ho o' ho' hk.symm (by rw [hsub]; rfl) (by rw [hsub']; rfl)
      rw [hsub, hsub'] at heq
      exact Option.some.inj heq
  intro x path hx sc hsc hnot
  obtain ⟨sc', hread, hadmits⟩ := hx path List.prefix_rfl
  obtain rfl := hunique path sc sc' hsc hread.scopeAt
  exact absurd ⟨hread, hadmits⟩ hnot

/-- Occurrences of one key at one path are all required or none is. -/
def AgreesOnRequired (s : Schema) (root : Scope) : Prop :=
  ∀ path, ∀ o ∈ occurrencesAt s (·.below? s) path (root.occurrences s),
    ∀ o' ∈ occurrencesAt s (·.below? s) path (root.occurrences s), o.key = o'.key →
      isRequired (o.type? s) = isRequired (o'.type? s)

theorem exists_nested_of_scopeAt {env : Env} {root sc : Scope} {m : Model} {path : List String}
    (h : Lists env.schema (·.below? env.schema) root m) (hsc : ScopeAt env.schema root path sc) :
    ∃ m', m.Nested path m' := by
  cases hsc with
  | root => exact ⟨m, .here⟩
  | inside hsc ho hsub =>
    exact (h.nested _ _).mpr ⟨_, mem_occurrencesAt_iff.mpr ⟨_, hsc, ho⟩, rfl, by rw [hsub]; rfl⟩

/-- A scope whose model keeps its promises is sheltered, if occurrences with one key agree. -/
theorem sheltered_of_keepsPromises {env : Env} {root : Scope} {m : Model} (h : Describes env root m)
    (ha : Agrees env.schema (·.below? env.schema) root) (hr : AgreesOnRequired env.schema root)
    (hp : KeepsPromises env.schema root m) : Sheltered env.schema root := by
  intro x path hx sc hsc _ o ho hcond ⟨o₁, ho₁, hk₁, hreq⟩
  obtain ⟨m', hn⟩ := exists_nested_of_scopeAt (lists_of_describes h ha) hsc
  obtain ⟨fs, hf, hd, -, hm⟩ := h.follows
  -- the model has the field, without a condition, and of a type like that of the other occurrences
  obtain ⟨e, he, hke, hce⟩ := (hf.keeps ha.uniform path).2 (o.finding env.schema)
    (List.mem_map_of_mem (mem_occurrencesAt_iff.mpr ⟨sc, hsc, ho⟩))
  obtain ⟨f, hfm, rfl⟩ := List.mem_map.mp he
  obtain ⟨⟨e', he', hke', hte', -⟩, -⟩ := hf.covers path f.finding he
  obtain ⟨o₂, ho₂, rfl⟩ := List.mem_map.mp he'
  obtain ⟨a, hmem, hka, hiff⟩ := exists_attribute_of_mem hd hm hn hfm
  have hkey : f.name = o.key := hke
  have hreq₂ : isRequired (o₂.type? env.schema) :=
    (hr path o₁ ho₁ o₂ ho₂ (hk₁.trans (hkey.symm.trans hke'.symm))).symm.trans hreq
  have hdefault : a.default? = none :=
    hiff.mpr ⟨hce hcond, show isRequired f.finding.type? from hte' ▸ hreq₂⟩
  exact (hka.trans hkey) ▸ hp path m' hn a hmem hdefault x hx

/-- **Promises.** Let the operation types of documents be generated. The blocks belong to the named
operations and fragments, in order, and keep their promises in a sheltered scope. Where occurrences
of one key at one path agree on whether they are required, and on whether there is anything below
them, they keep them in no other. -/
theorem part_keeps_promises (s : Schema) (ds : List Document) (o : Options) (path : String)
    (w w₁ : List Warning) (p : Part) (h : (part s (Document.concat ds) o path).run w = .ok p w₁) :
    ∃ r : Result, (generate s (Document.concat ds) o).run w = .ok r w₁ ∧ p.body = r.body ∧
      List.Forall₂ (fun root b => (Sheltered s root → KeepsPromises s root b.model) ∧
          (Agrees s (·.below? s) root → AgreesOnRequired s root →
            KeepsPromises s root b.model → Sheltered s root))
        (scopesOf s (Document.concat ds)) r.blocks := by
  obtain ⟨package, found, -, hs, hg, rfl⟩ := part_ok h
  have hknown := (List.forall₂_and_left _ _).mpr
    ⟨fun root hroot => known_of_mem_scopesOf hroot, blocks_describe hs o⟩
  refine ⟨_, hg, rfl, hknown.imp fun root b ⟨hk, hd⟩ => ?_⟩
  exact ⟨keepsPromises_of_sheltered hd hk, sheltered_of_keepsPromises hd⟩

/-- The directive that includes where a variable is true. -/
def includeIf (variableName : String) : Directive :=
  { name := "include", arguments := [("if", .variable variableName)] }

/-- One number of the pair, which is selected under a condition. -/
def conditionalPair : List Selection := [pair [includeIf "c"] [ofPair "x"]]

theorem sheltered_conditionalPair :
    Sheltered pairSchema ⟨rootOf pairSchema .query, conditionalPair⟩ := by
  have hmem : ∀ path, ∀ o ∈ occurrencesAt pairSchema (·.below? pairSchema) path
      (Scope.occurrences pairSchema ⟨rootOf pairSchema .query, conditionalPair⟩),
      o.below? pairSchema = none ∨
        o = .ofField (some pairRoot) "a" "a" [includeIf "c"] (some [ofPair "x"]) := by
    refine fun path => forall_occurrencesAt (fun o sc ho hsc o' ho' => ?_) path _ fun o ho => ?_
    · rcases ho with ho | rfl
      · cases ho.symm.trans hsc
      · cases hsc
        rw [List.mem_singleton.mp ho']
        exact .inl rfl
    · exact .inr (List.mem_singleton.mp ho)
  refine sheltered_of_once fun path sc hsc o ho o' ho' _ hs hs' => ?_
  rcases hmem path o (mem_occurrencesAt_iff.mpr ⟨sc, hsc, ho⟩) with h | rfl
  · rw [h] at hs
    cases hs
  · rcases hmem path o' (mem_occurrencesAt_iff.mpr ⟨sc, hsc, ho'⟩) with h | rfl
    · rw [h] at hs'
      cases hs'
    · rfl

theorem part_keeps_promises_conditionalPair :
    ∃ p r w b root,
      (part pairSchema (Document.concat (pairQuery conditionalPair)) {} "operations.py").run [] =
        .ok p w ∧
      (generate pairSchema (Document.concat (pairQuery conditionalPair)) {}).run [] = .ok r w ∧
      r.blocks = [b] ∧ scopesOf pairSchema (Document.concat (pairQuery conditionalPair)) = [root] ∧
      KeepsPromises pairSchema root b.model := by
  have ha : Asks ⟨pairSchema, []⟩ (rootOf pairSchema .query) conditionalPair _ :=
    .node (by decide) rfl (.leaf (by decide) rfl .nil) .nil
  obtain ⟨p, w, hp⟩ := part_pairQuery ha
  obtain ⟨r, hg, -, hl⟩ := part_keeps_promises _ _ _ _ _ _ _ hp
  have hin : inPlace [] conditionalPair = conditionalPair := by
    simp [conditionalPair, pair, ofPair, inPlace, inPlaceOne]
  obtain ⟨b, hb, hl⟩ := block_of_pairQuery hin hl
  exact ⟨p, r, w, b, _, hp, hg, hb, by rw [scopesOf_pairQuery, hin], hl.1 sheltered_conditionalPair⟩

/-- An execution of queries for a pair that takes no variable for true. -/
def refusing : Execution where
  truth
    | some (.boolean b) => b
    | _ => false
  truth_boolean _ := rfl
  typeAt
    | [] => pairRoot
    | _ => pairType

theorem present_pairTwice (ds : List Directive) :
    Present pairSchema refusing ⟨rootOf pairSchema .query, pairTwice ds⟩ ["a"] := by
  intro pre hpre
  have hroot : Possible pairSchema pairRoot pairRoot := ⟨rfl, rfl⟩
  have htype : Possible pairSchema pairType pairType := ⟨rfl, rfl⟩
  rcases List.prefix_cons_iff.mp hpre with rfl | ⟨rest, rfl, hrest⟩
  · exact ⟨_, .root, pairRoot, rfl, hroot⟩
  · obtain rfl := List.prefix_nil.mp hrest
    have hin : Included pairSchema refusing pairRoot
        (.ofField (some pairRoot) "a" "a" [] (some [ofPair "x"])) := by
      intro g hg
      rw [List.mem_singleton.mp hg]
      exact ⟨rfl, fun name h => nomatch h⟩
    exact ⟨_, .inside .root List.mem_cons_self hin rfl, pairType, rfl, htype⟩

theorem readAt_refusing {sc : Scope}
    (h : ReadAt pairSchema refusing
      ⟨rootOf pairSchema .query, pairTwice [includeIf "c"]⟩ ["a"] sc) :
    sc = ⟨some pairType, [ofPair "x"]⟩ := by
  obtain ⟨sc₀, o, hroot, ho, hin, -, hsub⟩ :=
    ReadAt.of_concat (show ReadAt _ _ _ ([] ++ ["a"]) sc from h)
  obtain rfl := hroot.scopeAt.of_nil
  rcases List.mem_cons.mp ho with rfl | ho
  · cases hsub
    rfl
  · -- the second occurrence is left out
    rw [List.mem_singleton.mp ho] at hin
    exact absurd (hin _ List.mem_cons_self).1 (by decide)

theorem agreesOnRequired_pairTwice (ds : List Directive) :
    AgreesOnRequired pairSchema ⟨rootOf pairSchema .query, pairTwice ds⟩ := by
  have hreq : ∀ path, ∀ o ∈ occurrencesAt pairSchema (·.below? pairSchema) path
      (Scope.occurrences pairSchema ⟨rootOf pairSchema .query, pairTwice ds⟩),
      isRequired (o.type? pairSchema) = (o.key != "a") := by
    intro path o ho
    have ho := mem_pairTwiceOccurrences ds path o ho
    simp only [pairTwiceOccurrences, List.mem_cons, List.not_mem_nil, or_false] at ho
    rcases ho with rfl | rfl | rfl | rfl <;> rfl
  intro path o ho o' ho' hk
  rw [hreq path o ho, hreq path o' ho', hk]

/-- With the pair selected once for `x`, and once for `y` under a condition, `y` is required. An
execution where the condition is false has the pair without `y`. -/
theorem promise_broken :
    ∃ p r w b root, (part pairSchema (Document.concat (pairQuery (pairTwice [includeIf "c"]))) {}
        "operations.py").run [] = .ok p w ∧
      (generate pairSchema (Document.concat (pairQuery (pairTwice [includeIf "c"]))) {}).run [] =
        .ok r w ∧
      r.blocks = [b] ∧ scopesOf pairSchema
        (Document.concat (pairQuery (pairTwice [includeIf "c"]))) = [root] ∧
      ¬ KeepsPromises pairSchema root b.model := by
  obtain ⟨below, ha⟩ := asks_pairTwice [includeIf "c"]
  obtain ⟨p, w, hp⟩ := part_pairQuery ha
  obtain ⟨_, found, -, hs, hg, -⟩ := part_ok hp
  have hin := inPlace_pairTwice [includeIf "c"]
  obtain ⟨b, hb, hd⟩ := block_of_pairQuery hin (blocks_describe hs {})
  refine ⟨p, _, w, b, _, hp, hg, hb, by rw [scopesOf_pairQuery, hin], fun hkeeps => ?_⟩
  have hsheltered := sheltered_of_keepsPromises hd (agrees_pairTwice _)
    (agreesOnRequired_pairTwice _) hkeeps
  have hsecond : Occurrence.ofField (some pairRoot) "a" "a" [includeIf "c"] (some [ofPair "y"]) ∈
      Scope.occurrences pairSchema ⟨rootOf pairSchema .query, pairTwice [includeIf "c"]⟩ :=
    List.mem_cons_of_mem _ List.mem_cons_self
  have hscope : ScopeAt pairSchema ⟨rootOf pairSchema .query, pairTwice [includeIf "c"]⟩ ["a"]
      ⟨some pairType, [ofPair "y"]⟩ := .inside .root hsecond rfl
  have hleft :
      ¬ ReadAt pairSchema refusing ⟨rootOf pairSchema .query, pairTwice [includeIf "c"]⟩ ["a"]
      ⟨some pairType, [ofPair "y"]⟩ := by
    intro hread
    have h := congrArg (fun sc => (Scope.occurrences pairSchema sc).map (·.key))
      (readAt_refusing hread)
    exact absurd h (by decide)
  have hy := mem_occurrencesAt_iff.mpr ⟨_, hscope, List.mem_cons_self⟩
  obtain ⟨sc, o, hread, ho, -, hk⟩ := hsheltered refusing ["a"] (present_pairTwice _) _ hscope
    (fun h => hleft h.1) _ List.mem_cons_self (by decide) ⟨_, hy, rfl, by decide⟩
  rw [readAt_refusing hread] at ho
  rw [List.mem_singleton.mp ho] at hk
  exact absurd hk (by decide)

end Graphwright.OperationTypes
