import Mathlib.Data.List.Basic
import Graphwright.Response.Field

/-!
# Surveys of response fields

A survey lists what is found at each path of a forest, in order and with repetitions: keys, types,
and whether a field has others below it or may be absent. Fields may be spread over several trees
with one key; what is below them then counts as one.

`Follows A B` compares what is left after joining with what was there before. Each finding of `A`
comes from one of `B` that resembles it, and is certain only if one of `B` with its key is. Where
`B` is uniform, that is, where findings with one key at one path all have others below them or none
has, `A` has the keys of `B`, in order of first occurrence, and is certain of all that `B` is
certain of.

The relation is closed under the ways in which forests are put together: one after the other
(`Follows.append`), under a condition (`Follows.mark`) and below a field (`Follows.node`).
-/
namespace Graphwright.Response

open Document (TypeRef)

/-! ## Findings -/

/-- What is found at a path, without what is below it. -/
structure Finding where
  key : String
  type? : Option TypeRef
  composite : Bool
  conditional : Bool

namespace Finding

/-- The same but for its condition. -/
def Resembles (e e' : Finding) : Prop :=
  e'.key = e.key ∧ e'.type? = e.type? ∧ e'.composite = e.composite

/-- The finding `e'` has the key of `e`, and is certain if that one is. -/
def Backs (e' e : Finding) : Prop :=
  e'.key = e.key ∧ (e.conditional = false → e'.conditional = false)

theorem Backs.refl (e : Finding) : e.Backs e := ⟨rfl, id⟩

theorem Backs.trans {a b c : Finding} (h : a.Backs b) (h' : b.Backs c) : a.Backs c :=
  ⟨h.1.trans h'.1, fun hc => h.2 (h'.2 hc)⟩

/-- The finding under a condition. -/
def mark (b : Bool) (e : Finding) : Finding := { e with conditional := b || e.conditional }

theorem Backs.mark {e e' : Finding} (h : e'.Backs e) (b : Bool) : (e'.mark b).Backs (e.mark b) := by
  refine ⟨h.1, fun hc => ?_⟩
  simp only [Finding.mark, Bool.or_eq_false_iff] at hc ⊢
  exact ⟨hc.1, h.2 hc.2⟩

end Finding

/-- The keys of findings, each once, in order of first occurrence. -/
def keysOf (es : List Finding) : List String := (es.map (·.key)).eraseDups

theorem mem_keysOf {key : String} {es : List Finding} :
    key ∈ keysOf es ↔ ∃ e ∈ es, e.key = key := by
  simp [keysOf]

/-- Every finding of the first list comes from the second. -/
def Covers (as bs : List Finding) : Prop :=
  ∀ a ∈ as, (∃ b ∈ bs, a.Resembles b) ∧ ∃ b ∈ bs, b.Backs a

/-- The first list has the keys of the second in order, and is certain of what the second is certain
of. -/
def Keeps (as bs : List Finding) : Prop := keysOf as = keysOf bs ∧ ∀ b ∈ bs, ∃ a ∈ as, a.Backs b

theorem Covers.refl (as : List Finding) : Covers as as :=
  fun a ha => ⟨⟨a, ha, rfl, rfl, rfl⟩, a, ha, .refl a⟩

theorem Covers.trans {as bs cs : List Finding} (h : Covers as bs) (h' : Covers bs cs) :
    Covers as cs := by
  intro a ha
  obtain ⟨⟨b, hb, hk, ht, hc⟩, b', hb', hs'⟩ := h a ha
  obtain ⟨⟨c, hc', hk', ht', hcc⟩, -⟩ := h' b hb
  obtain ⟨-, c', hc'', hs''⟩ := h' b' hb'
  exact ⟨⟨c, hc', hk'.trans hk, ht'.trans ht, hcc.trans hc⟩, c', hc'', hs''.trans hs'⟩

theorem Covers.append {as bs as' bs' : List Finding} (h : Covers as bs) (h' : Covers as' bs') :
    Covers (as ++ as') (bs ++ bs') := by
  intro a ha
  rcases List.mem_append.mp ha with ha | ha
  · obtain ⟨⟨b, hb, hr⟩, b', hb', hs⟩ := h a ha
    exact ⟨⟨b, List.mem_append_left _ hb, hr⟩, b', List.mem_append_left _ hb', hs⟩
  · obtain ⟨⟨b, hb, hr⟩, b', hb', hs⟩ := h' a ha
    exact ⟨⟨b, List.mem_append_right _ hb, hr⟩, b', List.mem_append_right _ hb', hs⟩

theorem Covers.mark {as bs : List Finding} (h : Covers as bs) (b : Bool) :
    Covers (as.map (·.mark b)) (bs.map (·.mark b)) := by
  intro _ hmem
  obtain ⟨a, ha, rfl⟩ := List.mem_map.mp hmem
  obtain ⟨⟨c, hc, hr⟩, c', hc', hs⟩ := h a ha
  exact ⟨⟨_, List.mem_map_of_mem hc, hr⟩, _, List.mem_map_of_mem hc', hs.mark b⟩

theorem Keeps.refl (as : List Finding) : Keeps as as := ⟨rfl, fun a ha => ⟨a, ha, .refl a⟩⟩

theorem Keeps.trans {as bs cs : List Finding} (h : Keeps as bs) (h' : Keeps bs cs) :
    Keeps as cs := by
  refine ⟨h.1.trans h'.1, fun c hc => ?_⟩
  obtain ⟨b, hb, hs⟩ := h'.2 c hc
  obtain ⟨a, ha, hs'⟩ := h.2 b hb
  exact ⟨a, ha, hs'.trans hs⟩

theorem filter_eraseDups (p : String → Bool) : ∀ ks : List String,
    (ks.filter p).eraseDups = ks.eraseDups.filter p
  | [] => rfl
  | k :: ks => by
    by_cases hp : p k
    · rw [List.filter_cons_of_pos hp, List.eraseDups_cons, List.eraseDups_cons,
        List.filter_cons_of_pos hp, ← filter_eraseDups p, List.filter_comm]
    · rw [List.filter_cons_of_neg hp, List.eraseDups_cons, List.filter_cons_of_neg hp,
        ← filter_eraseDups p (ks.filter _), List.filter_filter]
      congr 1
      refine List.filter_congr fun k' _ => ?_
      by_cases hk : k' = k
      · simp [hk, hp]
      · simp [hk]
termination_by ks => ks.length
decreasing_by all_goals exact Nat.lt_succ_of_le (List.length_filter_le _ _)

/-- The keys of a concatenation depend on the keys of its parts. -/
theorem eraseDups_append_congr {ks ks' ls ls' : List String} (hk : ks.eraseDups = ks'.eraseDups)
    (hl : ls.eraseDups = ls'.eraseDups) : (ks ++ ls).eraseDups = (ks' ++ ls').eraseDups := by
  have hmem : ∀ k, k ∈ ks ↔ k ∈ ks' := fun k => by
    rw [← List.mem_eraseDups, hk, List.mem_eraseDups]
  have hne : (fun k => !ks.elem k) = fun k => !ks'.elem k := by
    funext k
    rw [Bool.eq_iff_iff]
    simp [hmem]
  rw [List.eraseDups_append, List.eraseDups_append, hk]
  simp only [List.removeAll]
  rw [filter_eraseDups, filter_eraseDups, hl]
  congr 2

theorem Keeps.append {as bs as' bs' : List Finding} (h : Keeps as bs) (h' : Keeps as' bs') :
    Keeps (as ++ as') (bs ++ bs') := by
  constructor
  · simp only [keysOf, List.map_append]
    exact eraseDups_append_congr h.1 h'.1
  · intro b hb
    rcases List.mem_append.mp hb with hb | hb
    · obtain ⟨a, ha, hs⟩ := h.2 b hb
      exact ⟨a, List.mem_append_left _ ha, hs⟩
    · obtain ⟨a, ha, hs⟩ := h'.2 b hb
      exact ⟨a, List.mem_append_right _ ha, hs⟩

theorem keysOf_mark (b : Bool) (as : List Finding) : keysOf (as.map (·.mark b)) = keysOf as := by
  simp [keysOf, Finding.mark, Function.comp_def]

theorem Keeps.mark {as bs : List Finding} (h : Keeps as bs) (b : Bool) :
    Keeps (as.map (·.mark b)) (bs.map (·.mark b)) := by
  refine ⟨by rw [keysOf_mark, keysOf_mark, h.1], fun _ hmem => ?_⟩
  obtain ⟨c, hc, rfl⟩ := List.mem_map.mp hmem
  obtain ⟨a, ha, hs⟩ := h.2 c hc
  exact ⟨_, List.mem_map_of_mem ha, hs.mark b⟩

/-! ## Surveys -/

/-- The findings at each path. -/
abbrev Survey := List String → List Finding

namespace Survey

def append (A B : Survey) : Survey := fun path => A path ++ B path

/-- A survey whose place is under a condition. -/
def mark (b : Bool) (A : Survey) : Survey
  | [] => (A []).map (·.mark b)
  | key :: path => A (key :: path)

/-- A finding, and a survey below it. -/
def node (e : Finding) (A : Survey) : Survey
  | [] => [e]
  | key :: path => if e.key = key then A path else []

end Survey

/-- At one path, findings with one key all have others below them or none has. -/
def Uniform (A : Survey) : Prop :=
  ∀ path, ∀ e ∈ A path, ∀ e' ∈ A path, e.key = e'.key → e.composite = e'.composite

/-- The first survey is what joining may leave of the second. -/
structure Follows (A B : Survey) : Prop where
  covers : ∀ path, Covers (A path) (B path)
  keeps : Uniform B → ∀ path, Keeps (A path) (B path)

theorem Uniform.of_covers {A B : Survey} (h : ∀ path, Covers (A path) (B path)) (hu : Uniform B) :
    Uniform A := by
  intro path e he e' he' hk
  obtain ⟨⟨b, hb, hbk, -, hbc⟩, -⟩ := h path e he
  obtain ⟨⟨b', hb', hbk', -, hbc'⟩, -⟩ := h path e' he'
  have h := hu path b hb b' hb' (by rw [hbk, hbk', hk])
  rw [← hbc, ← hbc', h]

namespace Follows

variable {A B A' B' : Survey}

theorem refl (A : Survey) : Follows A A := ⟨fun _ => .refl _, fun _ _ => .refl _⟩

theorem trans {C : Survey} (h : Follows A B) (h' : Follows B C) : Follows A C where
  covers path := (h.covers path).trans (h'.covers path)
  keeps hu path := (h.keeps (hu.of_covers h'.covers) path).trans (h'.keeps hu path)

theorem append (h : Follows A B) (h' : Follows A' B') : Follows (A.append A') (B.append B') where
  covers path := (h.covers path).append (h'.covers path)
  keeps hu path := by
    have hl : Uniform B := fun path e he e' he' =>
      hu path e (List.mem_append_left _ he) e' (List.mem_append_left _ he')
    have hr : Uniform B' := fun path e he e' he' =>
      hu path e (List.mem_append_right _ he) e' (List.mem_append_right _ he')
    exact (h.keeps hl path).append (h'.keeps hr path)

theorem mark (b : Bool) (h : Follows A B) : Follows (A.mark b) (B.mark b) where
  covers
    | [] => (h.covers []).mark b
    | key :: path => h.covers (key :: path)
  keeps hu := by
    have hB : Uniform B := by
      intro path e he e' he' hk
      cases path with
      | nil =>
        have hmem : ∀ d ∈ B [], d.mark b ∈ B.mark b [] := fun d hd => List.mem_map_of_mem hd
        exact hu [] (e.mark b) (hmem e he) (e'.mark b) (hmem e' he') hk
      | cons key path => exact hu (key :: path) e he e' he' hk
    intro path
    cases path with
    | nil => exact (h.keeps hB []).mark b
    | cons key path => exact h.keeps hB (key :: path)

theorem node (e : Finding) (h : Follows A B) : Follows (A.node e) (B.node e) where
  covers
    | [] => .refl _
    | key :: path => by
      simp only [Survey.node]
      split
      · exact h.covers path
      · exact .refl _
  keeps hu := by
    have hB : Uniform B := fun path d hd d' hd' =>
      hu (e.key :: path) d (by simpa [Survey.node] using hd) d' (by simpa [Survey.node] using hd')
    intro path
    cases path with
    | nil => exact .refl _
    | cons key path =>
      simp only [Survey.node]
      split
      · exact h.keeps hB path
      · exact .refl _

end Follows

/-! ## Surveys of fields -/

/-- What is found of a field at its place. -/
def Field.finding (f : Field) : Finding := ⟨f.name, f.type?, f.children?.isSome, f.conditional⟩

def childrenAt (key : String) (fs : List Field) : List Field :=
  Field.childrenOf (Field.named key fs)

def fieldsAt : List String → List Field → List Field
  | [], fs => fs
  | key :: path, fs => fieldsAt path (childrenAt key fs)

def surveyOf (fs : List Field) : Survey := fun path => (fieldsAt path fs).map (·.finding)

theorem childrenAt_append (key : String) (fs gs : List Field) :
    childrenAt key (fs ++ gs) = childrenAt key fs ++ childrenAt key gs := by
  simp [childrenAt, Field.named, Field.childrenOf]

theorem fieldsAt_append (path : List String) : ∀ fs gs : List Field,
    fieldsAt path (fs ++ gs) = fieldsAt path fs ++ fieldsAt path gs := by
  induction path with
  | nil => intro fs gs; rfl
  | cons key path ih =>
    intro fs gs
    simp only [fieldsAt, childrenAt_append, ih]

theorem fieldsAt_nil (path : List String) : fieldsAt path [] = [] := by
  induction path with
  | nil => rfl
  | cons key path ih => exact ih

theorem surveyOf_append (fs gs : List Field) :
    surveyOf (fs ++ gs) = (surveyOf fs).append (surveyOf gs) := by
  funext path
  simp [surveyOf, Survey.append, fieldsAt_append]

theorem surveyOf_node (f : Field) :
    surveyOf [f] = (surveyOf (f.children?.getD [])).node f.finding := by
  funext path
  cases path with
  | nil => rfl
  | cons key path =>
    have hkey : f.finding.key = f.name := rfl
    by_cases hk : f.name = key
    · simp [surveyOf, Survey.node, fieldsAt, childrenAt, Field.named, Field.childrenOf, hkey, hk]
    · simp [surveyOf, Survey.node, fieldsAt, childrenAt, Field.named, Field.childrenOf, hkey, hk,
        fieldsAt_nil]

theorem surveyOf_mark (b : Bool) (fs : List Field) :
    surveyOf (markConditional b fs) = (surveyOf fs).mark b := by
  cases b with
  | false =>
    funext path
    cases path with
    | nil => simp [markConditional, surveyOf, Survey.mark, Finding.mark]
    | cons key path => rfl
  | true =>
    have hfinding : ∀ f : Field, f.asConditional.finding = f.finding.mark true := by
      rintro ⟨_, _, _, _⟩
      rfl
    have hbelow : ∀ key, childrenAt key (fs.map (·.asConditional)) = childrenAt key fs := by
      intro key
      have hname : ∀ f : Field, f.asConditional.name = f.name := by rintro ⟨_, _, _, _⟩; rfl
      have hchildren : ∀ f : Field, f.asConditional.children? = f.children? := by
        rintro ⟨_, _, _, _⟩
        rfl
      simp [childrenAt, Field.named, Field.childrenOf, List.filter_map, List.flatMap_map, hname,
        hchildren, Function.comp_def]
    funext path
    cases path with
    | nil => simp [markConditional, surveyOf, fieldsAt, Survey.mark, hfinding, Function.comp_def]
    | cons key path => simp [markConditional, surveyOf, fieldsAt, Survey.mark, hbelow]

end Graphwright.Response
