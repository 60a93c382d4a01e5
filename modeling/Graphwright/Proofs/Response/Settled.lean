import Graphwright.Proofs.Response.Asks
import Graphwright.Proofs.Response.Restoring
import Graphwright.Proofs.Types.Chain

/-!
# Answers of collecting

Collecting and `Asks` agree for every memory that is sound, that is, whose entries are what their
fragments stand for:

* `settled_expand`: an expansion answers what the fragment stands for.
* `settled_collectAll`: a walk over selections answers exactly what they ask for on the type that is
  known of the node they are in.

Either way a sound memory is left behind, also by a failure. Where nothing but fragments that reach
a spread is being expanded (`Open`), collecting fails only where there is no answer, and it says
that a fragment spreads itself only if it does (`Fault`).
-/
namespace Graphwright.Response

open Document Relation

/-! ## What is known of a node -/

theorem isOutput_of_isComposite {t : TypeDefinition} (h : Schema.isComposite t) :
    Schema.isOutput t := by
  unfold Schema.isComposite at h
  unfold Schema.isOutput
  split at h <;> simp_all

theorem isComposite_of_isObject {t : TypeDefinition} (h : Schema.isObject t) :
    Schema.isComposite t := by
  unfold Schema.isObject at h
  unfold Schema.isComposite
  split at h <;> simp_all

theorem compositeBase?_output (s : Schema) (ref? : Option TypeRef) :
    s.compositeBase? (ref?.bind s.output?) = s.compositeBase? ref? := by
  cases ref? with
  | none => rfl
  | some ref =>
    simp only [Option.bind_some, Schema.output?]
    split
    · rfl
    · rename_i h
      have hnone : s.composite? ref.base = none := by
        refine Option.filter_eq_none_iff.mpr fun t ht hcomposite => h ?_
        rw [ht, Option.any_some]
        exact isOutput_of_isComposite hcomposite
      exact hnone.symm

theorem composite_of_rootOf {s : Schema} {kind : OperationKind} {t : TypeDefinition}
    (h : rootOf s kind = some t) : s.composite? t.name = some t := by
  obtain ⟨htype, hobject⟩ := Option.filter_eq_some_iff.mp h
  obtain ⟨name, -, hname⟩ := Option.bind_eq_some_iff.mp htype
  rw [Schema.composite?, Types.name_of_type? hname, hname]
  exact Option.filter_eq_some_iff.mpr ⟨rfl, isComposite_of_isObject hobject⟩

/-- Inside a field its type is known, if that of the object is. -/
theorem inside_field (s : Schema) (c : Schema.Surroundings) (alias? : Option String) (name : String)
    (arguments : List (String × Value)) (ds : List Directive) (sub? : Option (List Selection)) :
    s.inside c (.ofSelection (.field alias? name arguments ds sub?) : Node Unit) =
      { c with
        field? := fieldTypeOn s c.parent? name
        type? := (fieldTypeOn s c.parent? name).bind s.output? } := by
  cases alias? <;> cases sub? <;> rfl

/-- Inside an inline fragment its condition tells the type, if there is one. -/
theorem inside_inline {s : Schema} {parent? : Option TypeDefinition} {c : Schema.Surroundings}
    (h : s.compositeBase? c.type? = parent?) (on? : Option String) (ds : List Directive)
    (sub : List Selection) :
    let here := s.inside c (.ofSelection (.inline on? ds sub) : Node Unit)
    here.parent? = c.parent? ∧ s.compositeBase? here.type? = inlineType s parent? on? := by
  cases on? with
  | some name => exact ⟨rfl, compositeBase?_output s (some (.named name))⟩
  | none =>
    refine ⟨rfl, ?_⟩
    rw [inlineType, ← h]
    obtain ⟨_, type?, _⟩ := c
    cases type? with
    | none => rfl
    | some ref => exact compositeBase?_output s (some (.named ref.base))

/-- Inside an operation the type is the one that it selects on. -/
theorem inside_operation (s : Schema) (c : Schema.Surroundings) (o : Operation) :
    s.compositeBase? (s.inside c (.ofDefinition (.operation o) : Node Unit)).type? =
      rootOf s o.kind := by
  have hkind : OperationKind.ofKeyword? o.kind.keyword = some o.kind := by cases o.kind <;> decide
  simp only [Schema.inside, Node.ofDefinition, Node.kind?, Node.text, hkind, Option.bind_some]
  change s.compositeBase? ((rootOf s o.kind).map fun t => .named t.name) = rootOf s o.kind
  cases hroot : rootOf s o.kind with
  | none => rfl
  | some t => exact composite_of_rootOf hroot

theorem inside_fragment (s : Schema) (c : Schema.Surroundings) (f : Fragment) :
    s.compositeBase? (s.inside c (.ofDefinition (.fragment f) : Node Unit)).type? =
      s.composite? f.on := by
  obtain ⟨description?, _, _, _, _⟩ := f
  cases description? <;> exact compositeBase?_output s (some (.named _))

/-! ## Answers -/

/-- What is remembered of a fragment is what it stands for. -/
def Sound (env : Env) (c : Cache) : Prop := ∀ e ∈ c, Expands env e.1 e.2

theorem Sound.expands {env : Env} {c : Cache} (h : Sound env c) {name : String}
    {fields : List Field} (hc : c.lookup name = some fields) : Expands env name fields := by
  obtain ⟨l, r, rfl, -⟩ := List.lookup_eq_some_iff.mp hc
  exact h (name, fields) (by simp)

/-- Every fragment that is being expanded reaches the names. -/
def Open (env : Env) (busy names : List String) : Prop :=
  ∀ n ∈ busy, ∀ m ∈ names, Reaches env.fragments n m

theorem Open.mono {env : Env} {busy names fewer : List String} (h : Open env busy names)
    (hs : ∀ m ∈ fewer, m ∈ names) : Open env busy fewer :=
  fun n hn m hm => h n hn m (hs m hm)

/-- While a fragment is being expanded it reaches what it spreads, and so does what reached it. -/
theorem Open.begin {env : Env} {busy : List String} {f : Fragment} (h : Open env busy [f.name])
    (hf : env.fragments.lookup f.name = some f) :
    Open env (f.name :: busy) (spreadsIn f.selections) := by
  intro n hn m hm
  have hs : Spreads env.fragments f.name m := ⟨f, hf, hm⟩
  rcases List.mem_cons.mp hn with rfl | hn
  · exact .single hs
  · exact (h n hn f.name List.mem_cons_self).tail hs

/-- The ways in which collecting fails. A fragment is said to spread itself only if it does. -/
inductive Fault (fragments : List (String × Fragment)) : Error → Prop
  | field (name : String) (type? : Option String) : Fault fragments (.unknownField name type?)
  | fragment (name : String) : Fault fragments (.unknownFragment name)
  | fragmentType (type name : String) : Fault fragments (.unknownFragmentType type name)
  | cycle {name : String} (h : Reaches fragments name name) : Fault fragments (.fragmentCycle name)

/-- A walk that answers as `P` says, or fails. Either way what it remembers is sound, and under the
condition `C` it fails only where there is no answer. -/
def Settled {α : Type} (env : Env) (C : Prop) (P : α → Prop) : EStateM.Result Error Session α → Prop
  | .ok a st => P a ∧ Sound env st.cache
  | .error e st => Sound env st.cache ∧ (C → (∀ a, ¬ P a) ∧ Fault env.fragments e)

/-- A walk is about to go into a selection set on a type. -/
structure Before (env : Env) (parent? : Option TypeDefinition) (busy : List String) (st : Session) :
    Prop where
  type : env.schema.compositeBase? st.here.type? = parent?
  expanding : st.expanding = busy
  sound : Sound env st.cache

/-- A walk is in a selection set on a type. -/
structure Within (env : Env) (parent? : Option TypeDefinition) (busy : List String)
    (st : Session) : Prop extends Before env parent? busy st where
  parent : st.here.parent? = parent?

section

variable {env : Env} {α β : Type} {C C' : Prop} {P : α → Prop} {Q : β → Prop} {st : Session}

theorem Settled.mono {r : EStateM.Result Error Session α} (h : Settled env C P r) (hc : C' → C) :
    Settled env C' P r := by
  cases r with
  | ok a st => exact h
  | error e st => exact ⟨h.1, fun c => h.2 (hc c)⟩

theorem Settled.imp {P' : α → Prop} {r : EStateM.Result Error Session α} (h : Settled env C P r)
    (hp : ∀ a, P a ↔ P' a) : Settled env C P' r := by
  rwa [show P' = P from funext fun a => propext (hp a).symm]

/-- What comes after a walk that succeeds goes on with its answer, from where the walk began. -/
theorem settled_bind {x : Collect α} {k : α → Collect β} (hx : Settled env C P (x.run st))
    (hb : Balanced x) (hk : ∀ a st', P a → Sound env st'.cache → st'.here = st.here →
      st'.expanding = st.expanding → Settled env C Q ((k a).run st'))
    (hq : ∀ b, Q b → ∃ a, P a) : Settled env C Q ((x >>= k).run st) := by
  rw [EStateM.run_bind]
  cases hr : x.run st with
  | ok a st' =>
    rw [hr] at hx
    obtain ⟨hcontinues, hcontext⟩ := hb.of_ok hr
    exact hk a st' hx.1 hx.2 (by rw [Session.here, hcontext, ← Session.here]) hcontinues.expanding
  | error e st' =>
    rw [hr] at hx
    refine ⟨hx.1, fun hc => ⟨fun b h => ?_, (hx.2 hc).2⟩⟩
    obtain ⟨a, ha⟩ := hq b h
    exact (hx.2 hc).1 a ha

theorem settled_inside {x : Collect α} (s : Schema) (n : Node Unit)
    (hx : Settled env C P (x.run (st.enter s n))) : Settled env C P ((inside s n x).run st) := by
  rw [run_inside]
  cases hr : x.run (st.enter s n) with
  | ok a st' => rwa [hr] at hx
  | error e st' => rwa [hr] at hx

theorem settled_apart {x : Collect α} {s : Schema} {f : Fragment}
    (hx : Settled env C P (x.run (st.begin s f))) : Settled env C P ((apart s f x).run st) := by
  rw [run_apart]
  cases hr : x.run (st.begin s f) with
  | ok a st' => rwa [hr] at hx
  | error e st' => rwa [hr] at hx

/-- What the selections of a selection set ask for is merged. -/
theorem settled_selectionSet {x : Collect (List Field)} {busy : List String} {ss : List Selection}
    {parent? : Option TypeDefinition} (hst : Before env parent? busy st)
    (hx : ∀ st, Within env parent? busy st → Settled env C (Asks env parent? ss) (x.run st)) :
    Settled env C (fun fields => ∃ below, Asks env parent? ss below ∧ fields = merge below)
      ((selectionSet env.schema ss x).run st) := by
  refine settled_inside _ _ ?_
  have hx := hx (st.enter env.schema
    (.branch .selectionSet "" [.many .selections (Node.ofSelections ss)]))
    ⟨⟨hst.type, hst.expanding, hst.sound⟩, hst.type⟩
  rw [run_map]
  cases hr : x.run (st.enter env.schema
    (.branch .selectionSet "" [.many .selections (Node.ofSelections ss)])) with
  | ok below st' =>
    rw [hr] at hx
    exact ⟨⟨below, hx.1, rfl⟩, hx.2⟩
  | error e st' =>
    rw [hr] at hx
    exact ⟨hx.1, fun hc => ⟨fun fields ⟨below, hbelow, _⟩ => (hx.2 hc).1 below hbelow, (hx.2 hc).2⟩⟩

end

theorem Within.later {env : Env} {parent? : Option TypeDefinition} {busy : List String}
    {st st' : Session} (h : Within env parent? busy st) (hsound : Sound env st'.cache)
    (hhere : st'.here = st.here) (hexpanding : st'.expanding = st.expanding) :
    Within env parent? busy st' :=
  ⟨⟨by rw [hhere, h.type], by rw [hexpanding, h.expanding], hsound⟩, by rw [hhere, h.parent]⟩

/-! ## Walks over selections -/

section

variable {env : Env} {busy : List String}

/-- Expansions answer what their fragments stand for, while the fragments of `busy` are being
expanded. -/
def ExpandsWhile (env : Env) (busy : List String) : Prop :=
  ∀ name f, env.fragments.lookup name = some f →
    ∀ st : Session, st.expanding = busy → Sound env st.cache →
    Settled env (Open env busy [name]) (Expands env name) ((expand env f).run st)

variable {parent? : Option TypeDefinition} {st : Session} {C : Prop}

theorem settled_field (alias? : Option String) (name : String) (arguments : List (String × Value))
    (ds : List Directive) (sub? : Option (List Selection)) (hst : Within env parent? busy st)
    (hsub : ∀ type? st, Before env (env.schema.compositeBase? type?) busy st →
      Settled env C (AsksBelow env type? sub?) ((collectBelow env (expand env) sub?).run st)) :
    Settled env C (Asks env parent? [.field alias? name arguments ds sub?])
      ((collect env (expand env) (.field alias? name arguments ds sub?)).run st) := by
  rw [collect]
  refine settled_inside _ _ ?_
  have hhere := inside_field env.schema st.here alias? name arguments ds sub?
  rw [hst.parent] at hhere
  have hbelow := hsub (fieldTypeOn env.schema parent? name)
    (st.enter env.schema (.ofSelection (.field alias? name arguments ds sub?)))
    ⟨(congrArg (fun c => env.schema.compositeBase? c.type?) hhere).trans
      (compositeBase?_output _ _), hst.expanding, hst.sound⟩
  refine settled_bind hbelow (balanced_collectBelow env (balanced_expand env) sub?) ?_ ?_
  · rintro children? st' hchildren hsound hback -
    -- the field is what the walk is in again, whatever it has gone into below
    have hhere' := hback.trans hhere
    by_cases hname : name = "__typename"
    · simp only [if_pos hname]
      exact ⟨asks_field_iff.mpr ⟨children?, hchildren, by rw [if_pos hname]⟩, hsound⟩
    · simp only [if_neg hname, EStateM.run_bind, EStateM.run_get, hhere']
      cases htype : fieldTypeOn env.schema parent? name with
      | none =>
        refine ⟨hsound, fun _ => ⟨fun fields h => ?_, .field _ _⟩⟩
        obtain ⟨_, -, h⟩ := asks_field_iff.mp h
        rw [if_neg hname, htype] at h
        obtain ⟨_, h, -⟩ := h
        cases h
      | some type =>
        exact ⟨asks_field_iff.mpr
          ⟨children?, hchildren, by rw [if_neg hname]; exact ⟨type, htype, rfl⟩⟩, hsound⟩
  · intro fields h
    obtain ⟨children?, h, -⟩ := asks_field_iff.mp h
    exact ⟨children?, h⟩

theorem settled_inline (on? : Option String) (ds : List Directive) (sub : List Selection)
    (hst : Within env parent? busy st)
    (hsub : ∀ parent? st, Within env parent? busy st →
      Settled env C (Asks env parent? sub) ((collectAll env (expand env) sub).run st)) :
    Settled env C (Asks env parent? [.inline on? ds sub])
      ((collect env (expand env) (.inline on? ds sub)).run st) := by
  rw [collect]
  refine settled_inside _ _ ?_
  obtain ⟨hparent, htype⟩ := inside_inline hst.type on? ds sub
  have hbefore : Before env (inlineType env.schema parent? on?) busy
      (st.enter env.schema (.ofSelection (.inline on? ds sub))) := ⟨htype, hst.expanding, hst.sound⟩
  have hbelow := settled_selectionSet hbefore (hsub _)
  refine settled_bind hbelow
    ((balanced_collectAll env (balanced_expand env) sub).selectionSet _ _) ?_ ?_
  · rintro _ st' ⟨below, hbelow, rfl⟩ hsound hback -
    have hparent' : st'.here.parent? = parent? :=
      (congrArg (·.parent?) hback).trans (hparent.trans hst.parent)
    simp only [EStateM.run_bind, EStateM.run_get, EStateM.run_pure, hparent']
    exact ⟨asks_inline_iff.mpr ⟨below, hbelow, rfl⟩, hsound⟩
  · intro fields h
    obtain ⟨below, h, -⟩ := asks_inline_iff.mp h
    exact ⟨_, below, h, rfl⟩

theorem settled_spread (name : String) (ds : List Directive) (he : ExpandsWhile env busy)
    (hst : Within env parent? busy st) :
    Settled env (Open env busy [name]) (Asks env parent? [.spread name ds])
      ((collect env (expand env) (.spread name ds)).run st) := by
  rw [collect]
  refine settled_inside _ _ ?_
  cases hf : env.fragments.lookup name with
  | none =>
    refine ⟨hst.sound, fun _ => ⟨fun fields h => ?_, .fragment name⟩⟩
    cases h with
    | spread hg => rw [hf] at hg; cases hg
  | some f =>
    have hparent : (st.enter env.schema (.ofSelection (.spread name ds))).here.parent? = parent? :=
      hst.parent
    simp only [EStateM.run_bind, EStateM.run_get, hparent]
    refine settled_bind (he name f hf _ hst.expanding hst.sound) (balanced_expand env f) ?_ ?_
    · rintro below st' hbelow hsound - -
      exact ⟨(asks_spread_iff hf).mpr ⟨below, hbelow, rfl⟩, hsound⟩
    · intro fields h
      obtain ⟨below, h, -⟩ := (asks_spread_iff hf).mp h
      exact ⟨below, h⟩

mutual

theorem settled_collect (he : ExpandsWhile env busy) :
    ∀ (s : Selection) {parent? : Option TypeDefinition}
    {st : Session}, Within env parent? busy st →
    Settled env (Open env busy s.spreads) (Asks env parent? [s])
      ((collect env (expand env) s).run st)
  | .field alias? name arguments ds sub?, _, _, hst => by
    rw [Selection.spreads]
    exact settled_field alias? name arguments ds sub? hst fun type? st =>
      settled_collectBelow he sub?
  | .inline on? ds sub, _, _, hst => by
    rw [Selection.spreads]
    exact settled_inline on? ds sub hst fun _ _ => settled_collectAll he sub
  | .spread name ds, _, _, hst => settled_spread name ds he hst

theorem settled_collectBelow (he : ExpandsWhile env busy) : ∀ (sub? : Option (List Selection))
    {type? : Option TypeRef} {st : Session}, Before env (env.schema.compositeBase? type?) busy st →
      Settled env (Open env busy (spreadsBelow sub?)) (AsksBelow env type? sub?)
        ((collectBelow env (expand env) sub?).run st)
  | none, _, _, hst => ⟨rfl, hst.sound⟩
  | some sub, _, _, hst => by
    rw [spreadsBelow, collectBelow]
    refine settled_bind (settled_selectionSet hst fun _ => settled_collectAll he sub)
      ((balanced_collectAll env (balanced_expand env) sub).selectionSet _ _) ?_ ?_
    · rintro _ st' ⟨below, hbelow, rfl⟩ hsound - -
      exact ⟨⟨below, hbelow, rfl⟩, hsound⟩
    · rintro _ ⟨below, hbelow, rfl⟩
      exact ⟨_, below, hbelow, rfl⟩

theorem settled_collectAll (he : ExpandsWhile env busy) : ∀ (ss : List Selection)
    {parent? : Option TypeDefinition} {st : Session}, Within env parent? busy st →
      Settled env (Open env busy (spreadsIn ss)) (Asks env parent? ss)
        ((collectAll env (expand env) ss).run st)
  | [], _, _, hst => ⟨.nil, hst.sound⟩
  | s :: rest, parent?, st, hst => by
    have hs : ∀ m ∈ s.spreads, m ∈ spreadsIn (s :: rest) := by simp +contextual [spreadsIn]
    have hr : ∀ m ∈ spreadsIn rest, m ∈ spreadsIn (s :: rest) := by simp +contextual [spreadsIn]
    rw [collectAll]
    have hfirst := (settled_collect he s hst).mono fun h :
      Open env busy (spreadsIn (s :: rest)) => h.mono hs
    refine settled_bind hfirst (balanced_collect env (balanced_expand env) s) ?_ ?_
    · intro first st' hfirst hsound hhere hexpanding
      have hst' := hst.later hsound hhere hexpanding
      have hrest := (settled_collectAll he rest hst').mono fun h :
        Open env busy (spreadsIn (s :: rest)) => h.mono hr
      refine settled_bind hrest (balanced_collectAll env (balanced_expand env) rest) ?_ ?_
      · rintro more st'' hmore hsound' - -
        exact ⟨asks_cons hfirst hmore, hsound'⟩
      · intro fields h
        obtain ⟨_, more, -, -, h⟩ := asks_cons_iff.mp h
        exact ⟨more, h⟩
    · intro fields h
      obtain ⟨first, _, -, h, -⟩ := asks_cons_iff.mp h
      exact ⟨first, h⟩

end

/-! ## Expansions -/

/-- A walk of its own for a fragment answers what the fragment stands for, if its type is known. -/
theorem settled_walk {f : Fragment} {t : TypeDefinition} (hf : env.fragments.lookup f.name = some f)
    (ht : env.schema.type? f.on = some t) (he : ExpandsWhile env (f.name :: busy))
    (hexpanding : st.expanding = busy) (hsound : Sound env st.cache) :
    Settled env (Open env busy [f.name]) (Expands env f.name)
      ((apart env.schema f (selectionSet env.schema f.selections
        (collectAll env (expand env) f.selections))).run st) := by
  have hbefore : Before env (env.schema.composite? f.on) (f.name :: busy) (st.begin env.schema f) :=
    ⟨compositeBase?_output env.schema (some (.named f.on)),
      congrArg (f.name :: ·) hexpanding, hsound⟩
  have hwalk := settled_selectionSet hbefore fun _ => settled_collectAll he f.selections
  refine settled_apart
    ((hwalk.mono fun h : Open env busy [f.name] => h.begin hf).imp fun fields => ?_)
  constructor
  · rintro ⟨below, hbelow, rfl⟩
    exact ⟨f, below, hf, by rw [ht]; rfl, hbelow, rfl⟩
  · rintro ⟨g, below, hg, -, hbelow, rfl⟩
    obtain rfl := Option.some.inj (hf.symm.trans hg)
    exact ⟨below, hbelow, rfl⟩

/-- An expansion answers what the fragment stands for, if those do that it leads to. -/
theorem settled_expandOnce {name : String} {f : Fragment} (hn : Named env.fragments)
    (hf : env.fragments.lookup name = some f) (hexpanding : st.expanding = busy)
    (hsound : Sound env st.cache) (he : f.name ∉ busy → ExpandsWhile env (f.name :: busy)) :
    Settled env (Open env busy [name]) (Expands env name)
      ((expandOnce env (expand env) f).run st) := by
  obtain rfl := hn name f hf
  simp only [expandOnce, EStateM.run_bind, EStateM.run_get]
  cases hcache : st.cache.lookup f.name with
  | some fields => exact ⟨hsound.expands hcache, hsound⟩
  | none =>
    by_cases hname : f.name ∈ st.expanding
    · -- the fragment reaches itself, if what is being expanded reaches it
      simp only [if_pos hname]
      refine ⟨hsound, fun hopen => ?_⟩
      have hself := hopen f.name (hexpanding ▸ hname) f.name List.mem_cons_self
      exact ⟨fun fields h => h.not_reaches hself, .cycle hself⟩
    simp only [if_neg hname]
    cases ht : env.schema.type? f.on with
    | none =>
      refine ⟨hsound, fun _ => ⟨fun fields h => ?_, .fragmentType _ _⟩⟩
      obtain ⟨g, _, hg, htype, -, -⟩ := h
      obtain rfl := Option.some.inj (hf.symm.trans hg)
      rw [ht] at htype
      cases htype
    | some t =>
      have hwalk := settled_walk hf ht (he (hexpanding ▸ hname)) hexpanding hsound
      simp only [EStateM.run_bind]
      cases hr : (apart env.schema f (selectionSet env.schema f.selections
          (collectAll env (expand env) f.selections))).run st with
      | error e st' => rwa [hr] at hwalk
      | ok fields st' =>
        rw [hr] at hwalk
        exact ⟨hwalk.1, List.forall_mem_cons.mpr ⟨hwalk.1, hwalk.2⟩⟩

end

/-- **Expansions.** From a sound memory an expansion answers what the fragment stands for, or it
fails. If what is being expanded reaches the fragment, it fails only where the fragment stands for
nothing. -/
theorem settled_expand {env : Env} (hn : Named env.fragments) (busy : List String) :
    ExpandsWhile env busy := by
  induction hk : (unvisited env.fragments busy).length using Nat.strong_induction_on generalizing
    busy with
  | _ k ih =>
    intro name f hf st hexpanding hsound
    rw [expand_eq hn hf]
    refine settled_expandOnce hn hf hexpanding hsound fun hname => ih _ ?_ _ rfl
    rw [← hk]
    exact length_unvisited_cons_lt (by rw [hn name f hf, hf]; rfl) hname

end Graphwright.Response
