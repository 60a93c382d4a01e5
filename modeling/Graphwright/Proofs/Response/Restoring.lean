import Graphwright.Response.Shape

/-!
# Walks that are taken up again

What collecting does to its session, whatever it collects and from whichever session it starts.

* A walk that succeeds is where it began, and one that fails has only gone further into nodes
  (`Balanced`).
* An expansion is a walk of its own, after which the walk that met the fragment is where it was,
  also if the expansion failed (`Restores`). An expansion that fails does not remember the fragment.
* In between only the fields of fragments that are not being expanded are remembered, and nothing is
  forgotten (`Session.Continues`).

What holds of the pieces of walks holds of walks over selections; the one induction for this is that
of `Composes`. It serves once more to compare walks that differ in their expansions (`Same`): as
expansions inside one another are of different fragments, the limit on their number is never met
(`expand_eq`).
-/
namespace Graphwright.Response

open Document

/-! ## Sessions -/

namespace Session

/-- After `before` the same fragments are being expanded, and none of `busy` has been remembered
since. -/
structure Continues (busy : List String) (before after : Session) : Prop where
  expanding : after.expanding = before.expanding
  cache : ∃ new, after.cache = new ++ before.cache ∧ ∀ e ∈ new, e.1 ∉ busy

namespace Continues

variable {busy : List String} {a b c : Session}

theorem refl (busy : List String) (a : Session) : Continues busy a a := ⟨rfl, [], rfl, nofun⟩

theorem trans (h : Continues busy a b) (h' : Continues busy b c) : Continues busy a c := by
  obtain ⟨new, hnew, hbusy⟩ := h.cache
  obtain ⟨newer, hnewer, hbusy'⟩ := h'.cache
  refine ⟨h'.expanding.trans h.expanding, newer ++ new, by rw [hnewer, hnew, List.append_assoc], ?_⟩
  exact fun e he => (List.mem_append.mp he).elim (hbusy' e) (hbusy e)

theorem mono {fewer : List String} (h : Continues busy a b) (hs : ∀ name ∈ fewer, name ∈ busy) :
    Continues fewer a b := by
  obtain ⟨new, hnew, hbusy⟩ := h.cache
  exact ⟨h.expanding, new, hnew, fun e he hf => hbusy e he (hs _ hf)⟩

/-- What was not remembered of a busy fragment is not remembered. -/
theorem lookup_eq_none {name : String} (h : Continues busy a b) (hname : name ∈ busy)
    (ha : a.cache.lookup name = none) : b.cache.lookup name = none := by
  obtain ⟨new, hnew, hbusy⟩ := h.cache
  rw [hnew, List.lookup_append, ha, Option.or_none]
  exact List.lookup_eq_none_iff.mpr fun e he => bne_iff_ne.mpr fun hn => hbusy e he (hn ▸ hname)

/-- The walk that met a fragment is taken up again after one for the fragment. -/
theorem resume {s : Schema} {f : Fragment} (h : Continues (f.name :: a.expanding) (a.begin s f) b)
    (hname : f.name ∉ a.expanding) :
    Continues (f.name :: a.expanding) a (b.resume a.context f.name) := by
  refine ⟨?_, h.cache⟩
  have hne : ∀ name ∈ a.expanding, (name != f.name) = true :=
    fun name hn => bne_iff_ne.mpr fun he => hname (he ▸ hn)
  rw [Session.resume, h.expanding, Session.begin]
  simpa using hne

end Continues

end Session

open Session

/-! ## Runs of the pieces -/

/-- The session that a walk ends in, also if it fails. -/
def sessionAfter {α : Type} : EStateM.Result Error Session α → Session
  | .ok _ st => st
  | .error _ st => st

theorem run_map {ε σ α β : Type} (g : α → β) (x : EStateM ε σ α) (c : σ) :
    (g <$> x).run c = match x.run c with
      | .ok a c => .ok (g a) c
      | .error e c => .error e c := rfl

theorem run_inside {α : Type} (s : Schema) (n : Node Unit) (x : Collect α) (st : Session) :
    (inside s n x).run st = match x.run (st.enter s n) with
      | .ok a st' => .ok a st'.leave
      | .error e st' => .error e st' := by
  simp only [inside, EStateM.run_bind, EStateM.run_modify, EStateM.run_pure]
  cases x.run (st.enter s n) <;> rfl

theorem run_apart {α : Type} (s : Schema) (f : Fragment) (x : Collect α) (st : Session) :
    (apart s f x).run st = match x.run (st.begin s f) with
      | .ok a st' => .ok a (st'.resume st.context f.name)
      | .error e st' => .error e (st'.resume st.context f.name) := rfl

/-! ## Walks piece by piece -/

/-- A relation between walks that holds of walks if it holds of their pieces. -/
structure Composes (s : Schema) (R : ∀ {α : Type}, Collect α → Collect α → Prop) : Prop where
  pure {α : Type} (a : α) : R (Pure.pure a) (Pure.pure a)
  throw {α : Type} (e : Error) : R (MonadExcept.throw e : Collect α) (MonadExcept.throw e)
  get : R (MonadState.get : Collect Session) MonadState.get
  bind {α β : Type} {x y : Collect α} {f g : α → Collect β} :
    R x y → (∀ a, R (f a) (g a)) → R (x >>= f) (y >>= g)
  inside {α : Type} {x y : Collect α} (n : Node Unit) : R x y → R (inside s n x) (inside s n y)

namespace Composes

variable {env : Env} {R : ∀ {α : Type}, Collect α → Collect α → Prop}
  {expand expand' : Fragment → Collect (List Field)}

theorem selectionSet {s : Schema} {x y : Collect (List Field)} (hR : Composes s R)
    (ss : List Selection) (hx : R x y) : R (selectionSet s ss x) (selectionSet s ss y) := by
  refine hR.inside _ ?_
  rw [map_eq_pure_bind, map_eq_pure_bind]
  exact hR.bind hx fun _ => hR.pure _

mutual

theorem collect (hR : Composes env.schema R)
    (he : ∀ name f, env.fragments.lookup name = some f → R (expand f) (expand' f)) :
    ∀ s, R (collect env expand s) (Response.collect env expand' s)
  | .field alias? name arguments ds sub? => by
    rw [Response.collect, Response.collect]
    refine hR.inside _ (hR.bind (hR.collectBelow he sub?) fun children? => ?_)
    split
    · exact hR.pure _
    · refine hR.bind hR.get fun st => ?_
      dsimp only
      split
      · exact hR.throw _
      · exact hR.pure _
  | .inline on? ds sub => by
    rw [Response.collect, Response.collect]
    exact hR.inside _ (hR.bind (hR.selectionSet _ (hR.collectAll he sub)) fun _ =>
      hR.bind hR.get fun _ => hR.pure _)
  | .spread name ds => by
    rw [Response.collect, Response.collect]
    refine hR.inside _ ?_
    split
    · exact hR.throw _
    · rename_i f hf
      exact hR.bind hR.get fun _ => hR.bind (he name f hf) fun _ => hR.pure _

theorem collectBelow (hR : Composes env.schema R)
    (he : ∀ name f, env.fragments.lookup name = some f → R (expand f) (expand' f)) :
    ∀ sub?, R (collectBelow env expand sub?) (Response.collectBelow env expand' sub?)
  | none => hR.pure none
  | some sub => hR.bind (hR.selectionSet _ (hR.collectAll he sub)) fun _ => hR.pure _

theorem collectAll (hR : Composes env.schema R)
    (he : ∀ name f, env.fragments.lookup name = some f → R (expand f) (expand' f)) :
    ∀ ss, R (collectAll env expand ss) (Response.collectAll env expand' ss)
  | [] => hR.pure []
  | s :: rest => hR.bind (hR.collect he s) fun _ => hR.bind (hR.collectAll he rest) fun _ =>
    hR.pure _

end

theorem fieldsOf (hR : Composes env.schema R)
    (he : ∀ name f, env.fragments.lookup name = some f →
      R (Response.expand env f) (Response.expand env f)) :
    ∀ d, R (fieldsOf env d) (Response.fieldsOf env d)
  | .operation o => hR.inside _ (hR.selectionSet _ (hR.collectAll he o.selections))
  | .fragment f => hR.inside _ (hR.selectionSet _ (hR.collectAll he f.selections))
  | .schema .. => hR.pure []
  | .type .. => hR.pure []
  | .directive .. => hR.pure []

end Composes

/-! ## Walks that go on as before -/

/-- A walk that goes on as before, and that is where it was if it succeeds. -/
def Balanced {α : Type} (x : Collect α) : Prop := ∀ st : Session,
  match x.run st with
  | .ok _ st' => Continues st.expanding st st' ∧ st'.context = st.context
  | .error _ st' => Continues st.expanding st st'

namespace Balanced

variable {α β : Type}

theorem throw (e : Error) : Balanced (MonadExcept.throw e : Collect α) := fun st => .refl _ st

theorem of_ok {x : Collect α} (hx : Balanced x) {st st' : Session} {a : α}
    (h : x.run st = .ok a st') : Continues st.expanding st st' ∧ st'.context = st.context := by
  have hx := hx st
  rwa [h] at hx

/-- However a walk ends, the same fragments are being expanded. -/
theorem expanding_after {x : Collect α} (hx : Balanced x) {st : Session} :
    (sessionAfter (x.run st)).expanding = st.expanding := by
  have hx := hx st
  cases hr : x.run st with
  | ok a st' =>
    rw [hr] at hx
    exact hx.1.expanding
  | error e st' =>
    rw [hr] at hx
    exact hx.expanding

theorem bind {x : Collect α} {f : α → Collect β} (hx : Balanced x) (hf : ∀ a, Balanced (f a)) :
    Balanced (x >>= f) := by
  intro st
  have hx := hx st
  rw [EStateM.run_bind]
  cases hr : x.run st with
  | error e st' => rwa [hr] at hx
  | ok a st' =>
    rw [hr] at hx
    obtain ⟨hcontinues, hcontext⟩ := hx
    have hf := hf a st'
    rw [hcontinues.expanding] at hf
    simp only
    cases hr' : (f a).run st' with
    | error e st'' =>
      rw [hr'] at hf
      exact hcontinues.trans hf
    | ok b st'' =>
      rw [hr'] at hf
      exact ⟨hcontinues.trans hf.1, hf.2.trans hcontext⟩

theorem inside {x : Collect α} (s : Schema) (n : Node Unit) (hx : Balanced x) :
    Balanced (inside s n x) := by
  intro st
  have hx := hx (st.enter s n)
  rw [run_inside]
  cases hr : x.run (st.enter s n) with
  | error e st' =>
    rw [hr] at hx
    exact ⟨hx.expanding, hx.cache⟩
  | ok a st' =>
    rw [hr] at hx
    refine ⟨⟨hx.1.expanding, hx.1.cache⟩, ?_⟩
    rw [Session.leave, hx.2]
    rfl

end Balanced

theorem composes_balanced (s : Schema) : Composes s fun x _ => Balanced x where
  pure _ st := ⟨.refl _ st, rfl⟩
  throw := .throw
  get st := ⟨.refl _ st, rfl⟩
  bind hx hf := hx.bind hf
  inside n hx := hx.inside s n

theorem Balanced.selectionSet {x : Collect (List Field)} (s : Schema) (ss : List Selection)
    (hx : Balanced x) : Balanced (selectionSet s ss x) :=
  (composes_balanced s).selectionSet (y := x) ss hx

section

variable (env : Env) {expand : Fragment → Collect (List Field)} (he : ∀ f, Balanced (expand f))

include he

theorem balanced_collect (s : Selection) : Balanced (collect env expand s) :=
  @Composes.collect env _ expand expand (composes_balanced env.schema) (fun _ f _ => he f) s

theorem balanced_collectBelow (sub? : Option (List Selection)) :
    Balanced (collectBelow env expand sub?) :=
  @Composes.collectBelow env _ expand expand (composes_balanced env.schema) (fun _ f _ => he f) sub?

theorem balanced_collectAll (ss : List Selection) : Balanced (collectAll env expand ss) :=
  @Composes.collectAll env _ expand expand (composes_balanced env.schema) (fun _ f _ => he f) ss

end

/-! ## Expansions -/

/-- An expansion of a fragment by that name, which leaves the walk that met it where it was. The
fragment is not remembered if the expansion fails. -/
def Restores (name : String) (x : Collect (List Field)) : Prop := ∀ st : Session,
  match x.run st with
  | .ok _ st' => Continues st.expanding st st' ∧ st'.context = st.context
  | .error _ st' =>
    Continues st.expanding st st' ∧ st'.context = st.context ∧ st'.cache.lookup name = none

theorem Restores.balanced {name : String} {x : Collect (List Field)} (h : Restores name x) :
    Balanced x := by
  intro st
  have h := h st
  cases hr : x.run st with
  | ok fields st' => rwa [hr] at h
  | error e st' =>
    rw [hr] at h
    exact h.1

section

variable (env : Env)

/-- Whether or not the walk for a fragment succeeds, the walk that met the fragment is where it
was. -/
theorem restores_expandOnce {expand : Fragment → Collect (List Field)}
    (he : ∀ f, Balanced (expand f)) (f : Fragment) : Restores f.name (expandOnce env expand f) := by
  intro st
  simp only [expandOnce, EStateM.run_bind, EStateM.run_get]
  cases hcache : st.cache.lookup f.name with
  | some fields => exact ⟨.refl _ st, rfl⟩
  | none =>
    simp only
    by_cases hname : f.name ∈ st.expanding
    · rw [if_pos hname]
      exact ⟨.refl _ st, rfl, hcache⟩
    rw [if_neg hname]
    cases env.schema.type? f.on with
    | none => exact ⟨.refl _ st, rfl, hcache⟩
    | some t =>
      have hwalk := (balanced_collectAll env he f.selections).selectionSet env.schema f.selections
        (st.begin env.schema f)
      simp only [EStateM.run_bind, run_apart]
      cases hr : (selectionSet env.schema f.selections (collectAll env expand f.selections)).run
          (st.begin env.schema f) with
      | error e st' =>
        rw [hr] at hwalk
        have hback := Continues.resume hwalk hname
        exact ⟨hback.mono fun _ => List.mem_cons_of_mem _, rfl,
          hback.lookup_eq_none List.mem_cons_self hcache⟩
      | ok fields st' =>
        rw [hr] at hwalk
        have hback := (Continues.resume hwalk.1 hname).mono fun _ => List.mem_cons_of_mem _
        obtain ⟨new, hnew, hbusy⟩ := hback.cache
        refine ⟨⟨hback.expanding, (f.name, fields) :: new,
          congrArg ((f.name, fields) :: ·) hnew, ?_⟩, rfl⟩
        exact List.forall_mem_cons.mpr ⟨hname, hbusy⟩

theorem balanced_expandWithin (depth : Nat) : ∀ f, Balanced (expandWithin env depth f) := by
  induction depth with
  | zero => exact fun f => .throw (.fragmentCycle f.name)
  | succ depth ih => exact fun f => (restores_expandOnce env ih f).balanced

/-- **Restoring.** However an expansion ends, the walk that met the fragment is where it was. -/
theorem restores_expand (f : Fragment) : Restores f.name (expand env f) :=
  restores_expandOnce env (balanced_expandWithin env _) f

theorem balanced_expand (f : Fragment) : Balanced (expand env f) := (restores_expand env f).balanced

theorem balanced_fieldsOf (d : Definition) : Balanced (fieldsOf env d) :=
  (composes_balanced env.schema).fieldsOf (fun _ f _ => balanced_expand env f) d

end

/-! ## Walks with the same expansions -/

/-- What holds of a session also holds when a node is gone into or left. -/
structure Walkable (s : Schema) (I : Session → Prop) : Prop where
  enter {st : Session} (n : Node Unit) : I st → I (st.enter s n)
  leave {st : Session} : I st → I st.leave

/-- From sessions with `I` two walks are the same, and they end in one. -/
def Same {α : Type} (I : Session → Prop) (x y : Collect α) : Prop :=
  ∀ st, I st → x.run st = y.run st ∧ I (sessionAfter (x.run st))

theorem composes_same {s : Schema} {I : Session → Prop} (hI : Walkable s I) :
    Composes s (Same I) where
  pure _ := fun _ hst => ⟨rfl, hst⟩
  throw _ := fun _ hst => ⟨rfl, hst⟩
  get := fun _ hst => ⟨rfl, hst⟩
  bind {_ _ x y f g} hx hf := by
    intro st hst
    obtain ⟨hrun, hafter⟩ := hx st hst
    rw [EStateM.run_bind, EStateM.run_bind, ← hrun]
    cases hr : x.run st with
    | error e st' =>
      rw [hr] at hafter
      exact ⟨rfl, hafter⟩
    | ok a st' =>
      rw [hr] at hafter
      exact hf a st' hafter
  inside {_ x y} n hx := by
    intro st hst
    obtain ⟨hrun, hafter⟩ := hx _ (hI.enter n hst)
    rw [run_inside, run_inside, ← hrun]
    cases hr : x.run (st.enter s n) with
    | error e st' =>
      rw [hr] at hafter
      exact ⟨rfl, hafter⟩
    | ok a st' =>
      rw [hr] at hafter
      exact ⟨rfl, hI.leave hafter⟩

variable {env : Env}

/-- Expansions of what a fragment spreads matter only from where its walk comes to. -/
theorem run_expandOnce_congr {I : Session → Prop} {expand expand' : Fragment → Collect (List Field)}
    (hI : Walkable env.schema I)
    (he : ∀ name f, env.fragments.lookup name = some f → Same I (expand f) (expand' f))
    {f : Fragment} {st : Session} (hst : f.name ∉ st.expanding → I (st.begin env.schema f)) :
    (expandOnce env expand f).run st = (expandOnce env expand' f).run st := by
  simp only [expandOnce, EStateM.run_bind, EStateM.run_get]
  cases st.cache.lookup f.name with
  | some fields => rfl
  | none =>
    by_cases hname : f.name ∈ st.expanding
    · simp only [if_pos hname]
    simp only [if_neg hname]
    cases env.schema.type? f.on with
    | none => rfl
    | some t =>
      have hR := composes_same hI
      have hwalk := hR.selectionSet f.selections (hR.collectAll he f.selections) _ (hst hname)
      simp only [EStateM.run_bind, run_apart, hwalk.1]

/-! ## Expansions inside one another -/

/-- Every fragment is known by its name. -/
def Named (fragments : List (String × Fragment)) : Prop :=
  ∀ name f, fragments.lookup name = some f → f.name = name

/-- To begin to expand a fragment leaves fewer that are not being expanded. -/
theorem length_unvisited_cons_lt {fragments : List (String × Fragment)} {busy : List String}
    {name : String} (h : (fragments.lookup name).isSome) (hname : name ∉ busy) :
    (unvisited fragments (name :: busy)).length < (unvisited fragments busy).length := by
  have hsame : unvisited fragments (name :: busy) = unvisited fragments (busy ++ [name]) := by
    simp [unvisited, or_comm]
  rw [hsame]
  exact length_unvisited_lt h hname

/-- One more expansion inside the others makes no difference, if there may be as many as there are
fragments that are not being expanded. -/
theorem run_expandWithin_succ (hn : Named env.fragments) (depth : Nat) :
    ∀ st : Session, (unvisited env.fragments st.expanding).length < depth →
      ∀ name f, env.fragments.lookup name = some f →
        (expandWithin env depth f).run st = (expandWithin env (depth + 1) f).run st := by
  induction depth with
  | zero => exact fun _ h => absurd h (Nat.not_lt_zero _)
  | succ depth ih =>
    intro st hlt name f hf
    obtain rfl := hn name f hf
    -- the walk for the fragment stays where the fragment is being expanded as well
    refine run_expandOnce_congr
      (I := fun st' => f.name ∉ st.expanding ∧ st'.expanding = f.name :: st.expanding)
      ⟨fun _ h => h, fun h => h⟩ (fun name g hg st' hst' => ?_) fun hname => ⟨hname, rfl⟩
    obtain ⟨hname, hst'⟩ := hst'
    have hfewer := length_unvisited_cons_lt (Option.isSome_of_eq_some hf) hname
    refine ⟨ih st' (by rw [hst']; omega) name g hg, hname, ?_⟩
    exact (balanced_expandWithin env depth g).expanding_after.trans hst'

/-- The limit on the expansions inside one another is never met: a fragment is expanded by
expansions of those that it spreads. -/
theorem expand_eq (hn : Named env.fragments) {name : String} {f : Fragment}
    (hf : env.fragments.lookup name = some f) : expand env f = expandOnce env (expand env) f := by
  funext st
  refine run_expandWithin_succ hn (env.fragments.length + 1) st ?_ name f hf
  exact Nat.lt_succ_of_le (List.length_filter_le _ _)

end Graphwright.Response
