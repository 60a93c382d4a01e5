import Graphwright.Proofs.Response.Models

/-!
# Expansions in any session

A generator keeps one session for all definitions: failures end walks halfway, expansions are walks
inside other walks, and what they remember is used by all later ones. `Reachable` describes the
sessions that this may lead to.

* `Reachable.sound`: what is remembered in one is what its fragments stand for.
* `Reachable.run_expand`: an expansion in one meets other expansions in such sessions only.
* `expand_restores`: however an expansion ends, the session is where it was, and all that it
  remembers is what a new session would find out.
-/
namespace Graphwright.Response

open Document

/-- The sessions that a generator comes to. Its walks may be anywhere and may be left at any time,
but only expansions remember anything. -/
inductive Reachable (env : Env) : Session → Prop
  | start : Reachable env {}
  | enter {st : Session} (n : Node Unit) : Reachable env st → Reachable env (st.enter env.schema n)
  | leave {st : Session} : Reachable env st → Reachable env st.leave
  | begin {st : Session} (f : Fragment) : Reachable env st → Reachable env (st.begin env.schema f)
  | resume {st : Session} (context : List Schema.Surroundings) (name : String) :
      Reachable env st → Reachable env (st.resume context name)
  | expand {st : Session} {name : String} {f : Fragment} : Reachable env st →
      env.fragments.lookup name = some f → Reachable env (sessionAfter ((expand env f).run st))

namespace Reachable

variable {env : Env} {st : Session}

/-- What is remembered of fragments is what they stand for. -/
theorem sound (hn : Named env.fragments) (h : Reachable env st) : Sound env st.cache := by
  induction h with
  | start => exact nofun
  | enter _ _ ih => exact ih
  | leave _ ih => exact ih
  | begin _ _ ih => exact ih
  | resume _ _ _ ih => exact ih
  | @expand st name f _ hf ih =>
    have hsettled := settled_expand hn st.expanding name f hf st rfl ih
    cases hr : (Response.expand env f).run st with
    | ok fields st' =>
      rw [hr] at hsettled
      exact hsettled.2
    | error e st' =>
      rw [hr] at hsettled
      exact hsettled.1

/-! ## Walks between them -/

theorem walkable (env : Env) : Walkable env.schema (Reachable env) :=
  ⟨fun n h => h.enter n, fun h => h.leave⟩

/-- Expansions that are the same from reachable sessions end in them. -/
theorem same_expand {expand' : Fragment → Collect (List Field)}
    (he : ∀ st, Reachable env st → ∀ f, (Response.expand env f).run st = (expand' f).run st)
    (name : String) (f : Fragment) (hf : env.fragments.lookup name = some f) :
    Same (Reachable env) (Response.expand env f) (expand' f) :=
  fun st h => ⟨he st h f, h.expand hf⟩

/-- An expansion meets other expansions in reachable sessions only: what they would do in others
makes no difference. -/
theorem run_expand (hn : Named env.fragments) {expand' : Fragment → Collect (List Field)}
    (he : ∀ st, Reachable env st → ∀ f, (Response.expand env f).run st = (expand' f).run st)
    {name : String} {f : Fragment} (hf : env.fragments.lookup name = some f)
    (h : Reachable env st) :
    (Response.expand env f).run st = (expandOnce env expand' f).run st := by
  rw [expand_eq hn hf]
  exact run_expandOnce_congr (walkable env) (same_expand he) fun _ => h.begin f

/-- A walk over a definition ends in a reachable session, also if it fails. -/
theorem fieldsOf (h : Reachable env st) (d : Definition) :
    Reachable env (sessionAfter ((Response.fieldsOf env d).run st)) :=
  ((composes_same (walkable env)).fieldsOf (same_expand fun _ _ _ => rfl) d st h).2

end Reachable

/-! ## New sessions -/

/-- A new session finds out what a fragment stands for. -/
theorem Expands.run_expand {env : Env} (hn : Named env.fragments) {name : String}
    {fields : List Field} (h : Expands env name fields) :
    ∃ f st, env.fragments.lookup name = some f ∧ (expand env f).run {} = .ok fields st := by
  obtain ⟨f, below, hf, -⟩ := id h
  have hsettled := settled_expand hn [] name f hf {} rfl nofun
  refine ⟨f, ?_⟩
  cases hr : (expand env f).run {} with
  | ok fields' st =>
    rw [hr] at hsettled
    exact ⟨st, hf, by rw [h.unique hsettled.1]⟩
  | error e st =>
    rw [hr] at hsettled
    exact absurd h ((hsettled.2 nofun).1 fields)

/-- **Expansions in any session.** However the expansion of a fragment ends, the walk that met it is
where it was, the same fragments are being expanded, and if it failed the fragment is not
remembered. All that is ever remembered is what an expansion in a new session answers. -/
theorem expand_restores (s : Schema) (d : Document) {st : Session}
    (h : Reachable ⟨s, fragmentsOf d⟩ st) : (∀ name f, (fragmentsOf d).lookup name = some f →
      match (expand ⟨s, fragmentsOf d⟩ f).run st with
      | .ok _ st' => st'.context = st.context ∧ st'.expanding = st.expanding
      | .error _ st' =>
        st'.context = st.context ∧ st'.expanding = st.expanding ∧ st'.cache.lookup name = none) ∧
    ∀ e ∈ st.cache, ∃ f st', (fragmentsOf d).lookup e.1 = some f ∧
      (expand ⟨s, fragmentsOf d⟩ f).run {} = .ok e.2 st' := by
  have hn := named_fragmentsOf d
  refine ⟨fun name f hf => ?_, fun e he => (h.sound hn e he).run_expand hn⟩
  have hrestores := restores_expand ⟨s, fragmentsOf d⟩ f st
  rw [hn name f hf] at hrestores
  cases hr : (expand ⟨s, fragmentsOf d⟩ f).run st with
  | ok fields st' =>
    rw [hr] at hrestores
    exact ⟨hrestores.2, hrestores.1.expanding⟩
  | error e st' =>
    rw [hr] at hrestores
    exact ⟨hrestores.2.1, hrestores.1.expanding, hrestores.2.2⟩

/-! ### A fragment that spreads itself -/

/-- A fragment that is expanded without failing. -/
def leafFragment : Fragment where
  name := "Leaf"
  on := "A"
  selections := [.field none "x" [] [] none]

/-- A fragment that spreads another one and then itself. -/
def loopFragment : Fragment where
  name := "Loop"
  on := "A"
  selections := [.spread "Leaf" [], .spread "Loop" []]

/-- What collecting depends on with these fragments. -/
def loopEnv : Env :=
  ⟨OperationTypes.pairSchema, fragmentsOf ⟨[.fragment leafFragment, .fragment loopFragment]⟩⟩

/-- The walk for the fragment that spreads itself, begun again after its expansion has failed. -/
def loopAgain : Session :=
  (sessionAfter ((expand loopEnv loopFragment).run {})).begin OperationTypes.pairSchema loopFragment

/-- What the failure left behind is right. To fail again leaves the walk where it is. -/
theorem expand_restores_loopAgain :
    Reachable loopEnv loopAgain ∧ loopAgain.cache.map (·.1) = ["Leaf"] ∧
    (∃ e st', (expand loopEnv loopFragment).run loopAgain = .error e st' ∧
      st'.context = loopAgain.context ∧ st'.expanding = ["Loop"] ∧ st'.cache.lookup "Loop" = none) ∧
    ∀ e ∈ loopAgain.cache, ∃ f st', loopEnv.fragments.lookup e.1 = some f ∧
      (expand loopEnv f).run {} = .ok e.2 st' := by
  have hlookup : loopEnv.fragments.lookup "Loop" = some loopFragment := rfl
  have hreachable : Reachable loopEnv loopAgain := .begin loopFragment (.expand .start hlookup)
  obtain ⟨hrestores, hcache⟩ := expand_restores OperationTypes.pairSchema
    ⟨[.fragment leafFragment, .fragment loopFragment]⟩ hreachable
  exact ⟨hreachable, rfl, ⟨_, _, rfl, hrestores "Loop" loopFragment hlookup⟩, hcache⟩

end Graphwright.Response
