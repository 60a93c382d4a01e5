import Graphwright.Error

/-!
# Outcomes

What is done step by step succeeds if every step does, each from what the ones before it gave. These
equivalences take a success apart, and put one together.
-/
namespace Graphwright

theorem bind_eq_ok {ε α β : Type} {x : Except ε α} {f : α → Except ε β} {y : β} :
    (x >>= f) = .ok y ↔ ∃ v, x = .ok v ∧ f v = .ok y := by
  cases x <;> simp [bind, Except.bind]

theorem bind_eq_error {ε α β : Type} {x : Except ε α} {f : α → Except ε β} {e : ε} :
    (x >>= f) = .error e ↔ x = .error e ∨ ∃ v, x = .ok v ∧ f v = .error e := by
  cases x <;> simp [bind, Except.bind]

theorem pure_eq_ok {ε α : Type} {x y : α} : (pure x : Except ε α) = .ok y ↔ x = y := by
  simp [pure, Except.pure]

theorem exists_ok_of_isSome {ε α : Type} {x : Except ε α} (h : x.toOption.isSome) :
    ∃ v, x = .ok v := by
  cases x with
  | ok v => exact ⟨v, rfl⟩
  | error e => cases h

theorem exists_ok_of_any {ε α : Type} {x : Except ε α} {P : α → Bool} (h : x.toOption.any P) :
    ∃ v, x = .ok v ∧ P v := by
  cases x with
  | ok v => exact ⟨v, rfl, h⟩
  | error e => cases h

theorem mapM_cons_eq_ok {ε α β : Type} {f : α → Except ε β} {x : α} {rest : List α} {ys : List β} :
    (x :: rest).mapM f = .ok ys ↔ ∃ y more, f x = .ok y ∧ rest.mapM f = .ok more ∧
    ys = y :: more := by
  rw [List.mapM_cons]
  simp only [bind_eq_ok, pure_eq_ok]
  grind

theorem exists_of_mem_mapM_ok {ε α β : Type} {f : α → Except ε β} {xs : List α} {ys : List β}
    (h : xs.mapM f = .ok ys) : ∀ y ∈ ys, ∃ x ∈ xs, f x = .ok y := by
  induction xs generalizing ys with
  | nil =>
    cases h
    exact nofun
  | cons x rest ih =>
    obtain ⟨y, more, hy, hmore, rfl⟩ := mapM_cons_eq_ok.mp h
    refine List.forall_mem_cons.mpr ⟨⟨x, List.mem_cons_self, hy⟩, fun z hz => ?_⟩
    obtain ⟨w, hw, hf⟩ := ih hmore z hz
    exact ⟨w, List.mem_cons_of_mem _ hw, hf⟩

theorem map_eq_of_mapM_ok {ε α β γ : Type} {f : α → Except ε β} {g : β → γ} {h : α → γ}
    (hf : ∀ x y, f x = .ok y → g y = h x) {xs : List α} {ys : List β} (hxs : xs.mapM f = .ok ys) :
    ys.map g = xs.map h := by
  induction xs generalizing ys with
  | nil =>
    cases hxs
    rfl
  | cons x rest ih =>
    obtain ⟨y, more, hy, hmore, rfl⟩ := mapM_cons_eq_ok.mp hxs
    rw [List.map_cons, List.map_cons, hf x y hy, ih hmore]

/-! ## Returning -/

section Returns

variable {ε α β : Type}

/-- Something is returned. -/
def Returns (x : Except ε α) : Prop := ∃ v, x = .ok v

theorem returns_pure (v : α) : Returns (pure v : Except ε α) := ⟨v, rfl⟩

theorem returns_bind {x : Except ε α} {f : α → Except ε β} :
    Returns (x >>= f) ↔ ∃ v, x = .ok v ∧ Returns (f v) := by
  unfold Returns
  simp only [bind_eq_ok]
  exact ⟨fun ⟨y, v, hv, hy⟩ => ⟨v, hv, y, hy⟩, fun ⟨v, hv, y, hy⟩ => ⟨y, v, hv, hy⟩⟩

/-- If it does not matter what the first step returns, both steps have to return something. -/
theorem returns_bind_of_const {x : Except ε α} {f : α → Except ε β} {p : Prop}
    (h : ∀ v, x = .ok v → (Returns (f v) ↔ p)) :
    Returns (x >>= f) ↔ Returns x ∧ p := by
  rw [returns_bind]
  constructor
  · rintro ⟨v, hv, hf⟩
    exact ⟨⟨v, hv⟩, (h v hv).mp hf⟩
  · rintro ⟨⟨v, hv⟩, hp⟩
    exact ⟨v, hv, (h v hv).mpr hp⟩

theorem returns_mapM {f : α → Except ε β} {xs : List α} :
    Returns (xs.mapM f) ↔ ∀ x ∈ xs, Returns (f x) := by
  induction xs with
  | nil => exact ⟨nofun, fun _ => ⟨[], rfl⟩⟩
  | cons x rest ih =>
    rw [List.forall_mem_cons, ← ih]
    unfold Returns
    simp only [mapM_cons_eq_ok]
    exact ⟨fun ⟨_, y, more, hy, hmore, _⟩ => ⟨⟨y, hy⟩, more, hmore⟩,
      fun ⟨⟨y, hy⟩, more, hmore⟩ => ⟨_, y, more, hy, hmore, rfl⟩⟩

theorem returns_map {f : α → β} {x : Except ε α} : Returns (f <$> x) ↔ Returns x := by
  cases x <;> simp [Returns, Functor.map, Except.map]

end Returns

/-! ## Running -/

theorem run_bind_ok {α β : Type} {x : Run α} {f : α → Run β} {v : β} {w w' : List Warning} :
    (x >>= f).run w = .ok v w' ↔ ∃ u w₁, x.run w = .ok u w₁ ∧ (f u).run w₁ = .ok v w' := by
  rw [EStateM.run_bind]
  cases x.run w with
  | ok u w₁ =>
    refine ⟨fun h => ⟨u, w₁, rfl, h⟩, ?_⟩
    rintro ⟨_, _, h, hf⟩
    cases h
    exact hf
  | error e w₁ => exact ⟨nofun, nofun⟩

theorem run_lift_ok {ε α : Type} {cause : ε → Error} {x : Except ε α} {v : α}
    {w w' : List Warning} : (Run.lift cause x).run w = .ok v w' ↔ x = .ok v ∧ w' = w := by
  cases x with
  | ok u => simp [Run.lift, eq_comm]
  | error e => exact ⟨nofun, nofun⟩

end Graphwright
