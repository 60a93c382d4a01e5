import Graphwright.Proofs.Response.Shapes

/-!
# Fragments that spread themselves

Generating the operation types of documents is a total function, so it ends also where fragments
spread each other, over any number of steps and files, be they in use or not. It answers a part or
fails in one of the ways of `Fault`, and cycles of spreads are exactly what it cannot get past:

* `part_finds_cycles`: with a fragment that reaches itself the run fails, and the failure that names
  a fragment as spreading itself names one that does.

The fragments are those of `fragmentsOf`, by name, the later one of two.
-/
namespace Graphwright.Response

open Document

theorem append_ne_append {a b : String} (x y : String) {c d : Char} {r t : List Char}
    (ha : a.toList = c :: r) (hb : b.toList = d :: t) (hcd : c ≠ d) : a ++ x ≠ b ++ y := by
  intro h
  have h := congrArg String.toList h
  rw [String.toList_append, String.toList_append, ha, hb, List.cons_append, List.cons_append] at h
  exact hcd (List.cons.inj h).1

/-- No other failure reads like the one of a cycle. -/
theorem Fault.reaches_of_message {fragments : List (String × Fragment)} {e : Error} {name : String}
    (h : Fault fragments e) (hm : e.message = "Fragment \"" ++ name ++ "\" spreads itself") :
    Reaches fragments name name := by
  rw [String.append_assoc] at hm
  cases h with
  | field n type? =>
    unfold Error.message at hm
    simp only [String.append_assoc] at hm
    exact absurd hm (append_ne_append _ _ (by rfl) (by rfl) (by decide))
  | fragment n =>
    unfold Error.message at hm
    simp only [String.append_assoc] at hm
    exact absurd hm (append_ne_append _ _ (by rfl) (by rfl) (by decide))
  | fragmentType type n =>
    unfold Error.message at hm
    simp only [String.append_assoc] at hm
    exact absurd hm (append_ne_append _ _ (by rfl) (by rfl) (by decide))
  | cycle hr =>
    unfold Error.message at hm
    simp only [String.append_assoc] at hm
    have hn := (String.append_left_inj _).mp ((String.append_right_inj _).mp hm)
    exact hn ▸ hr

end Graphwright.Response

namespace Graphwright.OperationTypes

open Document Response

/-- **Cycles of spreads.** For a path that names a package, the run over any documents answers a
part or fails as `Fault` says. It fails if some fragment reaches itself through spreads; and where
the failure says of a fragment that it spreads itself, the fragment reaches itself. -/
theorem part_finds_cycles (s : Schema) (ds : List Document) (o : Options) (path package : String)
    (hp : Naming.packageOf path = .ok package) (w : List Warning) :
    let fragments := fragmentsOf (Document.concat ds)
    let run := (part s (Document.concat ds) o path).run w
    ((∃ p w', run = .ok p w') ∨ ∃ e w', run = .error e w' ∧ Fault fragments e) ∧
    ((∃ name, Reaches fragments name name) → ∃ e w', run = .error e w' ∧ Fault fragments e) ∧
    (∀ e w' name, run = .error e w' → e.message = "Fragment \"" ++ name ++ "\" spreads itself" →
      Reaches fragments name name) := by
  intro fragments run
  rcases run_part s (Document.concat ds) o hp w with ⟨found, w', hs, hr⟩ | ⟨e, w', -, hf, hr⟩
  · refine ⟨.inl ⟨_, w', hr⟩, fun ⟨name, h⟩ => absurd h (hs.not_reaches name),
      fun e w'' name he => ?_⟩
    have he : run = .error e w'' := he
    rw [show run = .ok _ w' from hr] at he
    cases he
  · refine ⟨.inr ⟨e, w', hr, hf⟩, fun _ => ⟨e, w', hr, hf⟩, fun e' w'' name he hm => ?_⟩
    have he : run = .error e' w'' := he
    rw [show run = .error e w' from hr] at he
    cases he
    exact hf.reaches_of_message hm

/-- Two files whose fragments spread each other, with no operation that uses them. -/
def mutualSpreads : List Document := [
  ⟨[.fragment { name := "A", on := "Query", selections := [.spread "B" []] }]⟩,
  ⟨[.fragment { name := "B", on := "Query", selections := [.spread "A" []] }]⟩]

theorem part_finds_cycle_over_two_files :
    Naming.packageOf "operations.py" = .ok "generated" ∧
    ∃ e w', (part {} (Document.concat mutualSpreads) {} "operations.py").run [] = .error e w' := by
  have hp : Naming.packageOf "operations.py" = .ok "generated" := by rfl
  have hAB : Spreads (fragmentsOf (Document.concat mutualSpreads)) "A" "B" :=
    ⟨_, rfl, by simp [spreadsIn, Selection.spreads]⟩
  have hBA : Spreads (fragmentsOf (Document.concat mutualSpreads)) "B" "A" :=
    ⟨_, rfl, by simp [spreadsIn, Selection.spreads]⟩
  obtain ⟨-, hcycle, -⟩ := part_finds_cycles {} mutualSpreads {} "operations.py" _ hp []
  obtain ⟨e, w', h, -⟩ := hcycle ⟨"A", .tail (.single hAB) hBA⟩
  exact ⟨hp, e, w', h⟩

end Graphwright.OperationTypes
