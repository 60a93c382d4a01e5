import Graphwright.Client.Helper
import Graphwright.Proofs.Response.Shapes
import Mathlib.Data.List.Nodup

/-!
# Fragments in a client's documents

The document of an operation holds the operation and the fragments it needs, so that it can be sent
by itself. `FirstUse fragments seen uses new` says which fragments those are and in which order,
without pending work or a measure: each fragment at its first use, directly followed by the ones
that it is the first to use in turn. Such an order exists also where fragments spread each other.

* `reachableFrom_spec`: the search answers the fragments in order of first use, or fails with a name
  that is reached and not defined.
* `FirstUse.mem_iff`: from no fragments seen, the order has exactly the reached ones, each once.
* `documentText_selfContained`: a document fails exactly if a reached fragment is not defined;
  otherwise each spread in it has exactly one definition in it.
-/
namespace Graphwright.Document

open Response (Spreads)
open Relation

/-! ## The order of first use -/

/-- After the fragments seen before, the uses add the new ones: each where it is first used, with
those first used by its selections right behind it. -/
inductive FirstUse (fragments : List (String × Fragment)) :
    List String → List String → List String → Prop
  | nil {seen} : FirstUse fragments seen [] []
  | again {seen name uses new} : name ∈ seen → FirstUse fragments seen uses new →
      FirstUse fragments seen (name :: uses) new
  | first {seen name uses f below more} : name ∉ seen → fragments.lookup name = some f →
      FirstUse fragments (seen ++ [name]) (spreadsIn f.selections) below →
      FirstUse fragments (seen ++ name :: below) uses more →
      FirstUse fragments seen (name :: uses) (name :: (below ++ more))

/-- The fragments that selections lead to, directly or through the spreads of other fragments. -/
def Uses (fragments : List (String × Fragment)) (ss : List Selection) (name : String) : Prop :=
  ∃ m ∈ spreadsIn ss, ReflTransGen (Spreads fragments) m name

variable {fragments : List (String × Fragment)} {seen uses new : List String}

namespace FirstUse

theorem split {us vs : List String} (h : FirstUse fragments seen (us ++ vs) new) :
    ∃ before after, new = before ++ after ∧ FirstUse fragments seen us before ∧
      FirstUse fragments (seen ++ before) vs after := by
  induction us generalizing seen new with
  | nil => exact ⟨[], new, rfl, .nil, by simpa using h⟩
  | cons u us ih =>
    cases h with
    | again hu h =>
      obtain ⟨before, after, rfl, hbefore, hafter⟩ := ih h
      exact ⟨before, after, rfl, .again hu hbefore, hafter⟩
    | @first _ _ _ f below more hu hf hbelow h =>
      obtain ⟨before, after, rfl, hbefore, hafter⟩ := ih h
      refine ⟨u :: (below ++ before), after, by simp, .first hu hf hbelow hbefore, ?_⟩
      simpa using hafter

/-- What has been seen may be used any number of times. -/
theorem of_filter {name : String} (hname : name ∈ seen)
    (h : FirstUse fragments seen (uses.filter (· != name)) new) :
    FirstUse fragments seen uses new := by
  induction uses generalizing seen new with
  | nil => exact h
  | cons u us ih =>
    by_cases hu : u = name
    · rw [List.filter_cons_of_neg (by simp [hu])] at h
      exact .again (hu ▸ hname) (ih hname h)
    · rw [List.filter_cons_of_pos (by simpa using hu)] at h
      cases h with
      | again hseen h => exact .again hseen (ih hname h)
      | first hseen hf hbelow h => exact .first hseen hf hbelow (ih (by simp [hname]) h)

theorem of_eraseDups : ∀ {uses seen new : List String}, FirstUse fragments seen uses.eraseDups new →
    FirstUse fragments seen uses new
  | [], _, _, h => h
  | u :: us, seen, new, h => by
    rw [List.eraseDups_cons] at h
    cases h with
    | again hu h => exact .again hu (of_filter hu (of_eraseDups h))
    | first hu hf hbelow h => exact .first hu hf hbelow (of_filter (by simp) (of_eraseDups h))
termination_by uses => uses.length
decreasing_by all_goals exact Nat.lt_succ_of_le (List.length_filter_le _ us)

theorem seen_or_new (h : FirstUse fragments seen uses new) : ∀ u ∈ uses, u ∈ seen ∨ u ∈ new := by
  induction h with
  | nil => simp
  | again hname _ ih =>
    intro u hu
    rcases List.mem_cons.mp hu with rfl | hu
    · exact .inl hname
    · exact ih u hu
  | first _ _ _ _ _ ih =>
    intro u hu
    rcases List.mem_cons.mp hu with rfl | hu
    · exact .inr List.mem_cons_self
    · have h := ih u hu
      simp only [List.mem_append, List.mem_cons] at h ⊢
      grind

theorem nodup (h : FirstUse fragments seen uses new) : new.Nodup ∧ ∀ n ∈ new, n ∉ seen := by
  induction h with
  | nil => simp
  | again _ _ ih => exact ih
  | @first seen name uses f below more hname _ _ _ ihbelow ih =>
    have hmore : ∀ n ∈ more, n ∉ seen ∧ n ≠ name ∧ n ∉ below := by simpa [not_or] using ih.2
    have hbelow : ∀ n ∈ below, n ∉ seen ∧ n ≠ name := by simpa [not_or] using ihbelow.2
    constructor
    · refine List.nodup_cons.mpr ⟨fun hmem => ?_, List.nodup_append.mpr ⟨ihbelow.1, ih.1, ?_⟩⟩
      · rcases List.mem_append.mp hmem with hmem | hmem
        · exact (hbelow _ hmem).2 rfl
        · exact (hmore _ hmem).2.1 rfl
      · rintro n hn _ hm rfl
        exact (hmore n hm).2.2 hn
    · intro n hn
      rcases List.mem_cons.mp hn with rfl | hn
      · exact hname
      · exact (List.mem_append.mp hn).elim (fun hn => (hbelow n hn).1) (fun hn => (hmore n hn).1)

theorem defined (h : FirstUse fragments seen uses new) :
    ∀ n ∈ new, (fragments.lookup n).isSome := by
  induction h with
  | nil => simp
  | again _ _ ih => exact ih
  | first _ hf _ _ ihbelow ih =>
    intro n hn
    rcases List.mem_cons.mp hn with rfl | hn
    · rw [hf]
      rfl
    · exact (List.mem_append.mp hn).elim (ihbelow n) (ih n)

theorem reached (h : FirstUse fragments seen uses new) :
    ∀ n ∈ new, ∃ u ∈ uses, ReflTransGen (Spreads fragments) u n := by
  induction h with
  | nil => simp
  | again _ _ ih =>
    intro n hn
    obtain ⟨u, hu, hr⟩ := ih n hn
    exact ⟨u, List.mem_cons_of_mem _ hu, hr⟩
  | first _ hf _ _ ihbelow ih =>
    intro n hn
    rcases List.mem_cons.mp hn with rfl | hn
    · exact ⟨n, List.mem_cons_self, .refl⟩
    · rcases List.mem_append.mp hn with hn | hn
      · obtain ⟨u, hu, hr⟩ := ihbelow n hn
        exact ⟨_, List.mem_cons_self, .head ⟨_, hf, hu⟩ hr⟩
      · obtain ⟨u, hu, hr⟩ := ih n hn
        exact ⟨u, List.mem_cons_of_mem _ hu, hr⟩

theorem closed (h : FirstUse fragments seen uses new) :
    ∀ n ∈ new, ∀ m, Spreads fragments n m → m ∈ seen ∨ m ∈ new := by
  induction h with
  | nil => simp
  | again _ _ ih => exact ih
  | @first seen name uses f below more _ hf hbelow _ ihbelow ih =>
    intro n hn m hs
    rcases List.mem_cons.mp hn with rfl | hn
    · obtain ⟨g, hg, hm⟩ := hs
      obtain rfl : f = g := Option.some.inj (hf.symm.trans hg)
      have h := hbelow.seen_or_new m hm
      simp only [List.mem_append, List.mem_cons, List.not_mem_nil, or_false] at h ⊢
      grind
    · have h : m ∈ seen ++ name :: below ∨ m ∈ below ++ more := by
        rcases List.mem_append.mp hn with hn | hn
        · have h := ihbelow n hn m hs
          simp only [List.mem_append, List.mem_cons, List.not_mem_nil, or_false] at h ⊢
          grind
        · exact (ih n hn m hs).imp_right (List.mem_append_right _)
      simp only [List.mem_append, List.mem_cons] at h ⊢
      grind

/-- Where nothing has been seen before, the new fragments are those that are reached. -/
theorem mem_iff {ss : List Selection} (h : FirstUse fragments [] (spreadsIn ss) new)
    (name : String) : name ∈ new ↔ Uses fragments ss name := by
  refine ⟨h.reached name, ?_⟩
  rintro ⟨m, hm, hr⟩
  induction hr with
  | refl => exact (h.seen_or_new m hm).resolve_left List.not_mem_nil
  | tail _ hs ih => exact (h.closed _ ih _ hs).resolve_left List.not_mem_nil

end FirstUse

/-! ## The search -/

section Step

variable {fragments : List (String × Fragment)} {visited pending : List String} {name : String}

theorem reachableFrom_visited (h : name ∈ visited) :
    reachableFrom fragments visited (name :: pending) =
      reachableFrom fragments visited pending := by
  rw [reachableFrom, dif_pos h]

theorem reachableFrom_unknown (h : name ∉ visited) (hf : fragments.lookup name = none) :
    reachableFrom fragments visited (name :: pending) = .error name := by
  rw [reachableFrom, dif_neg h]
  split
  · rfl
  · rename_i heq
    rw [hf] at heq
    cases heq

theorem reachableFrom_new (h : name ∉ visited) {f : Fragment}
    (hf : fragments.lookup name = some f) :
    reachableFrom fragments visited (name :: pending) =
      reachableFrom fragments (visited ++ [name]) (spreads f.selections ++ pending) := by
  rw [reachableFrom, dif_neg h]
  split
  · rename_i heq
    rw [hf] at heq
    cases heq
  · rename_i heq
    rw [hf] at heq
    cases heq
    rfl

end Step

/-- **Search.** The search answers the fragments in order of first use, behind those it has visited.
It fails with a fragment that is reached but not defined. -/
theorem reachableFrom_spec (fragments : List (String × Fragment)) (visited pending : List String) :
    match reachableFrom fragments visited pending with
    | .ok names => ∃ new, names = visited ++ new ∧ FirstUse fragments visited pending new
    | .error n => fragments.lookup n = none ∧
        ∃ m ∈ pending, ReflTransGen (Spreads fragments) m n := by
  fun_induction reachableFrom fragments visited pending with
  | case1 visited => exact ⟨[], by simp, .nil⟩
  | case2 visited name pending hv ih =>
    cases hr : reachableFrom fragments visited pending with
    | ok names =>
      rw [hr] at ih
      obtain ⟨new, hnew, hfirst⟩ := ih
      exact ⟨new, hnew, .again hv hfirst⟩
    | error n =>
      rw [hr] at ih
      obtain ⟨hn, m, hm, hreach⟩ := ih
      exact ⟨hn, m, List.mem_cons_of_mem _ hm, hreach⟩
  | case3 visited name pending hv hf => exact ⟨hf, name, List.mem_cons_self, .refl⟩
  | case4 visited name pending hv f hf ih =>
    cases hr : reachableFrom fragments (visited ++ [name]) (spreads f.selections ++ pending) with
    | ok names =>
      rw [hr] at ih
      obtain ⟨new, hnew, hfirst⟩ := ih
      obtain ⟨below, more, rfl, hbelow, hmore⟩ := hfirst.split
      refine ⟨name :: (below ++ more), by simp [hnew], .first hv hf hbelow.of_eraseDups ?_⟩
      simpa using hmore
    | error n =>
      rw [hr] at ih
      obtain ⟨hn, m, hm, hreach⟩ := ih
      rcases List.mem_append.mp hm with hm | hm
      · -- the pending name is spread by the fragment just visited
        exact ⟨hn, name, List.mem_cons_self, .head ⟨f, hf, by simpa [spreads] using hm⟩ hreach⟩
      · exact ⟨hn, m, List.mem_cons_of_mem _ hm, hreach⟩

end Graphwright.Document

namespace Graphwright.Client

open Document Response
open Relation

/-! ## Documents -/

variable {d : Document}

theorem names_filterMap_lookup {names : List String}
    (h : ∀ n ∈ names, ((fragmentsOf d).lookup n).isSome) :
    (names.filterMap fun n => (fragmentsOf d).lookup n).map (·.name) = names := by
  induction names with
  | nil => rfl
  | cons n rest ih =>
    obtain ⟨f, hf⟩ := Option.isSome_iff_exists.mp (h n List.mem_cons_self)
    simp only [List.filterMap_cons, hf, List.map_cons, named_fragmentsOf d n f hf,
      ih fun m hm => h m (List.mem_cons_of_mem _ hm)]

theorem lookup_of_mem_filterMap {names : List String} {f : Fragment}
    (h : f ∈ names.filterMap fun n => (fragmentsOf d).lookup n) :
    (fragmentsOf d).lookup f.name = some f := by
  obtain ⟨n, -, hf⟩ := List.mem_filterMap.mp h
  rw [named_fragmentsOf d n f hf]
  exact hf

namespace NamedOperation

/-- The fragments are those that the operation reaches, in order of first use. -/
structure Carries (d : Document) (o : NamedOperation) (found : List Fragment) : Prop where
  first : FirstUse (fragmentsOf d) [] (spreadsIn o.operation.selections) (found.map (·.name))
  defined : ∀ f ∈ found, (fragmentsOf d).lookup f.name = some f

/-- **Fragments.** An operation has its fragments in order of first use, or the name of one that it
reaches and that is not defined. -/
theorem fragments_spec (d : Document) (o : NamedOperation) :
    match o.fragments (fragmentsOf d) with
    | .ok found => o.Carries d found
    | .error e => ∃ n, e = .unknownFragment n ∧ Uses (fragmentsOf d) o.operation.selections n ∧
        (fragmentsOf d).lookup n = none := by
  have hspec := reachableFrom_spec (fragmentsOf d) [] (spreads o.operation.selections)
  unfold fragments reachable
  cases hr : reachableFrom (fragmentsOf d) [] (spreads o.operation.selections) with
  | ok names =>
    rw [hr] at hspec
    obtain ⟨new, rfl, hfirst⟩ := hspec
    have hfirst := hfirst.of_eraseDups
    refine ⟨?_, fun f => lookup_of_mem_filterMap⟩
    rw [names_filterMap_lookup hfirst.defined]
    exact hfirst
  | error n =>
    rw [hr] at hspec
    obtain ⟨hn, m, hm, hreach⟩ := hspec
    exact ⟨n, rfl, ⟨m, by simpa [spreads] using hm, hreach⟩, hn⟩

variable {o : NamedOperation} {found : List Fragment}

theorem carries_of_ok (h : o.fragments (fragmentsOf d) = .ok found) : o.Carries d found := by
  have hspec := fragments_spec d o
  rwa [h] at hspec

theorem exists_unknown_of_error {e : Error} (h : o.fragments (fragmentsOf d) = .error e) :
    ∃ n, e = .unknownFragment n ∧ Uses (fragmentsOf d) o.operation.selections n ∧
      (fragmentsOf d).lookup n = none := by
  have hspec := fragments_spec d o
  rwa [h] at hspec

/-- An operation lacks fragments exactly if it reaches one that is not defined. -/
theorem fragments_fail_iff : (∃ e, o.fragments (fragmentsOf d) = .error e) ↔
    ∃ n, Uses (fragmentsOf d) o.operation.selections n ∧ (fragmentsOf d).lookup n = none := by
  constructor
  · rintro ⟨e, h⟩
    obtain ⟨n, -, hn⟩ := exists_unknown_of_error h
    exact ⟨n, hn⟩
  · rintro ⟨n, hn, hnone⟩
    cases h : o.fragments (fragmentsOf d) with
    | error e => exact ⟨e, rfl⟩
    | ok found =>
      have hfirst := (carries_of_ok h).first
      have hdef := hfirst.defined n ((hfirst.mem_iff n).mpr hn)
      rw [hnone] at hdef
      cases hdef

namespace Carries

theorem mem_iff (h : o.Carries d found) (f : Fragment) :
    f ∈ found ↔
      Uses (fragmentsOf d) o.operation.selections f.name ∧
        (fragmentsOf d).lookup f.name = some f := by
  constructor
  · exact fun hf => ⟨(h.first.mem_iff f.name).mp (List.mem_map_of_mem hf), h.defined f hf⟩
  · rintro ⟨huse, hlook⟩
    obtain ⟨g, hg, hname⟩ := List.mem_map.mp ((h.first.mem_iff f.name).mpr huse)
    have hg' := h.defined g hg
    rw [show g.name = f.name from hname, hlook] at hg'
    cases hg'
    exact hg

end Carries

/-! ### Their definitions -/

/-- The definitions in the document of an operation. -/
def held (o : NamedOperation) (found : List Fragment) : List Definition :=
  .operation o.operation :: found.map .fragment

theorem documentText_of_ok (h : o.fragments (fragmentsOf d) = .ok found) :
    o.documentText (fragmentsOf d) =
      .ok ("\n\n".intercalate ((o.held found).map Print.definition)) := by
  simp [documentText, h, bind, Except.bind, pure, Except.pure, held, Print.definition,
    Function.comp_def]

theorem documentText_of_error {e : Error} (h : o.fragments (fragmentsOf d) = .error e) :
    o.documentText (fragmentsOf d) = .error e := by
  simp [documentText, h, bind, Except.bind]

theorem names_held (o : NamedOperation) (found : List Fragment) :
    (fragmentsOf ⟨o.held found⟩).map (·.1) = (found.map (·.name)).reverse := by
  simp [fragmentsOf, held, List.filterMap_append]

namespace Carries

/-- Whatever a definition in the document spreads is among the fragments. -/
theorem mem_of_spreads_held (h : o.Carries d found) {x : Definition} (hx : x ∈ o.held found)
    {n : String} (hn : n ∈ x.spreads) : n ∈ found.map (·.name) := by
  refine (h.first.mem_iff n).mpr ?_
  rcases List.mem_cons.mp hx with rfl | hx
  · exact ⟨n, by simpa [Definition.spreads, spreads] using hn, .refl⟩
  · obtain ⟨f, hf, rfl⟩ := List.mem_map.mp hx
    obtain ⟨m, hm, hreach⟩ := (h.first.mem_iff f.name).mp (List.mem_map_of_mem hf)
    exact ⟨m, hm, hreach.tail ⟨f, h.defined f hf, by simpa [Definition.spreads, spreads] using hn⟩⟩

theorem count_held (h : o.Carries d found) {x : Definition} (hx : x ∈ o.held found) {n : String}
    (hn : n ∈ x.spreads) : ((fragmentsOf ⟨o.held found⟩).map (·.1)).count n = 1 := by
  rw [names_held, List.count_reverse]
  exact List.count_eq_one_of_mem h.first.nodup.1 (h.mem_of_spreads_held hx hn)

end Carries

/-- **Documents.** An operation has no document exactly if it reaches a fragment that is not
defined, and the failure names one. Otherwise the document holds the operation and the fragments it
reaches, each once and in order of first use, and every spread in it has exactly one definition in
it. -/
theorem documentText_selfContained (d : Document) (o : NamedOperation) :
    let fs := fragmentsOf d
    let ss := o.operation.selections
    ((∃ e, o.fragments fs = .error e) ↔ ∃ n, Uses fs ss n ∧ fs.lookup n = none) ∧
    (∀ e, o.fragments fs = .error e → o.documentText fs = .error e ∧
      ∃ n, e = .unknownFragment n ∧ Uses fs ss n ∧ fs.lookup n = none) ∧
    (∀ found, o.fragments fs = .ok found →
      FirstUse fs [] (spreadsIn ss) (found.map (·.name)) ∧ (found.map (·.name)).Nodup ∧
      (∀ f, f ∈ found ↔ Uses fs ss f.name ∧ fs.lookup f.name = some f) ∧
      o.documentText fs = .ok ("\n\n".intercalate ((o.held found).map Print.definition)) ∧
      ∀ x ∈ o.held found, ∀ n ∈ x.spreads,
        ((fragmentsOf ⟨o.held found⟩).map (·.1)).count n = 1) := by
  intro fs ss
  refine ⟨fragments_fail_iff, fun e h => ⟨documentText_of_error h, exists_unknown_of_error h⟩,
    fun found h => ?_⟩
  have hc : o.Carries d found := carries_of_ok h
  exact ⟨hc.first, hc.first.nodup.1, hc.mem_iff, documentText_of_ok h,
    fun x hx n hn => hc.count_held hx hn⟩

/-- Two fragments that spread each other, and a third one below both. -/
def circle : List Fragment := [
  { name := "A", on := "T", selections := [.spread "B" [], .spread "C" []] },
  { name := "B", on := "T", selections := [.spread "A" [], .spread "C" []] },
  { name := "C", on := "T", selections := [.field none "x" [] [] none] }]

def spreading (names : List String) : NamedOperation :=
  ⟨"Q", { name? := some "Q", selections := names.map (.spread · []) }⟩

theorem documentText_selfContained_circle :
    let fs := fragmentsOf ⟨circle.map .fragment⟩
    (∃ found, (spreading ["B", "A"]).fragments fs = .ok found ∧
      found.map (·.name) = ["B", "A", "C"] ∧
      ∀ x ∈ (spreading ["B", "A"]).held found, ∀ n ∈ x.spreads,
        ((fragmentsOf ⟨(spreading ["B", "A"]).held found⟩).map (·.1)).count n = 1) ∧
    (spreading ["D", "A"]).fragments fs = .error (.unknownFragment "D") ∧
      ∃ n, Uses fs ((spreading ["D", "A"]).operation.selections) n ∧ fs.lookup n = none := by
  intro fs
  have hA : fs.lookup "A" = some circle[0] := by rfl
  have hB : fs.lookup "B" = some circle[1] := by rfl
  have hC : fs.lookup "C" = some circle[2] := by rfl
  have hD : fs.lookup "D" = none := by rfl
  have hreach : reachableFrom fs [] ["B", "A"] = .ok ["B", "A", "C"] :=
    calc
      reachableFrom fs [] ["B", "A"]
      _ = reachableFrom fs ["B"] ["A", "C", "A"] := reachableFrom_new (by decide) hB
      _ = reachableFrom fs ["B", "A"] ["B", "C", "C", "A"] := reachableFrom_new (by decide) hA
      _ = reachableFrom fs ["B", "A"] ["C", "C", "A"] := reachableFrom_visited (by decide)
      _ = reachableFrom fs ["B", "A", "C"] ["C", "A"] := reachableFrom_new (by decide) hC
      _ = reachableFrom fs ["B", "A", "C"] ["A"] := reachableFrom_visited (by decide)
      _ = reachableFrom fs ["B", "A", "C"] [] := reachableFrom_visited (by decide)
      _ = .ok ["B", "A", "C"] := by rw [reachableFrom]
  have hfound : (spreading ["B", "A"]).fragments fs = .ok [circle[1], circle[0], circle[2]] := by
    unfold fragments reachable
    rw [show spreads (spreading ["B", "A"]).operation.selections = ["B", "A"] by rfl, hreach]
    rfl
  have hfail : (spreading ["D", "A"]).fragments fs = .error (.unknownFragment "D") := by
    unfold fragments reachable
    rw [show spreads (spreading ["D", "A"]).operation.selections = ["D", "A"] by rfl,
      reachableFrom_unknown (by decide) hD]
    rfl
  obtain ⟨-, -, hall⟩ := documentText_selfContained ⟨circle.map .fragment⟩ (spreading ["B", "A"])
  obtain ⟨hiff, -, -⟩ := documentText_selfContained ⟨circle.map .fragment⟩ (spreading ["D", "A"])
  exact ⟨⟨_, hfound, rfl, (hall _ hfound).2.2.2.2⟩, hfail, hiff.mp ⟨_, hfail⟩⟩

end NamedOperation

end Graphwright.Client
