import Graphwright.Proofs.Module.Alone
import Graphwright.Proofs.Together

/-!
# One generator alone

A run of one generator by its name and the text of its part by itself are two ways to one module.
The run combines a list of one part, applies no hooks, and looks at the grammar of what comes out;
the text is laid out from the part as it is.

* `SchemaTypes.isSound_part`, `OperationTypes.isSound_part`, `Client.isSound_part`,
  `Resolver.isSound_part`: every generator makes its registry by calls, and encloses its fragments
  in something if it encloses them.
* `combined_alone`: the run answers a text exactly if it is that of the part and follows the
  grammar; and how a part is combined alone does not depend on which generator made it.
-/
namespace Graphwright

open Graphwright.Document Graphwright.Module

namespace SchemaTypes

theorem isSound_part {s : Schema} {o : Options} {path : String} {p : Part}
    (h : part s o path = .ok p) : p.IsSound := by
  obtain ⟨package, r, -, hr, rfl⟩ := part_ok.mp h
  obtain ⟨-, -, xs, -, rfl⟩ := generate_ok.mp hr
  exact ⟨(Registry.reached_orFresh_none _).recordAll _ _, nofun⟩

end SchemaTypes

namespace OperationTypes

theorem isSound_part {s : Schema} {d : Document} {o : Options} {path : String} {w w' : List Warning}
    {p : Part} (h : (part s d o path).run w = .ok p w') : p.IsSound := by
  obtain ⟨package, found, -, -, -, rfl⟩ := part_ok h
  let first := (Registry.orFresh none o.typeImports).recordAll [annotationsSymbol]
  have hfirst : first.Reached := (Registry.reached_orFresh_none _).recordAll _ _
  have hstart : (startOf s o).2 = (first.qualify o.typesFrom? typesName).2 := rfl
  exact ⟨(hstart ▸ hfirst.qualify _ _ _).recordAll _ _, nofun⟩

end OperationTypes

namespace Client

theorem reached_headRegistry (o : Options) : (headRegistry o none).Reached :=
  (Registry.reached_orFresh_none _).recordEach _

theorem reached_contextOf {o : Options} {context : Context} (h : contextOf o none = .ok context) :
    context.imports.Reached := by
  have htypes := (reached_headRegistry o).qualify o.operationTypesFrom? typesName .runtime
  rw [contextOf_eq] at h
  dsimp only at h
  split at h
  · split at h
    · cases h
    · cases h
      exact htypes.qualify _ _ _
  · cases h
    exact htypes

theorem isSound_part {s : Schema} {d : Document} {o : Options} {path : String} {w w' : List Warning}
    {p : Part} (h : (part s d o path).run w = .ok p w') : p.IsSound := by
  obtain ⟨package, context, hs, -, hcontext, -, rfl, -⟩ := part_ok.mp h
  exact ⟨reached_contextOf hcontext, nofun⟩

end Client

namespace Resolver

open Graphwright.Types (NamedType)

theorem reached_replacements {package : String} {mappers : List (String × String)} {r r' : Registry}
    {found : List (String × NamedType)} (hr : r.Reached)
    (h : replacements package r mappers = .ok (found, r')) :
    r'.Reached := by
  induction mappers generalizing r found with
  | nil =>
    cases h
    exact hr
  | cons first rest ih =>
    rw [replacements] at h
    -- the module of the type is recorded, unless the type is built in
    have hrest {r₁ : Registry} (hr₁ : r₁.Reached) (h₁ : (replacements package r₁ rest >>= fun x =>
        pure ((first.1, ⟨(Types.Target.parse first.2).name, []⟩) :: x.1, x.2)) = .ok (found, r')) :
        r'.Reached := by
      obtain ⟨⟨more, r₂⟩, hmore, h₂⟩ := bind_eq_ok.mp h₁
      cases h₂
      exact ih hr₁ hmore
    split at h
    · exact hrest hr h
    · rename_i source _
      cases hsource : Naming.resolveModule source package with
      | error e =>
        rw [hsource] at h
        cases h
      | ok source =>
        rw [hsource] at h
        exact hrest (hr.record _) h

theorem reached_generate {s : Schema} {o : Options} {package : String} {r : Result}
    (h : generate s o package = .ok r) : r.imports.Reached := by
  have hstart : (initialImports (Registry.orFresh none o.typeImports)).Reached :=
    (Registry.reached_orFresh_none _).recordEach _
  unfold generate at h
  cases hreplacements : replacements (packageFor o package)
      ((initialImports (Registry.orFresh none o.typeImports)).qualify o.typesFrom? typesName
        .typing).2
      o.mappers with
  | error e =>
    simp only [hreplacements] at h
    cases h
  | ok found =>
    have hfound : found.2.Reached := reached_replacements (hstart.qualify _ _ _) hreplacements
    cases hd : s.document with
    | error e =>
      simp only [hreplacements, hd] at h
      cases h
    | ok d =>
      simp only [hreplacements, hd] at h
      obtain ⟨_, h₁, h⟩ := bind_eq_ok.mp h
      cases h₁
      obtain ⟨_, -, h⟩ := bind_eq_ok.mp h
      dsimp only at h
      split at h
      · cases h
        exact hfound.recordAll _ _
      · cases h

theorem enclose_ne_empty (className content : String) : enclose className content ≠ "" := by
  unfold enclose
  split <;> simp

theorem isSound_part {s : Schema} {o : Options} {path : String} {p : Part}
    (h : part s o path = .ok p) : p.IsSound := by
  unfold part at h
  cases hpackage : Naming.packageOf path with
  | error e =>
    rw [hpackage] at h
    cases h
  | ok package =>
    simp only [hpackage] at h
    obtain ⟨_, -, h⟩ := bind_eq_ok.mp h
    obtain ⟨r, hr, h⟩ := bind_eq_ok.mp h
    cases h
    refine ⟨reached_generate hr, ?_⟩
    rintro _ ⟨⟩ text
    exact enclose_ne_empty o.className text

end Resolver

namespace Generator

theorem isSound_part {g : Generator} {s : Schema} {d : Document} {o : Options} {path : String}
    {w w' : List Warning} {p : Part} (h : (g.part s d o path).run w = .ok p w') : p.IsSound := by
  cases g with
  | schemaTypes => exact SchemaTypes.isSound_part (run_lift_ok.mp h).1
  | operationTypes => exact OperationTypes.isSound_part h
  | client => exact Client.isSound_part h
  | resolvers => exact Resolver.isSound_part (run_lift_ok.mp h).1

theorem ofNames_singleton (g : Generator) : ofNames [g.name] = .ok [g] := by
  cases g <;> rfl

/-- The text of a module that a generator makes by itself. -/
def ownText (g : Generator) (s : Schema) (d : Document) (options : Except Error Options)
    (path : String) :
    Run String := do
  let o ← Run.lift id options
  let p ← g.part s d o path
  return p.render

theorem ownText_ok {g : Generator} {s : Schema} {d : Document} {options : Except Error Options}
    {path text : String} {w w' : List Warning} : (g.ownText s d options path).run w = .ok text w' ↔
      ∃ o p, options = .ok o ∧ (g.part s d o path).run w = .ok p w' ∧ text = p.render := by
  unfold ownText
  simp only [run_bind_ok, run_lift_ok, EStateM.run_pure]
  constructor
  · rintro ⟨o, _, ⟨ho, rfl⟩, p, _, hp, h⟩
    cases h
    exact ⟨o, p, ho, hp, rfl⟩
  · rintro ⟨o, p, ho, hp, rfl⟩
    exact ⟨o, w, ⟨ho, rfl⟩, p, w', hp, rfl⟩

end Generator

theorem combinedText_singleton_ok {g : Generator} {s : Schema} {d : Document} {o : Options}
    {path text : String} {w w' : List Warning} : (combinedText [g] s d o path).run w = .ok text w' ↔
      ∃ p, (g.part s d o path).run w = .ok p w' ∧ text = Part.combine [p] := by
  unfold combinedText
  rw [← bind_pure_comp]
  simp only [List.mapM_cons, List.mapM_nil, run_bind_ok, EStateM.run_pure]
  constructor
  · rintro ⟨_, _, ⟨p, _, hp, _, _, h₀, h₁⟩, h⟩
    cases h₀
    cases h₁
    cases h
    exact ⟨p, hp, rfl⟩
  · rintro ⟨p, hp, rfl⟩
    exact ⟨[p], w', ⟨p, w', hp, [], w', rfl, rfl⟩, rfl⟩

theorem checked_ok {path text text' : String} :
    checked path text = .ok text' ↔ text' = text ∧ Grammar.isModule text := by
  unfold checked
  split <;> rename_i h
  · rw [Except.ok.injEq]
    exact ⟨fun heq => ⟨heq.symm, h⟩, fun heq => heq.1.symm⟩
  · exact ⟨nofun, fun heq => absurd heq.2 h⟩

/-- A run of one generator answers the text that the generator makes by itself, if that follows the
grammar. -/
theorem run_generate_singleton (g : Generator) (s : Schema) (d : Document)
    (options : Except Error Options) (path text : String) (w w' : List Warning) :
    (generate [g.name] s d options path []).run w = .ok text w' ↔
      (g.ownText s d options path).run w = .ok text w' ∧ Grammar.isModule text := by
  unfold generate
  simp only [run_bind_ok, run_lift_ok, Generator.ofNames_singleton, Hook.run, List.foldl_nil,
    checked_ok, Generator.ownText_ok]
  constructor
  · rintro ⟨_, _, ⟨hg, rfl⟩, o, _, ⟨ho, rfl⟩, _, _, hcombined, ⟨rfl, hmodule⟩, rfl⟩
    cases hg
    obtain ⟨p, hp, rfl⟩ := combinedText_singleton_ok.mp hcombined
    rw [Part.combine_singleton (Generator.isSound_part hp)] at hmodule ⊢
    exact ⟨⟨o, p, ho, hp, rfl⟩, hmodule⟩
  · rintro ⟨⟨o, p, ho, hp, rfl⟩, hmodule⟩
    rw [← Part.combine_singleton (Generator.isSound_part hp)] at hmodule ⊢
    have hcombined := combinedText_singleton_ok.mpr ⟨p, hp, rfl⟩
    exact ⟨[g], w, ⟨rfl, rfl⟩, o, w, ⟨ho, rfl⟩, _, w', hcombined, ⟨rfl, hmodule⟩, rfl⟩

/-- **One generator.** A run of one generator by its name, without hooks, answers exactly the text
that the generator makes by itself, with the same warnings, as long as it follows the grammar. The
same holds of any part whose registry is made by calls, if nothing empty comes out of enclosing its
fragments: combined alone it is laid out as by itself. -/
theorem combined_alone :
    (∀ (g : Generator) (s : Schema) (d : Document) (options : Except Error Options)
      (path text : String)
      (w w' : List Warning), (generate [g.name] s d options path []).run w = .ok text w' ↔
        (g.ownText s d options path).run w = .ok text w' ∧ Grammar.isModule text) ∧
    ∀ p : Part, p.imports.Reached → (∀ wrap ∈ p.wrap?, ∀ text, wrap text ≠ "") →
      Part.combine [p] = p.render :=
  ⟨run_generate_singleton, fun _ hreached hwrap => Part.combine_singleton ⟨hreached, hwrap⟩⟩

/-- A part with an empty header and empty fragments inside a class, and imports that serve type
checkers only. -/
def enclosedPart : Part where
  header? := some ""
  imports := (Registry.mk true []).recordAll [("User", "app.models"), ("Any", "typing")] .typing
  body := ["", "x: int", ""]
  extras := ["", "done = True"]
  wrap? := some (Resolver.enclose "R")

theorem combined_alone_enclosedPart :
    enclosedPart.imports.Reached ∧ (∀ wrap ∈ enclosedPart.wrap?, ∀ text, wrap text ≠ "") ∧
      Part.combine [enclosedPart] = enclosedPart.render := by
  have hreached : enclosedPart.imports.Reached := .recordAll (.empty true) _ _
  have hwrap : ∀ wrap ∈ enclosedPart.wrap?, ∀ text, wrap text ≠ "" := by
    rintro _ ⟨⟩ text
    exact Resolver.enclose_ne_empty "R" text
  exact ⟨hreached, hwrap, combined_alone.2 enclosedPart hreached hwrap⟩

/-- The condition is needed: an empty text that fragments are enclosed in leaves an empty section,
unless the part is combined. -/
example :
    let p : Part := { body := ["x"], wrap? := some fun _ => "" }
    p.render = "\n" ∧ Part.combine [p] = "\n" ∧
      ({ p with extras := ["y"] } : Part).render ≠ Part.combine [{ p with extras := ["y"] }] := by
  decide

end Graphwright
