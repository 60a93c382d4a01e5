import Graphwright.Proofs.Response.Settled
import Graphwright.Response.Declare

/-!
# Shapes of a whole document

`Shaped env ds shapes` puts together what the definitions of a document ask for. A run over a
document answers exactly its shapes, or fails where it has none (`settled_shapesFrom`), and all that
comes after the shapes can neither fail nor warn (`part_run`). So whether the operation types of a
document are generated, and what they declare, is a matter of `Asks` alone:

* `run_part`: either the document has shapes, and the run answers the part that declares them; or it
  has none, and the run fails in one of the ways of `Fault`.
-/
namespace Graphwright.Response

open Document

/-! ## Definitions -/

/-- The fields that a definition asks for. -/
def AsksFor (env : Env) : Definition → List Field → Prop
  | .operation o, fields =>
    ∃ below, Asks env (rootOf env.schema o.kind) o.selections below ∧ fields = merge below
  | .fragment f, fields =>
    ∃ below, Asks env (env.schema.composite? f.on) f.selections below ∧ fields = merge below
  | _, fields => fields = []

/-- What a definition with its fields contributes to the shapes of a document. -/
def shapeOf? : Definition → List Field → Option Shape
  | .operation o, fields => o.name?.map fun name => .operation name o fields
  | .fragment f, fields => some (.fragment f fields)
  | _, _ => none

/-- The shapes of definitions in order. -/
inductive Shaped (env : Env) : List Definition → List Shape → Prop
  | nil : Shaped env [] []
  | cons {d fields ds shapes} : AsksFor env d fields → Shaped env ds shapes →
      Shaped env (d :: ds) ((shapeOf? d fields).toList ++ shapes)

/-- The fields that a named operation or a fragment asks for. -/
def Shape.fields : Shape → List Field
  | .operation _ _ fields | .fragment _ fields => fields

/-- What holds of all fields that selections ask for, once they are merged, holds of those of
shapes. -/
theorem Shaped.forall_fields {env : Env} {P : List Field → Prop}
    (hP : ∀ {parent? ss below}, Asks env parent? ss below → P (merge below)) {ds : List Definition}
    {found : List Shape} (h : Shaped env ds found) : ∀ sh ∈ found, P sh.fields := by
  induction h with
  | nil => exact nofun
  | @cons d fields ds shapes hfields _ ih =>
    refine List.forall_mem_append.mpr ⟨fun sh hsh => ?_, ih⟩
    cases d with
    | operation o =>
      obtain ⟨below, hbelow, rfl⟩ := hfields
      obtain ⟨name, -, rfl⟩ := Option.map_eq_some_iff.mp (Option.mem_toList.mp hsh)
      exact hP hbelow
    | fragment f =>
      obtain ⟨below, hbelow, rfl⟩ := hfields
      obtain rfl := List.mem_singleton.mp hsh
      exact hP hbelow
    | schema | type | directive => cases hsh

/-- A fragment is found by its name, among the definitions of the document. -/
theorem mem_of_fragmentsOf {d : Document} {name : String} {f : Fragment}
    (h : (fragmentsOf d).lookup name = some f) : f.name = name ∧ .fragment f ∈ d.definitions := by
  obtain ⟨l, r, h, -⟩ := List.lookup_eq_some_iff.mp h
  have hm : (name, f) ∈ fragmentsOf d := by rw [h]; simp
  simp only [fragmentsOf, List.mem_filterMap, List.mem_reverse] at hm
  obtain ⟨g, hg, hd⟩ := hm
  cases g with
  | fragment g =>
    simp only [Option.some.injEq, Prod.mk.injEq] at hd
    obtain ⟨rfl, rfl⟩ := hd
    exact ⟨rfl, hg⟩
  | _ => cases hd

theorem named_fragmentsOf (d : Document) : Named (fragmentsOf d) :=
  fun _ _ h => (mem_of_fragmentsOf h).1

variable {env : Env}

theorem AsksFor.unique {d : Definition} {fields fields' : List Field} (h : AsksFor env d fields)
    (h' : AsksFor env d fields') : fields = fields' := by
  cases d with
  | operation o =>
    obtain ⟨below, hb, rfl⟩ := h
    obtain ⟨below', hb', rfl⟩ := h'
    rw [hb.unique _ hb']
  | fragment f =>
    obtain ⟨below, hb, rfl⟩ := h
    obtain ⟨below', hb', rfl⟩ := h'
    rw [hb.unique _ hb']
  | schema => exact h.trans h'.symm
  | type => exact h.trans h'.symm
  | directive => exact h.trans h'.symm

/-- A document has at most one list of shapes. -/
theorem Shaped.unique {ds : List Definition} {found : List Shape} (h : Shaped env ds found) :
    ∀ found', Shaped env ds found' → found = found' := by
  induction h with
  | nil => intro _ h'; cases h'; rfl
  | cons hf _ ih =>
    intro _ h'
    cases h' with
    | cons hf' hs => rw [hf.unique hf', ih _ hs]

theorem Shaped.asksFor {ds : List Definition} {found : List Shape} (h : Shaped env ds found) :
    ∀ d ∈ ds, ∃ fields, AsksFor env d fields := by
  induction h with
  | nil => simp
  | cons hf _ ih =>
    intro d hd
    rcases List.mem_cons.mp hd with rfl | hd
    · exact ⟨_, hf⟩
    · exact ih d hd

/-! ## Runs over definitions -/

/-- From a sound memory a walk over a definition answers what it asks for. -/
theorem settled_fieldsOf (hn : Named env.fragments) {st : Session} (hsound : Sound env st.cache)
    (d : Definition) :
    Settled env (st.expanding = []) (AsksFor env d) ((fieldsOf env d).run st) := by
  have hopen : ∀ names, st.expanding = [] → Open env st.expanding names := by
    intro names h n hn
    rw [h] at hn
    cases hn
  have he : ExpandsWhile env st.expanding := settled_expand hn _
  cases d with
  | operation o =>
    have hbefore : Before env (rootOf env.schema o.kind) st.expanding
        (st.enter env.schema (.ofDefinition (.operation o))) :=
      ⟨inside_operation env.schema st.here o, rfl, hsound⟩
    have hwalk := settled_selectionSet hbefore fun _ => settled_collectAll he o.selections
    exact (settled_inside _ _ hwalk).mono (hopen _)
  | fragment f =>
    have hbefore : Before env (env.schema.composite? f.on) st.expanding
        (st.enter env.schema (.ofDefinition (.fragment f))) :=
      ⟨inside_fragment env.schema st.here f, rfl, hsound⟩
    have hwalk := settled_selectionSet hbefore fun _ => settled_collectAll he f.selections
    exact (settled_inside _ _ hwalk).mono (hopen _)
  | schema => exact ⟨rfl, hsound⟩
  | type => exact ⟨rfl, hsound⟩
  | directive => exact ⟨rfl, hsound⟩

/-- A run for a whole document answers the shapes, or fails where there are none. -/
def SettledAll (env : Env) (ds : List Definition) :
    EStateM.Result Error (List Warning) (List Shape) → Prop
  | .ok shapes _ => Shaped env ds shapes
  | .error e _ => (∀ shapes, ¬ Shaped env ds shapes) ∧ Fault env.fragments e

theorem settledAll_cons {d : Definition} {rest : List Definition} {fields : List Field}
    {x : Run (List Shape)} {w : List Warning} (hf : AsksFor env d fields)
    (hx : SettledAll env rest (x.run w)) :
    SettledAll env (d :: rest)
      ((do return (shapeOf? d fields).toList ++ (← x) : Run (List Shape)).run w) := by
  simp only [EStateM.run_bind]
  cases hr : x.run w with
  | ok shapes w' =>
    rw [hr] at hx
    exact .cons hf hx
  | error e w' =>
    rw [hr] at hx
    refine ⟨fun shapes h => ?_, hx.2⟩
    cases h with
    | cons _ h => exact hx.1 _ h

/-- From a sound memory, with no fragment being expanded, a run over definitions answers their
shapes or fails where there are none. -/
theorem settled_shapesFrom (hn : Named env.fragments) :
    ∀ (ds : List Definition) (st : Session) (w : List Warning),
      Sound env st.cache → st.expanding = [] →
      SettledAll env ds ((shapesFrom env st ds).run w) := by
  intro ds
  induction ds with
  | nil => intro st w _ _; exact .nil
  | cons d rest ih =>
    intro st w hsound hidle
    have hd := settled_fieldsOf hn hsound d
    rw [shapesFrom]
    cases hr : (fieldsOf env d).run st with
    | error e st' =>
      rw [hr] at hd
      obtain ⟨hnone, hfault⟩ := hd.2 hidle
      refine ⟨fun shapes h => ?_, hfault⟩
      cases h with
      | cons hf _ => exact hnone _ hf
    | ok fields st' =>
      rw [hr] at hd
      obtain ⟨hf, hsound'⟩ := hd
      have hidle' := ((balanced_fieldsOf env d).of_ok hr).1.expanding.trans hidle
      have hrest := settledAll_cons hf (ih st' w hsound' hidle')
      cases d with
      | operation o =>
        cases hname : o.name? with
        | some name => simpa [shapeOf?, hname] using hrest
        | none =>
          have hrest := settledAll_cons hf (ih st' (w ++ [⟨.operationTypes, o⟩]) hsound' hidle')
          simpa [shapeOf?, hname, Run.warn] using hrest
      | fragment f => simpa [shapeOf?] using hrest
      | schema => simpa [shapeOf?] using hrest
      | type => simpa [shapeOf?] using hrest
      | directive => simpa [shapeOf?] using hrest

/-- A document has at most one list of shapes, and a run answers it. -/
theorem settled_shapes (s : Schema) (d : Document) (w : List Warning) :
    SettledAll ⟨s, fragmentsOf d⟩ d.definitions ((shapes s d).run w) :=
  settled_shapesFrom (named_fragmentsOf d) d.definitions {} w nofun rfl

theorem run_shapes_of_shaped {s : Schema} {d : Document} {found : List Shape}
    (h : Shaped ⟨s, fragmentsOf d⟩ d.definitions found) (w : List Warning) :
    ∃ w', (shapes s d).run w = .ok found w' := by
  have hsettled := settled_shapes s d w
  cases hr : (shapes s d).run w with
  | ok found' w' =>
    rw [hr] at hsettled
    exact ⟨w', by rw [h.unique found' hsettled]⟩
  | error e w' =>
    rw [hr] at hsettled
    exact absurd h (hsettled.1 found)

/-- A fragment of a document with shapes does not reach itself, be it in use or not. -/
theorem Shaped.not_reaches {s : Schema} {d : Document} {found : List Shape}
    (h : Shaped ⟨s, fragmentsOf d⟩ d.definitions found) (name : String) :
    ¬ Reaches (fragmentsOf d) name name := by
  refine Terminates.not_reaches (.of_spreads fun f hf m hm => ?_)
  obtain ⟨fields, below, hbelow, -⟩ := h.asksFor _ (mem_of_fragmentsOf hf).2
  exact hbelow.terminates m hm

end Graphwright.Response

namespace Graphwright.OperationTypes

open Graphwright.Document Graphwright.Module Graphwright.Types Graphwright.Response

/-! ## From shapes to a part of a module -/

/-- The mapper and the registry that operation types start from, where some are given. -/
def startFrom (s : Schema) (o : Options) (imports? : Option Registry) (mapper? : Option Mapper) :
    Mapper × Registry :=
  let r := (Registry.orFresh imports? o.typeImports).recordAll [annotationsSymbol]
  match mapper? with
  | some m => (m, r)
  | none => mapperOf s o r

/-- The operation types that shapes declare, from a mapper and a registry. -/
def resultFrom (start : Mapper × Registry) (d : Document) (o : Options) (found : List Shape) :
    Result :=
  let blocks := ((found.mapM (blockOf start.1 o.dedupeSuffix)).run
    (Naming.Allocator.reserveAll {} (reservedNames o.dedupeSuffix d))).1
  { imports := start.2.recordAll (blocks.flatMap (·.needs)), blocks }

theorem run_generate (s : Schema) (d : Document) (o : Options) (imports? : Option Registry)
    (mapper? : Option Mapper) (w : List Warning) : (generate s d o imports? mapper?).run w =
      (resultFrom (startFrom s o imports? mapper?) d o <$> shapes s d).run w := by
  unfold generate startFrom
  cases mapper? <;> simp only [EStateM.run_bind, run_map] <;> cases (shapes s d).run w <;> rfl

/-- The mapper and the registry that the operation types of a module start from. -/
def startOf (s : Schema) (o : Options) : Mapper × Registry :=
  mapperOf s o ((Registry.orFresh none o.typeImports).recordAll [annotationsSymbol])

/-- The blocks of shapes, with the names of the document reserved. -/
def blocksOf (s : Schema) (d : Document) (o : Options) (found : List Shape) : List Block :=
  ((found.mapM (blockOf (startOf s o).1 o.dedupeSuffix)).run
    (Naming.Allocator.reserveAll {} (reservedNames o.dedupeSuffix d))).1

def resultOf (s : Schema) (d : Document) (o : Options) (found : List Shape) : Result :=
  let blocks := blocksOf s d o found
  { imports := (startOf s o).2.recordAll (blocks.flatMap (·.needs)), blocks }

def partOf (package : String) (r : Result) : Part where
  header? := moduleDocstring "Generated GraphQL operation types." package
  imports := r.imports
  body := r.body
  extras := [rebuildBlock r.models]

theorem generate_run (s : Schema) (d : Document) (o : Options) (w : List Warning) :
    (generate s d o).run w = (resultOf s d o <$> shapes s d).run w :=
  run_generate s d o none none w

theorem part_run (s : Schema) (d : Document) (o : Options) {path package : String}
    (hp : Naming.packageOf path = .ok package) (w : List Warning) :
    (part s d o path).run w =
      ((fun found => partOf package (resultOf s d o found)) <$> shapes s d).run w := by
  unfold part
  simp only [EStateM.run_bind, hp, generate_run, run_map]
  simp only [Run.lift, EStateM.run_pure]
  cases (shapes s d).run w with
  | ok found w' => rfl
  | error e w' => rfl

/-- **Outcome.** The operation types of a document are the part that declares its shapes; a document
without shapes has none. -/
theorem run_part (s : Schema) (d : Document) (o : Options) {path package : String}
    (hp : Naming.packageOf path = .ok package) (w : List Warning) :
    (∃ found w', Shaped ⟨s, fragmentsOf d⟩ d.definitions found ∧
      (part s d o path).run w = .ok (partOf package (resultOf s d o found)) w') ∨
    (∃ e w', (∀ found, ¬ Shaped ⟨s, fragmentsOf d⟩ d.definitions found) ∧
      Fault (fragmentsOf d) e ∧ (part s d o path).run w = .error e w') := by
  rw [part_run s d o hp w, run_map]
  have h := settled_shapes s d w
  cases hr : (shapes s d).run w with
  | ok found w' =>
    rw [hr] at h
    exact .inl ⟨found, w', h, rfl⟩
  | error e w' =>
    rw [hr] at h
    exact .inr ⟨e, w', h.1, h.2, rfl⟩

/-- A part is made of the shapes that a run answers. -/
theorem exists_shapes_of_part_ok {s : Schema} {d : Document} {o : Options} {path : String}
    {w w' : List Warning} {p : Part} (h : (part s d o path).run w = .ok p w') :
    ∃ package found, Naming.packageOf path = .ok package ∧ (shapes s d).run w = .ok found w' ∧
      p = partOf package (resultOf s d o found) := by
  cases hp : Naming.packageOf path with
  | error e =>
    unfold part at h
    simp only [hp] at h
    cases h
  | ok package =>
    rw [part_run s d o hp w, run_map] at h
    cases hr : (shapes s d).run w with
    | ok found w₁ =>
      rw [hr] at h
      cases h
      exact ⟨package, found, rfl, rfl, rfl⟩
    | error e w₁ =>
      rw [hr] at h
      cases h

theorem shaped_of_shapes {s : Schema} {d : Document} {found : List Shape} {w w' : List Warning}
    (h : (shapes s d).run w = .ok found w') : Shaped ⟨s, fragmentsOf d⟩ d.definitions found := by
  have hs := settled_shapes s d w
  rwa [h] at hs

theorem generate_of_shapes {s : Schema} {d : Document} {found : List Shape} {w w' : List Warning}
    (h : (shapes s d).run w = .ok found w') (o : Options) :
    (generate s d o).run w = .ok (resultOf s d o found) w' := by
  rw [generate_run, run_map, h]

theorem part_ok {s : Schema} {d : Document} {o : Options} {path : String} {w w' : List Warning}
    {p : Part} (h : (part s d o path).run w = .ok p w') :
    ∃ package found, Naming.packageOf path = .ok package ∧
      Shaped ⟨s, fragmentsOf d⟩ d.definitions found ∧
      (generate s d o).run w = .ok (resultOf s d o found) w' ∧
      p = partOf package (resultOf s d o found) := by
  obtain ⟨package, found, hp, hr, rfl⟩ := exists_shapes_of_part_ok h
  exact ⟨package, found, hp, shaped_of_shapes hr, generate_of_shapes hr o, rfl⟩

theorem part_of_shaped {s : Schema} {d : Document} {found : List Shape} (o : Options)
    {path package : String} (hp : Naming.packageOf path = .ok package)
    (hs : Shaped ⟨s, fragmentsOf d⟩ d.definitions found) (w : List Warning) :
    ∃ w', (generate s d o).run w = .ok (resultOf s d o found) w' ∧
      (part s d o path).run w = .ok (partOf package (resultOf s d o found)) w' := by
  obtain ⟨w', hr⟩ := run_shapes_of_shaped hs w
  refine ⟨w', generate_of_shapes hr o, ?_⟩
  rw [part_run s d o hp w, run_map, hr]

end Graphwright.OperationTypes
