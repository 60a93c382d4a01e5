import Graphwright.Proofs.Module.Documentation
import Graphwright.Proofs.Resolver.Protocols
import Graphwright.Proofs.Schema.Declared
import Graphwright.Proofs.Schema.Reread
import Graphwright.Proofs.Types.Defaults
import Mathlib.Data.List.TakeWhile

/-!
# When schemas are generated

The two generators for schemas stop at a document that cannot be read again, at a default that
cannot be written, and at a description that cannot be documented; at nothing else. The first
happens only if nothing of the schema is shown, the second only at a whole number that is too long,
and the third only at a text of blanks: an empty text is passed over before its blanks are taken
off, a blank one is left without a single line.

Main results:
* `SchemaTypes.returns_part`, `Resolver.returns_part`: when the parts of any schema are made;
* `parts_return`: when the parts of a schema are made that a text spells out.
-/
namespace Graphwright

open Graphwright.Document Graphwright.Module Graphwright.Types

/-- A description that can be documented, if there is one. -/
def IsShown (d? : Option Description) : Prop := ∀ d ∈ d?, ¬ IsBlankText d.text

/-! ## Schema types -/

namespace SchemaTypes

/-- The values that are looked at as defaults in a type: those of the arguments of its fields, or of
its input fields. -/
def defaultsOf (t : TypeDefinition) : List Value :=
  match t.body with
  | .object _ fields | .interface _ fields => fields.flatMap fun f =>
    f.arguments.filterMap (·.default?)
  | .input fields => fields.filterMap (·.default?)
  | _ => []

/-- The descriptions that the class of a type documents: its own, and those of its fields or values.
Scalars have no class, and nor have unions. -/
def documented (t : TypeDefinition) : List (Option Description) :=
  match t.body with
  | .object _ fields | .interface _ fields => t.description? :: fields.map (·.description?)
  | .input fields => t.description? :: fields.map (·.description?)
  | .enum values => t.description? :: values.map (·.description?)
  | _ => []

theorem returns_describe (d? : Option Description) : Returns (describe d?) ↔ IsShown d? := by
  have hshown : IsShown d? ↔ (docstring? (d?.map (·.text)) indentation).isSome := by
    rw [isSome_docstring?]
    cases d? <;> simp [IsShown]
  rw [hshown]
  unfold describe Returns
  dsimp only
  split <;> simp_all

theorem returns_defaultOf (v : InputValue) :
    Returns (defaultOf v) ↔ ∀ x, v.default? = some x → Returns (defaultText x) := by
  unfold defaultOf Returns
  cases v.default? with
  | none => simp
  | some x => cases h : defaultText x <;> simp [h]

theorem returns_mapM_defaultOf (vs : List InputValue) :
    Returns (vs.mapM defaultOf) ↔ ∀ x ∈ vs.filterMap (·.default?), Returns (defaultText x) := by
  simp only [returns_mapM, returns_defaultOf, List.forall_mem_filterMap]

theorem returns_modelOf (t : TypeDefinition) (typename? : Option Attribute)
    (fields : List (Attribute × Option Description)) :
    Returns (modelOf t typename? fields) ↔
    ∀ d? ∈ t.description? :: fields.map (·.2), IsShown d? := by
  unfold modelOf
  rw [returns_bind_of_const fun _ _ => returns_bind_of_const fun _ _ =>
    iff_true_intro (returns_pure _), returns_describe, returns_mapM]
  simp only [returns_bind_of_const fun _ _ => iff_true_intro (returns_pure _), returns_describe]
  simp only [and_true, List.forall_mem_cons, List.forall_mem_map]

theorem returns_mapM_modelOf {α : Type} {f : α → Checked (Attribute × Option Description)}
    {description? : α → Option Description} (hf : ∀ x y, f x = .ok y → y.2 = description? x)
    (xs : List α) (t : TypeDefinition) (typename? : Option Attribute) :
    Returns (xs.mapM f >>= fun fields => some <$> modelOf t typename? fields) ↔
      (∀ x ∈ xs, Returns (f x)) ∧ ∀ d? ∈ t.description? :: xs.map description?, IsShown d? := by
  rw [← returns_mapM]
  refine returns_bind_of_const fun fields hfields => ?_
  rw [returns_map, returns_modelOf, map_eq_of_mapM_ok hf hfields]

/-- **Declarations.** A type is declared if its defaults have texts and none of the descriptions in
it is blank. -/
theorem returns_declare (m : Mapper) (skipTypename : Bool) (t : TypeDefinition) :
    Returns (declare m skipTypename t) ↔
      (∀ x ∈ defaultsOf t, Returns (defaultText x)) ∧ ∀ d? ∈ documented t, IsShown d? := by
  have hfields (fields : List FieldDefinition) (typename? : Option Attribute) :
      Returns (fieldAttributes m fields >>= fun attributes => some <$>
        modelOf t typename? attributes) ↔
        (∀ x ∈ fields.flatMap fun f => f.arguments.filterMap (·.default?),
          Returns (defaultText x)) ∧
          ∀ d? ∈ t.description? :: fields.map (·.description?), IsShown d? := by
    refine (returns_mapM_modelOf (fun f y hy => ?_) fields t typename?).trans
      (and_congr_left fun _ => ?_)
    · obtain ⟨_, -, hy⟩ := bind_eq_ok.mp hy
      rw [← pure_eq_ok.mp hy]
    · simp only [returns_bind_of_const fun _ _ => iff_true_intro (returns_pure _), and_true,
        returns_mapM_defaultOf, List.forall_mem_flatMap]
  unfold declare defaultsOf documented
  simp only [bind_pure_comp]
  cases t.body with
  | scalar | union _ => simpa using returns_pure _
  | object _ fields | interface _ fields => exact hfields ..
  | input fields =>
    refine (returns_mapM_modelOf (fun v y hy => ?_) fields t none).trans
      (and_congr_left fun _ => ?_)
    · rw [← bind_pure_comp] at hy
      obtain ⟨_, -, hy⟩ := bind_eq_ok.mp hy
      rw [← pure_eq_ok.mp hy]
    · simp only [returns_map, returns_defaultOf, List.forall_mem_filterMap]
  | enum values =>
    simp only [returns_bind_of_const fun _ _ => returns_map, returns_mapM, returns_map,
      returns_describe]
    simp only [List.not_mem_nil, List.forall_mem_cons, List.forall_mem_map]
    grind

/-- The values that are looked at as defaults in a schema: first those of the directives that are
shown. -/
def allDefaults (s : Schema) : List Value :=
  (s.shownDirectives.flatMap fun d => d.arguments.filterMap (·.default?)) ++
    s.types.flatMap defaultsOf

/-- **Schema types.** The part with the types of a schema is made if the schema has a document, all
defaults have texts, and no description is blank. -/
theorem returns_part {path package : String} (hpackage : Naming.packageOf path = .ok package)
    (s : Schema) (o : Options) :
    Returns (part s o path) ↔ Returns s.document ∧ (∀ x ∈ allDefaults s, Returns (defaultText x)) ∧
      ∀ d? ∈ s.types.flatMap documented, IsShown d? := by
  have hpart : Returns (part s o path) ↔ Returns (generate s o) := by
    unfold Returns
    simp only [part_ok]
    exact ⟨fun ⟨_, _, r, _, hr, _⟩ => ⟨r, hr⟩, fun ⟨r, hr⟩ => ⟨_, package, r, hpackage, hr, rfl⟩⟩
  have hgenerate : Returns (generate s o) ↔ Returns s.document ∧
      Returns (s.shownDirectives.mapM (·.arguments.mapM defaultOf)) ∧
        Returns (s.types.mapM (declare (mapperOf s o) o.skipTypename)) := by
    unfold Returns
    simp only [generate_ok]
    exact ⟨fun ⟨_, hd, hdefaults, xs, hxs, _⟩ => ⟨hd, hdefaults, xs, hxs⟩,
      fun ⟨hd, hdefaults, xs, hxs⟩ => ⟨_, hd, hdefaults, xs, hxs, rfl⟩⟩
  rw [hpart, hgenerate, and_congr_right_iff, returns_mapM, returns_mapM]
  intro _
  simp only [returns_declare, returns_mapM_defaultOf, allDefaults, List.forall_mem_append,
    List.forall_mem_flatMap, forall_and, and_assoc]

theorem isConstant_of_mem_defaultsOf {t : TypeDefinition} (h : t.IsProper) :
    ∀ x ∈ defaultsOf t, x.IsConstant := by
  have hinputs {vs : List InputValue} (hvs : ∀ v ∈ vs, v.IsProper) :
      ∀ x ∈ vs.filterMap (·.default?), x.IsConstant := by
    rw [List.forall_mem_filterMap]
    exact fun v hv x hx => (hvs v hv).default x hx
  obtain ⟨-, hbody⟩ := h
  unfold defaultsOf
  cases hb : t.body with
  | scalar | union _ | enum _ => simp
  | object _ fields | interface _ fields =>
    rw [hb] at hbody
    exact List.forall_mem_flatMap.mpr fun f hf => hinputs (hbody.2 f hf).arguments
  | input fields =>
    rw [hb] at hbody
    exact hinputs hbody

/-- The defaults of a schema whose definitions can be spelled are literals without variables. -/
theorem isConstant_of_mem_allDefaults {s : Schema} (h : s.IsProper) :
    ∀ x ∈ allDefaults s, x.IsConstant := by
  refine List.forall_mem_append.mpr ⟨List.forall_mem_flatMap.mpr fun d hd => ?_,
    List.forall_mem_flatMap.mpr fun t ht => isConstant_of_mem_defaultsOf (h.types t ht)⟩
  rw [List.forall_mem_filterMap]
  exact fun v hv x hx => ((h.directives d (List.mem_filter.mp hd).1).arguments v hv).default x hx

end SchemaTypes

/-! ## Resolver interfaces -/

namespace Resolver

/-- The descriptions that the interface of a type documents: its own, and those of its fields. -/
def documented (t : TypeDefinition) : List (Option Description) :=
  if Schema.isComposite t then t.description? :: (Schema.fieldsOf t).map (·.description?) else []

theorem not_isBlankText_usualDescription (t : TypeDefinition) :
    ¬ IsBlankText (usualDescription t) := by
  rintro ⟨-, hblank⟩
  have hresolvers (rest : String) : 'R' ∈ ("Resolvers for the " ++ rest).toList := by
    rw [String.toList_append]
    exact List.mem_append_left _ (by decide)
  unfold usualDescription at hblank
  cases hb : t.body <;> simp only [hb, String.append_assoc] at hblank
  case object | interface => exact absurd (hblank 'R' (hresolvers _)) (by decide)
  all_goals exact absurd (hblank 'S' (by decide)) (by decide)

theorem isSome_doc?_methodOf (m : Mapper) (f : FieldDefinition) :
    (methodOf m f).doc?.isSome ↔ IsShown f.description? := by
  rw [Method.doc?, isSome_docstring?, methodOf, IsShown]
  cases f.description? <;> simp

/-- The interface of a type can be documented unless one of its descriptions is blank. -/
theorem isDocumentable_interfaceOf? (m : Mapper) (t : TypeDefinition) :
    (∀ i, interfaceOf? m t = some i → i.isDocumentable) ↔ ∀ d? ∈ documented t, IsShown d? := by
  have hown :
      (docstring? (some ((t.description?.map (·.text)).getD (usualDescription t)))
        indentation).isSome ↔
      IsShown t.description? := by
    rw [isSome_docstring?, IsShown]
    cases t.description? <;> simp [not_isBlankText_usualDescription]
  have hmethods (fields : List FieldDefinition) : (fields.map (methodOf m)).all (·.doc?.isSome) ↔
      ∀ d? ∈ fields.map (·.description?), IsShown d? := by
    simp only [List.all_map, List.all_eq_true, Function.comp_apply, isSome_doc?_methodOf,
      List.forall_mem_map]
  unfold usualDescription at hown
  unfold interfaceOf? documented Schema.isComposite Schema.fieldsOf
  cases hb : t.body with
  | scalar | enum _ | input _ => simp
  | object _ fields | interface _ fields =>
    simp only [hb] at hown
    simp only [Option.some.injEq, forall_eq', Interface.isDocumentable, Interface.doc?,
      Bool.and_eq_true, hmethods, hown, if_true, List.forall_mem_cons]
    exact and_comm
  | union _ =>
    simp only [hb] at hown
    simp [Interface.isDocumentable, Interface.doc?, hown]

/-- **Resolver interfaces.** The part with the resolver interfaces of a schema is made if the schema
has a document and no description is blank. -/
theorem returns_part {path package : String} (hpackage : Naming.packageOf path = .ok package)
    (s : Schema) :
    Returns (part s {} path) ↔
      Returns s.document ∧ ∀ d? ∈ s.types.flatMap documented, IsShown d? := by
  have hpart : Returns (part s {} path) ↔ Returns (generate s {} package) := by
    unfold Returns
    simp only [part_ok]
    exact ⟨fun ⟨_, _, r, h, hr, _⟩ => ⟨r, by rwa [Except.ok.inj (hpackage.symm.trans h)]⟩,
      fun ⟨r, hr⟩ => ⟨_, package, r, hpackage, hr, rfl⟩⟩
  obtain ⟨m, imports, hsetting⟩ : ∃ m imports, settingOf s {} package = .ok (m, imports) :=
    ⟨_, _, rfl⟩
  have hgenerate : Returns (generate s {} package) ↔
      Returns s.document ∧ (s.types.filterMap (interfaceOf? m)).all (·.isDocumentable) := by
    unfold Returns
    simp only [generate_ok, hsetting, Except.ok.injEq, Prod.mk.injEq]
    constructor
    · rintro ⟨_, _, _, ⟨rfl, rfl⟩, hd, hdocumentable, -⟩
      exact ⟨hd, hdocumentable⟩
    · rintro ⟨hd, hdocumentable⟩
      exact ⟨_, m, imports, ⟨rfl, rfl⟩, hd, hdocumentable, rfl⟩
  rw [hpart, hgenerate, List.all_eq_true, List.forall_mem_filterMap, List.forall_mem_flatMap]
  simp only [isDocumentable_interfaceOf?]

end Resolver

/-! ## Schemas of documents -/

/-- A schema that is built from a text can be spelled again. -/
theorem isProper_of_build {source : Source} {d : Document} {s : Schema}
    (hread : Document.read source = .ok d) (hbuild : Schema.build d = .ok s) : s.IsProper :=
  Schema.eq_of_build hbuild ▸ Schema.isProper_ofDocument (isProper_of_read hread)

/-- **Totality.** Let a text be read and its schema be built, and let its module have a package.
With the usual options the schema types are made exactly if the schema has something to show, no
default has a whole number in it that is too long, and no description that is to be documented
consists of blanks; the resolver interfaces are made exactly if the schema has something to show and
no description that they document consists of blanks. -/
theorem parts_return {source : Source} {d : Document} {s : Schema} {path package : String}
    (hread : Document.read source = .ok d) (hbuild : Schema.build d = .ok s)
    (hpackage : Naming.packageOf path = .ok package) :
    (Returns (SchemaTypes.part s {} path) ↔ s.HasText ∧
      (∀ x ∈ SchemaTypes.allDefaults s, ∀ n ∈ x.wholeNumbers, IsConvertible n) ∧
      ∀ d? ∈ s.types.flatMap SchemaTypes.documented, IsShown d?) ∧
    (Returns (Resolver.part s {} path) ↔ s.HasText ∧
      ∀ d? ∈ s.types.flatMap Resolver.documented, IsShown d?) := by
  have hproper := isProper_of_build hread hbuild
  have hdocument : Returns s.document ↔ s.HasText := Schema.exists_document hproper
  have hdefaults : (∀ x ∈ SchemaTypes.allDefaults s, Returns (defaultText x)) ↔
      ∀ x ∈ SchemaTypes.allDefaults s, ∀ n ∈ x.wholeNumbers, IsConvertible n :=
    forall₂_congr fun x hx =>
      returns_defaultText (SchemaTypes.isConstant_of_mem_allDefaults hproper x hx)
  constructor
  · rw [SchemaTypes.returns_part hpackage, hdocument, hdefaults]
  · rw [Resolver.returns_part hpackage, hdocument]

def schemaOf? (sdl : String) : Option Schema :=
  match Document.read ⟨sdl, "GraphQL request"⟩ with
  | .ok d => (Schema.build d).toOption
  | .error _ => none

theorem exists_of_schemaOf? {sdl : String} {s : Schema} (h : schemaOf? sdl = some s) :
    ∃ d, Document.read ⟨sdl, "GraphQL request"⟩ = .ok d ∧ Schema.build d = .ok s := by
  unfold schemaOf? at h
  cases hd : Document.read ⟨sdl, "GraphQL request"⟩ with
  | error e => simp [hd] at h
  | ok d =>
    cases hs : Schema.build d with
    | error e => simp [hd, hs, Except.toOption] at h
    | ok s' =>
      simp only [hd, hs, Except.toOption, Option.some.injEq] at h
      exact ⟨d, rfl, h ▸ hs⟩

/-- A text that spells out a schema of some kind is read, and its schema is built. -/
theorem exists_of_any_schemaOf? (sdl : String) {P : Schema → Bool} (h : (schemaOf? sdl).any P) :
    ∃ d s, Document.read ⟨sdl, "GraphQL request"⟩ = .ok d ∧ Schema.build d = .ok s ∧ P s := by
  obtain ⟨s, hs, hp⟩ := (Option.any_eq_true ..).mp h
  obtain ⟨d, hd, hbuild⟩ := exists_of_schemaOf? hs
  exact ⟨d, s, hd, hbuild, hp⟩

/-- A schema with a described field, and a default to look at. -/
def describedSdl (description : String) : String :=
  "type Query \x7b \"" ++ description ++ "\" a(b: Int = 1): Int \x7d"

theorem parts_return_described :
    ∃ d s, Document.read ⟨describedSdl "A.", "GraphQL request"⟩ = .ok d ∧ Schema.build d = .ok s ∧
      Naming.packageOf "types.py" = .ok "generated" ∧ Returns (SchemaTypes.part s {} "types.py") ∧
      s.HasText ∧
      (∀ x ∈ SchemaTypes.allDefaults s, ∀ n ∈ x.wholeNumbers, IsConvertible n) ∧
      (∀ d? ∈ s.types.flatMap SchemaTypes.documented, IsShown d?) ∧
      Returns (Resolver.part s {} "types.py") ∧
      ∀ d? ∈ s.types.flatMap Resolver.documented, IsShown d? := by
  have hok : (schemaOf? (describedSdl "A.")).any fun s =>
      (SchemaTypes.part s {} "types.py").toOption.isSome &&
        (Resolver.part s {} "types.py").toOption.isSome := by
    decide +kernel
  obtain ⟨s, hs, hparts⟩ := (Option.any_eq_true ..).mp hok
  obtain ⟨d, hd, hbuild⟩ := exists_of_schemaOf? hs
  obtain ⟨htypes, hresolvers⟩ := Bool.and_eq_true_iff.mp hparts
  have htypes := exists_ok_of_isSome htypes
  have hresolvers := exists_ok_of_isSome hresolvers
  have hpackage : Naming.packageOf "types.py" = .ok "generated" := by rfl
  obtain ⟨htypes', hresolvers'⟩ := parts_return hd hbuild hpackage
  obtain ⟨htext, hnumbers, hdescriptions⟩ := htypes'.mp htypes
  exact ⟨d, s, hd, hbuild, hpackage, htypes, htext, hnumbers, hdescriptions, hresolvers,
    (hresolvers'.mp hresolvers).2⟩

theorem not_returns_of_isSome {ε α : Type} {x : Except ε α} (h : x.toOption.isSome = false) :
    ¬ Returns x := by
  rintro ⟨v, rfl⟩
  cases h

/-- A field whose description consists of blanks: the text is read and its schema is built, but no
part is made. -/
theorem parts_fail_blank :
    ∃ d s, Document.read ⟨describedSdl "  ", "GraphQL request"⟩ = .ok d ∧ Schema.build d = .ok s ∧
      Naming.packageOf "types.py" = .ok "generated" ∧
      ¬ Returns (SchemaTypes.part s {} "types.py") ∧ ¬ Returns (Resolver.part s {} "types.py") := by
  have hfails : (schemaOf? (describedSdl "  ")).any fun s =>
      !(SchemaTypes.part s {} "types.py").toOption.isSome &&
        !(Resolver.part s {} "types.py").toOption.isSome := by
    decide +kernel
  obtain ⟨s, hs, hparts⟩ := (Option.any_eq_true ..).mp hfails
  obtain ⟨d, hd, hbuild⟩ := exists_of_schemaOf? hs
  obtain ⟨htypes, hresolvers⟩ := Bool.and_eq_true_iff.mp hparts
  exact ⟨d, s, hd, hbuild, by rfl, not_returns_of_isSome (by simpa using htypes),
    not_returns_of_isSome (by simpa using hresolvers)⟩

end Graphwright
