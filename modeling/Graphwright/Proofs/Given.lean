import Graphwright.Proofs.Module.Given
import Graphwright.Proofs.Resolver.Protocols
import Graphwright.Proofs.Resolver.Spans
import Graphwright.Proofs.Response.Models
import Graphwright.Proofs.Totality

/-!
# Given registries of schema types, operation types and resolver interfaces

Schema types, operation types and resolver interfaces can be made with a registry that holds entries
already. The names in their text are then the local names of its entries, with two exceptions
(`given_registries_taken_up`). What a type expression names, and all that an interface names, is
written down as the symbols are called, even if the registry calls them otherwise; and an empty
registry is left aside. Names for which a given mapper says no import are its own affair.
-/
namespace Graphwright

open Graphwright.Document Graphwright.Module Graphwright.Types

/-! ## Schema types -/

namespace SchemaTypes

def Result.spans (r : Result) : List (List Span) := r.declarations.flatMap (·.spans {})

theorem Result.body_eq (r : Result) : r.body = r.spans.map (render r.imports) := by
  rw [body, spans, List.map_flatMap]
  exact List.flatMap_congr fun d _ => d.blocks_eq r.imports {}

theorem needs_leaves (as : List Attribute) :
    Model.needsBelow (as.map .leaf) = as.flatMap (·.needs) := by
  induction as with
  | nil => rfl
  | cons a rest ih => rw [List.map_cons, Model.needsBelow, ih, Model.needsOf, List.flatMap_cons]

/-- The model of a type needs what is said to be needed. -/
theorem needs_subset_modelOf {t : TypeDefinition} {typename? : Option Attribute}
    {fields : List (Attribute × Option Description)} {x : Declared}
    (h : modelOf t typename? fields = .ok x) : x.declaration.needs ⊆ x.needs := by
  obtain ⟨description?, described, rfl, -⟩ := modelOf_ok h
  have hfields : (((typename?.toList ++ described).map Member.leaf).map (·.field)) =
      typename?.toList ++ described := by
    simp [Function.comp_def, Member.field]
  rw [Declaration.needs, Model.needs, needs_leaves, hfields, List.flatMap_append]
  intro symbol hsymbol
  simp only [List.mem_append, List.mem_cons] at hsymbol ⊢
  grind

theorem needs_subset_declare {m : Mapper} {skipTypename : Bool} {t : TypeDefinition} {x : Declared}
    (h : declare m skipTypename t = .ok (some x)) : x.declaration.needs ⊆ x.needs := by
  cases declaring_of_ok h with
  | object _ _ hx | interface _ _ hx | input _ _ hx => exact needs_subset_modelOf hx
  | enum _ _ _ | union _ => exact List.Subset.refl _

theorem within_mapM_declare {m : Mapper} {skipTypename : Bool} {ts : List TypeDefinition}
    {xs : List (Option Declared)} (h : ts.mapM (declare m skipTypename) = .ok xs) (o : Origins) :
    ∀ line ∈ ((xs.filterMap id).map (·.declaration)).flatMap (·.spans o),
      Within o ((xs.filterMap id).flatMap (·.needs)) line := by
  intro line hline
  rw [List.flatMap_map] at hline
  obtain ⟨x, hx, hline⟩ := List.mem_flatMap.mp hline
  obtain ⟨x?, hx?, rfl⟩ := List.mem_filterMap.mp hx
  obtain ⟨t, -, hdeclare⟩ := exists_of_mem_mapM_ok h _ hx?
  refine (x.declaration.within_spans o line hline).mono fun symbol hsymbol => ?_
  exact List.mem_flatMap.mpr ⟨x, hx, needs_subset_declare hdeclare hsymbol⟩

theorem takesUp_generate {given : Registry} {s : Schema} {o : Options} {mapper? : Option Mapper}
    {r : Result} (h : generate s o (some given) mapper? = .ok r) :
    TakesUp given r.imports r.body r.spans := by
  obtain ⟨-, -, xs, hxs, rfl⟩ := generate_from_ok.mp h
  let start := Registry.orFresh (some given) o.typeImports
  let needs := (xs.filterMap id).flatMap (·.needs)
  have hknown : needs ⊆ (start.recordAll (annotationsSymbol :: needs)).imports.map (·.key) :=
    List.Subset.trans (List.subset_cons_self _ _) (Registry.subset_keys_recordAll _ _)
  exact takesUp (Result.body_eq _) (Registry.extends_recordAll _ _ _)
    (within_mapM_declare hxs {}) hknown (List.nil_subset _) nofun

/-- The given registry has no say in what is declared. -/
theorem declarations_of_given {s : Schema} {o : Options} {imports? : Option Registry}
    {mapper? : Option Mapper} {r : Result} (h : generate s o imports? mapper? = .ok r)
    (imports?' : Option Registry) :
    ∃ r' : Result, generate s o imports?' mapper? = .ok r' ∧ r'.declarations = r.declarations := by
  obtain ⟨hdocument, hdefaults, xs, hxs, rfl⟩ := generate_from_ok.mp h
  exact ⟨_, generate_from_ok.mpr ⟨hdocument, hdefaults, xs, hxs, rfl⟩, rfl⟩

theorem generate_of_empty {given : Registry} (h : given.imports = []) (s : Schema) (o : Options)
    (mapper? : Option Mapper) : generate s o (some given) mapper? = generate s o none mapper? := by
  unfold generate
  rw [Registry.orFresh_of_empty h]

end SchemaTypes

/-! ## Operation types -/

namespace OperationTypes

def Block.spans (o : Origins) (b : Block) : List Span :=
  [.plain "\n\n\n"].intercalate (b.declarations.flatMap (·.spans o))

def Result.spans (o : Origins) (r : Result) : List (List Span) := r.blocks.map (·.spans o)

theorem Result.body_eq (o : Origins) (r : Result) :
    r.body = (r.spans o).map (render r.imports) := by
  rw [body, spans, List.map_map]
  refine List.map_congr_left fun b _ => ?_
  rw [Function.comp_apply, Block.spans, render_intercalate, Block.text, List.map_flatMap]
  exact congrArg _ (List.flatMap_congr fun d _ => d.blocks_eq r.imports o)

theorem Block.within_spans (o : Origins) (b : Block) : Within o b.needs (b.spans o) := by
  refine .intercalate fun line hline => ?_
  obtain ⟨d, hd, hline⟩ := List.mem_flatMap.mp hline
  refine (d.within_spans o line hline).mono ?_
  rcases List.mem_append.mp hd with hd | hd
  · obtain ⟨v, hv, rfl⟩ := List.mem_map.mp hd
    exact fun symbol hsymbol => List.mem_append_left _ (List.mem_flatMap.mpr ⟨v, hv, hsymbol⟩)
  · obtain rfl := List.mem_singleton.mp hd
    exact List.subset_append_right _ _

/-- Where the names in types come from: with the mapper of the options, also from the module that
these name. -/
def origins (o : Options) (given : Registry) : Option Mapper → Origins
  | some _ => {}
  | none =>
    let start := (Registry.orFresh (some given) o.typeImports).recordAll [annotationsSymbol]
    { module? := start.lookedUp? o.typesFrom? .runtime }

theorem takesUp_resultFrom (given : Registry) (s : Schema) (d : Document) (o : Options)
    (mapper? : Option Mapper) (found : List Response.Shape) :
    let r := resultFrom (startFrom s o (some given) mapper?) d o found
    TakesUp given r.imports r.body (r.spans (origins o given mapper?)) := by
  intro r
  have hannotations :=
    Registry.extends_recordAll (.orFresh (some given) o.typeImports) [annotationsSymbol] .runtime
  have hneeds := Registry.extends_recordAll (startFrom s o (some given) mapper?).2
    (r.blocks.flatMap (·.needs)) .runtime
  have hknown : r.blocks.flatMap (·.needs) ⊆ r.imports.imports.map (·.key) :=
    Registry.subset_keys_recordAll _ _
  have hwithin (o : Origins) : ∀ line ∈ r.spans o, Within o (r.blocks.flatMap (·.needs)) line := by
    intro line hline
    obtain ⟨b, hb, rfl⟩ := List.mem_map.mp hline
    exact (b.within_spans o).mono fun symbol hsymbol => List.mem_flatMap.mpr ⟨b, hb, hsymbol⟩
  cases mapper? with
  | some m =>
    exact takesUp (r.body_eq _) (hannotations.trans hneeds) (hwithin _) hknown
      (List.nil_subset _) nofun
  | none =>
    have hmodule := Registry.extends_qualify
      ((Registry.orFresh (some given) o.typeImports).recordAll [annotationsSymbol]) o.typesFrom?
      typesName .runtime
    refine takesUp (r.body_eq _) ((hannotations.trans hmodule).trans hneeds) (hwithin _) hknown
      (List.nil_subset _)
      fun source start hstart => ?_
    obtain ⟨name, hcalls, rfl⟩ := Registry.calls_of_lookedUp? hstart
    exact ⟨name, hneeds.calls hcalls, rfl⟩

theorem takesUp_generate {given : Registry} {s : Schema} {d : Document} {o : Options}
    {mapper? : Option Mapper} {w w' : List Warning} {r : Result}
    (h : (generate s d o (some given) mapper?).run w = .ok r w') :
    TakesUp given r.imports r.body (r.spans (origins o given mapper?)) := by
  rw [run_generate, Response.run_map] at h
  cases hr : (Response.shapes s d).run w with
  | ok found w₁ =>
    rw [hr] at h
    cases h
    exact takesUp_resultFrom given s d o mapper? found
  | error e w₁ =>
    rw [hr] at h
    cases h

theorem generate_of_empty {given : Registry} (h : given.imports = []) (s : Schema) (d : Document)
    (o : Options) (mapper? : Option Mapper) :
    generate s d o (some given) mapper? = generate s d o none mapper? := by
  unfold generate
  rw [Registry.orFresh_of_empty h]

end OperationTypes

/-! ## Resolver interfaces -/

namespace Resolver

/-- The symbols that replaced types stand for, with their modules relative to a package. A type
without a module, or with one outside of everything, stands for none. -/
def targets (package : String) (mappers : List (String × String)) : List Symbol :=
  mappers.filterMap fun m =>
    let target := Target.parse m.2
    target.source?.bind fun source =>
      (Naming.resolveModule source package).toOption.map (target.name, ·)

/-- Replacing types records what they stand for. -/
theorem extends_replacements {package : String} {mappers : List (String × String)} {r : Registry}
    {found : List (String × NamedType) × Registry}
    (h : replacements package r mappers = .ok found) :
    r.Extends found.2 ∧ targets package mappers ⊆ found.2.imports.map (·.key) := by
  induction mappers generalizing r found with
  | nil =>
    cases h
    exact ⟨.refl r, List.nil_subset _⟩
  | cons m rest ih =>
    have hrest {r' : Registry} (h : (replacements package r' rest >>= fun more =>
        pure ((m.1, ⟨(Target.parse m.2).name, []⟩) :: more.1, more.2)) = .ok found) :
        r'.Extends found.2 ∧ targets package rest ⊆ found.2.imports.map (·.key) := by
      obtain ⟨more, hmore, h⟩ := bind_eq_ok.mp h
      cases pure_eq_ok.mp h
      have hmore := ih hmore
      exact hmore
    rw [replacements] at h
    unfold targets
    cases hsource : (Target.parse m.2).source? with
    | none =>
      rw [hsource] at h
      rw [List.filterMap_cons_none (by simp [hsource])]
      exact hrest h
    | some source =>
      rw [hsource] at h
      obtain ⟨module, hmodule, h⟩ := bind_eq_ok.mp h
      let i : Import := ⟨(Target.parse m.2).name, module, .typing, none⟩
      have hrecord : r.Extends (r.record i).2 := Registry.extends_record r fun _ => rfl
      obtain ⟨j, hj, hkey⟩ := Registry.exists_mem_record r i
      obtain ⟨hextends, htargets⟩ := hrest h
      have hhead : i.key ∈ found.2.imports.map (·.key) :=
        hextends.keys_subset (List.mem_map.mpr ⟨j, hj, hkey⟩)
      rw [List.filterMap_cons_some (b := i.key)
        (by simp [hsource, hmodule, Except.toOption, i, Import.key])]
      exact ⟨hrecord.trans hextends, List.cons_subset.mpr ⟨hhead, htargets⟩⟩

theorem extends_initialImports (r : Registry) :
    r.Extends (initialImports r) ∧ initialSymbols ⊆ (initialImports r).imports.map (·.key) := by
  exact Registry.extends_foldl_record r (by decide)

/-- Where the names in types come from: from what every module of resolvers imports and, with the
mapper of the options, from the replaced types and the module that these name. -/
def origins (o : Options) (package : String) (given : Registry) : Option Mapper → Origins
  | some _ => { symbols := [anySymbol] }
  | none =>
    { symbols := anySymbol :: targets (packageFor o package) o.mappers
      module? :=
        (initialImports (Registry.orFresh (some given) o.typeImports)).lookedUp? o.typesFrom?
          .typing }

theorem Result.body_eq (o : Origins) (isAsync : Bool) (r : Result) :
    r.body isAsync = (r.spans o isAsync).map (render r.imports) := by
  rw [body, spans, List.map_map]
  exact List.map_congr_left fun i _ => i.text_eq r.imports o isAsync

/-- The registry that types are resolved with has what every module of resolvers imports, and all
that the names in types may stand for. -/
theorem settled_settingFrom {given : Registry} {s : Schema} {o : Options} {package : String}
    {mapper? : Option Mapper} {m : Mapper} {imports : Registry}
    (h : settingFrom s o package (some given) mapper? = .ok (m, imports)) :
    (Registry.orFresh (some given) o.typeImports).Extends imports ∧
      initialSymbols ⊆ imports.imports.map (·.key) ∧
      (origins o package given mapper?).symbols ⊆ imports.imports.map (·.key) ∧
      ∀ source start, (origins o package given mapper?).module? = some (source, start) →
        ∃ name, imports.Calls source name ∧ start = name ++ "." := by
  obtain ⟨hinitial, hsymbols⟩ :=
    extends_initialImports (Registry.orFresh (some given) o.typeImports)
  cases mapper? with
  | some mapper =>
    cases pure_eq_ok.mp h
    exact ⟨hinitial, hsymbols,
      List.cons_subset.mpr ⟨hsymbols (by decide), List.nil_subset _⟩, nofun⟩
  | none =>
    obtain ⟨found, hfound, h⟩ := bind_eq_ok.mp h
    cases pure_eq_ok.mp h
    obtain ⟨hreplaced, htargets⟩ := extends_replacements hfound
    have hmodule := Registry.extends_qualify
      (initialImports (Registry.orFresh (some given) o.typeImports))
      o.typesFrom? typesName .typing
    have hsymbols := List.Subset.trans hsymbols (hmodule.trans hreplaced).keys_subset
    refine ⟨(hinitial.trans hmodule).trans hreplaced, hsymbols,
      List.cons_subset.mpr ⟨hsymbols (by decide), htargets⟩, fun source start hstart => ?_⟩
    obtain ⟨name, hcalls, rfl⟩ := Registry.calls_of_lookedUp? hstart
    exact ⟨name, hreplaced.calls hcalls, rfl⟩

theorem takesUp_generate {given : Registry} {s : Schema} {o : Options} {package : String}
    {mapper? : Option Mapper} {r : Result} (h : generate s o package (some given) mapper? = .ok r) :
    TakesUp given r.imports (r.body o.asyncResolvers)
      (r.spans (origins o package given mapper?) o.asyncResolvers) := by
  obtain ⟨m, imports, hsetting, -, -, rfl⟩ := generate_from_ok.mp h
  let result := resultOf m imports s.types
  let needs := result.interfaces.flatMap (·.needs)
  obtain ⟨hextends, hinitial, hsymbols, hmodule⟩ := settled_settingFrom hsetting
  have hneeds : imports.Extends result.imports := Registry.extends_recordAll _ _ _
  have hwithin (x : Origins) :
      ∀ line ∈ result.spans x o.asyncResolvers, Within x (initialSymbols ++ needs) line := by
    intro line hline
    obtain ⟨i, hi, rfl⟩ := List.mem_map.mp hline
    refine (i.within_spans o.asyncResolvers).mono
      (List.append_subset.mpr ⟨List.subset_append_left _ _, ?_⟩)
    exact fun symbol hsymbol => List.mem_append_right _ (List.mem_flatMap.mpr ⟨i, hi, hsymbol⟩)
  have hknown : initialSymbols ++ needs ⊆ result.imports.imports.map (·.key) :=
    List.append_subset.mpr
      ⟨List.Subset.trans hinitial hneeds.keys_subset, Registry.subset_keys_recordAll _ _⟩
  refine takesUp (result.body_eq _ _) (hextends.trans hneeds) (hwithin _) hknown
    (List.Subset.trans hsymbols hneeds.keys_subset) fun source start hstart => ?_
  obtain ⟨name, hcalls, rfl⟩ := hmodule source start hstart
  exact ⟨name, hneeds.calls hcalls, rfl⟩

theorem generate_of_empty {given : Registry} (h : given.imports = []) (s : Schema) (o : Options)
    (package : String) (mapper? : Option Mapper) :
    generate s o package (some given) mapper? = generate s o package none mapper? := by
  unfold generate
  rw [Registry.orFresh_of_empty h]

end Resolver

/-! ## Given registries -/

/-- **Given registries.** Schema types, operation types and resolver interfaces are made of spans.
With a given registry, the name in a span is the local name of the entry that the registry then has
for its symbol, unless the text has the symbol's own name and the registry calls it otherwise; what
was in the registry stays there, and nothing else is renamed. An empty registry has no such entry,
since it is as good as none. -/
theorem given_registries_taken_up (given : Registry) (s : Schema) (o : Options)
    (mapper? : Option Mapper) :
    (∀ r, SchemaTypes.generate s o (some given) mapper? = .ok r →
      TakesUp given r.imports r.body r.spans) ∧
      (∀ d w r w', (OperationTypes.generate s d o (some given) mapper?).run w = .ok r w' →
      TakesUp given r.imports r.body (r.spans (OperationTypes.origins o given mapper?))) ∧
    (∀ package r, Resolver.generate s o package (some given) mapper? = .ok r →
      TakesUp given r.imports (r.body o.asyncResolvers)
        (r.spans (Resolver.origins o package given mapper?) o.asyncResolvers)) ∧
    (given.imports = [] →
      SchemaTypes.generate s o (some given) mapper? = SchemaTypes.generate s o none mapper? ∧
      (∀ d, OperationTypes.generate s d o (some given) mapper? =
        OperationTypes.generate s d o none mapper?) ∧
      ∀ package, Resolver.generate s o package (some given) mapper? =
        Resolver.generate s o package none mapper?) := by
  refine ⟨fun r h => SchemaTypes.takesUp_generate h,
    fun d w r w' h => OperationTypes.takesUp_generate h,
    fun package r h => Resolver.takesUp_generate h,
      fun h => ⟨SchemaTypes.generate_of_empty h s o mapper?, ?_, ?_⟩⟩
  · exact fun d => OperationTypes.generate_of_empty h s d o mapper?
  · exact fun package => Resolver.generate_of_empty h s o package mapper?

section Runs

open OperationTypes (pairSchema pairQuery pair ofPair)
open Resolver (ownSpan)
open Response (Asks Shaped rootOf)

/-- A registry with a class and a module under other names. -/
def aliased : Registry where
  imports := [⟨"BaseModel", "pydantic", .runtime, some "Base"⟩,
    ⟨wholeModule, "app.types", .runtime, some "Mine"⟩]

theorem given_registries_taken_up_aliased :
    let o : Options := { typesFrom? := some "app.types" }
    let d := Document.concat (pairQuery [pair [] [ofPair "x"]])
    (∃ r, SchemaTypes.generate pairSchema o (some aliased) = .ok r ∧
      TakesUp aliased r.imports r.body r.spans) ∧
    (∃ r w, (OperationTypes.generate pairSchema d o (some aliased)).run [] = .ok r w ∧
      TakesUp aliased r.imports r.body (r.spans (OperationTypes.origins o aliased none))) ∧
    (∃ r, Resolver.generate pairSchema o "app" (some aliased) = .ok r ∧
      TakesUp aliased r.imports (r.body false)
      (r.spans (Resolver.origins o "app" aliased none) false)) ∧
    Registry.imports {} = [] ∧
      SchemaTypes.generate pairSchema o (some {}) = SchemaTypes.generate pairSchema o := by
  intro o d
  obtain ⟨htypes, hoperations, hresolvers, -⟩ := given_registries_taken_up aliased pairSchema o none
  obtain ⟨-, -, -, hempty⟩ := given_registries_taken_up {} pairSchema o none
  have hok : (SchemaTypes.generate pairSchema o (some aliased)).toOption.isSome &&
      (Resolver.generate pairSchema o "app" (some aliased)).toOption.isSome := by decide +kernel
  obtain ⟨hsome, hsome'⟩ := Bool.and_eq_true_iff.mp hok
  obtain ⟨types, htypesOk⟩ := exists_ok_of_isSome hsome
  obtain ⟨resolvers, hresolversOk⟩ := exists_ok_of_isSome hsome'
  have hasks :
      Asks ⟨pairSchema, fragmentsOf d⟩ (rootOf pairSchema .query) [pair [] [ofPair "x"]] _ :=
    .node (by decide) rfl (.leaf (by decide) rfl .nil) .nil
  have hshaped : Shaped ⟨pairSchema, fragmentsOf d⟩ d.definitions _ := .cons ⟨_, hasks, rfl⟩ .nil
  obtain ⟨w, hshapes⟩ := Response.run_shapes_of_shaped hshaped []
  have hrun := OperationTypes.run_generate pairSchema d o (some aliased) none []
  rw [Response.run_map, hshapes] at hrun
  exact ⟨⟨types, htypesOk, htypes types htypesOk⟩, ⟨_, w, hrun, hoperations d [] _ w hrun⟩,
    ⟨resolvers, hresolversOk, hresolvers "app" resolvers hresolversOk⟩, rfl, (hempty rfl).1⟩

/-- A type with one field that may be missing. -/
def countSdl : String := "type Query \x7b a: Int \x7d"

/-- The spans of that field, `a: Optional[int] = None`. -/
def countSpans : List Span :=
  [.plain "a: ", ownSpan optionalSymbol, .plain "[", .own "int" [], .plain "]", .plain " = None"]

/-- A registry with another name for the mark for optional values. -/
def shortened : Registry where
  imports := [⟨"Optional", "typing", .runtime, some "Opt"⟩]

/-- The mark is written down as it is called itself, which is the local name of no entry. An empty
registry that keeps types apart is not taken up: the run ends with one that does not, and the given
one has no entries. -/
theorem given_registries_bypassed :
    ∃ d s, Document.read ⟨countSdl, "GraphQL request"⟩ = .ok d ∧ Schema.build d = .ok s ∧
      (∃ r, SchemaTypes.generate s {} (some shortened) = .ok r ∧
        r.body = r.spans.map (render r.imports) ∧ "Optional" ∉ r.imports.imports.map (·.localName) ∧
        ∃ line ∈ r.spans, countSpans <:+: line ∧
        ∃ x ∈ line, ¬ x.Agrees (shortened.afterwards r.imports)) ∧
      ∃ r, SchemaTypes.generate s {} (some ⟨true, []⟩) = .ok r ∧ r.imports.separateTyping = false ∧
        ∃ line ∈ r.spans, ∃ x ∈ line, ¬ x.Agrees (Registry.afterwards ⟨true, []⟩ r.imports) := by
  obtain ⟨d, s, hd, hbuild, hfacts⟩ := exists_of_any_schemaOf? countSdl
    (P := fun s => (SchemaTypes.generate s {} (some shortened)).toOption.any
      fun (r : SchemaTypes.Result) =>
      decide ("Optional" ∉ r.imports.imports.map (·.localName)) && r.spans.any fun line =>
        decide (countSpans <:+: line))
    (by decide +kernel)
  obtain ⟨r, hr, hfacts⟩ := exists_ok_of_any hfacts
  simp only [Bool.and_eq_true, decide_eq_true_eq, List.any_eq_true] at hfacts
  obtain ⟨hlocal, line, hline, hspans⟩ := hfacts
  have hmark : ownSpan optionalSymbol ∈ line := hspans.subset (by decide)
  have hcalls : ¬ r.imports.Calls optionalSymbol "Optional" := fun ⟨i, hget, hname⟩ =>
    hlocal (List.mem_map.mpr ⟨i, (Registry.of_find?_key hget).1, hname⟩)
  have hempty : ¬ Registry.Calls ⟨true, []⟩ optionalSymbol "Optional" :=
    Registry.not_calls_of_empty rfl _ _
  obtain ⟨r', hr', hdeclarations⟩ := SchemaTypes.declarations_of_given hr (some ⟨true, []⟩)
  have hline' : line ∈ r'.spans := by rwa [SchemaTypes.Result.spans, hdeclarations]
  have hflag : r'.imports.separateTyping = false := by
    obtain ⟨-, -, xs, -, rfl⟩ := SchemaTypes.generate_from_ok.mp hr'
    exact (Registry.extends_recordAll _ _ _).flag
  refine ⟨d, s, hd, hbuild, ⟨r, hr, r.body_eq, hlocal, line, hline, hspans, _, hmark, fun h => ?_⟩,
    r', hr', hflag, line, hline', _, hmark, fun h => ?_⟩
  · exact hcalls (h optionalSymbol (List.mem_singleton_self _))
  · exact hempty (h optionalSymbol (List.mem_singleton_self _))

end Runs

end Graphwright
