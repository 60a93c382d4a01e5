import Graphwright.Proofs.Module.Classes
import Graphwright.Proofs.Naming.Escapes
import Graphwright.Proofs.Response.Holdings

/-!
# Models that are rebuilt

References between models are resolved at the end of their module, by a block with a line for each
model. Its lines are those of the classes that derive from models, as they are read off the texts of
the declarations, in the same order (`SchemaTypes.filterMap_modelClass?_body`,
`OperationTypes.filterMap_modelClass?_texts`). In the operation types a model below another one
belongs to one field of a response and is declared in front of the model that holds it
(`parts_rebuild_models`).
-/
namespace Graphwright

open Graphwright.Document Graphwright.Module Graphwright.Types Graphwright.Response

namespace Naming

theorem className_ne_class (name : String) : className name ≠ "class" := by
  unfold className
  dsimp only
  split
  · intro h
    have hlast := congrArg (·.toList.getLast?) h
    simp at hlast
  · rw [safeIdentifier_eq]
    have hkeyword : "class" ∈ keywords := by decide
    exact fun h => escaped_not_mem escapable_keywords _ (h.symm ▸ hkeyword)

end Naming

namespace SchemaTypes

variable {r : Registry}

/-- The texts of the declaration of a type hold the models that it declares. -/
theorem filterMap_modelClass?_declare (hr : r.Plain) {m : Mapper} {skipTypename : Bool}
    {t : TypeDefinition} {x : Declared} (h : declare m skipTypename t = .ok (some x)) :
    (x.declaration.blocks r).filterMap modelClass? = x.declaration.modelNames := by
  have hword : IsWordText (Naming.className t.name).toList :=
    fun c hc => Naming.isWord_of_mem_className hc
  have hmodel {typename? : Option Attribute} {fields : List (Attribute × Option Description)}
      (hx : modelOf t typename? fields = .ok x) :
      (x.declaration.blocks r).filterMap modelClass? = x.declaration.modelNames := by
    have hnames : ∀ n ∈ x.declaration.names, IsWordText n.toList := by
      rw [names_modelOf hx]
      exact List.forall_mem_singleton.mpr hword
    obtain ⟨description?, described, rfl, -⟩ := modelOf_ok hx
    exact filterMap_modelClass?_models (hr.local_eq (by decide)) hnames
  cases declaring_of_ok h with
  | object _ _ hx | interface _ _ hx | input _ _ hx => exact hmodel hx
  | enum => exact modelClass?_enum hword (hr.local_eq (by decide)) _ _
  | union => exact modelClass?_union hword (Naming.className_ne_class t.name) _ _

/-- **Schema types.** The models among the texts of the types of a schema are those that are
rebuilt. -/
theorem filterMap_modelClass?_body {s : Schema} {o : Options} {r : Result}
    (h : generate s o = .ok r) : r.body.filterMap modelClass? = r.models := by
  obtain ⟨-, -, xs, hxs, rfl⟩ := generate_ok.mp h
  have hplain : (resultOf o (xs.filterMap id)).imports.Plain := (Registry.plain_empty _).recordAll _
  rw [Result.body, Result.models, List.filterMap_flatMap]
  refine List.flatMap_congr fun x hx => ?_
  obtain ⟨declared, hdeclared, rfl⟩ := List.mem_map.mp hx
  obtain ⟨x?, hx?, heq⟩ := List.mem_filterMap.mp hdeclared
  obtain rfl : x? = some declared := heq
  obtain ⟨t, -, ht⟩ := exists_of_mem_mapM_ok hxs _ hx?
  exact filterMap_modelClass?_declare hplain ht

end SchemaTypes

namespace OperationTypes

theorem filterMap_modelClass?_block {r : Registry} (hmodel : r.local modelSymbol = "BaseModel")
    (hmapping : r.local mappingSymbol = "TypedDict") {b : Block}
    (h : ∀ n ∈ b.names, IsWordText n.toList) :
    (b.texts r).filterMap modelClass? = b.model.names := by
  obtain ⟨variables?, m⟩ := b
  have hm : ∀ n ∈ m.names, IsWordText n.toList :=
    fun n hn => h n (by simp [Block.names, Block.declarations, Declaration.names, hn])
  rw [Block.texts, Block.declarations, List.flatMap_append, List.filterMap_append,
    List.flatMap_singleton, filterMap_modelClass?_models hmodel hm]
  cases variables? with
  | none => rfl
  | some v =>
    have hv : IsWordText v.name.toList :=
      h v.name (by simp [Block.names, Block.declarations, Declaration.names])
    simp [Declaration.blocks, modelClass?_mapping hmapping hv]

/-- **Operation types.** The models among the texts of the blocks are those that are rebuilt, if the
definitions have names. -/
theorem filterMap_modelClass?_texts {s : Schema} {d : Document} {o : Options} {found : List Shape}
    (h : ∀ sh ∈ found, sh.IsNamed) :
    let r := resultOf s d o found
    (r.blocks.flatMap (·.texts r.imports)).filterMap modelClass? = r.models := by
  intro r
  have hmodel : r.imports.local modelSymbol = modelSymbol.1 :=
    local_resultOf s d o found (by decide)
  have hmapping : r.imports.local mappingSymbol = mappingSymbol.1 :=
    local_resultOf s d o found (by decide)
  have hnames : ∀ b ∈ r.blocks, ∀ n ∈ b.names, IsWordText n.toList :=
    forall_mem_run_mapM (fun sh hsh a n hn c hc =>
      (Naming.fitsIdentifiers (isNameText_blockOf _ _ (h sh hsh) a n hn c hc)).word) _
  rw [Result.models, List.filterMap_flatMap]
  exact List.flatMap_congr fun b hb => filterMap_modelClass?_block hmodel hmapping (hnames b hb)

end OperationTypes

/-- **Rebuilding.** Let the documents be read from texts. The schema types rebuild the models that
are declared in their body, in order, and so do the operation types of the documents. In these, the
models below those of the definitions have names of their own; there is one for each field of a
response with others below it, it is the innermost name in the type of that field, and it is
declared before the model with the field, in the same block. -/
theorem parts_rebuild_models (s : Schema) (ds : List Document) (o : Options) (path : String)
    (hds : ∀ d ∈ ds, ∃ source, Document.read source = .ok d) :
    (∀ p, SchemaTypes.part s o path = .ok p →
      p.extras = [rebuildBlock (p.body.filterMap modelClass?)]) ∧
    ∀ w p w', (OperationTypes.part s (Document.concat ds) o path).run w = .ok p w' →
      ∃ (found : List Shape) (r : OperationTypes.Result),
        (shapes s (Document.concat ds)).run w = .ok found w' ∧
        (OperationTypes.generate s (Document.concat ds) o).run w = .ok r w' ∧
        p.body = r.blocks.map (fun b => "\n\n\n".intercalate (b.texts r.imports)) ∧
        p.extras = [rebuildBlock ((r.blocks.flatMap (·.texts r.imports)).filterMap modelClass?)] ∧
        (r.blocks.flatMap (·.heldNames)).Nodup ∧
        (∀ n ∈ r.blocks.flatMap (·.heldNames),
          n ∉ OperationTypes.reservedNames o.dedupeSuffix (Document.concat ds)) ∧
        List.Forall₂ (fun sh b => OperationTypes.Arranges r.imports sh.fields b)
          found r.blocks := by
  constructor
  · intro p h
    obtain ⟨package, r, -, hr, rfl⟩ := SchemaTypes.part_ok.mp h
    rw [SchemaTypes.partOf, SchemaTypes.filterMap_modelClass?_body hr]
  · intro w p w' h
    obtain ⟨package, found, -, hshapes, rfl⟩ := OperationTypes.exists_shapes_of_part_ok h
    have hshaped := OperationTypes.shaped_of_shapes hshapes
    have hnamed : ∀ sh ∈ found, sh.IsNamed :=
      named_shaped hshaped (namedFragments_of_isNamed (isNamed_concat hds)) (isNamed_concat hds)
    obtain ⟨hnodup, hreserved⟩ := OperationTypes.heldNames_resultOf s (Document.concat ds) o found
    refine ⟨found, _, hshapes, OperationTypes.generate_of_shapes hshapes o, rfl, ?_, hnodup,
      hreserved, OperationTypes.arranges_resultOf hshaped o⟩
    rw [OperationTypes.partOf, OperationTypes.filterMap_modelClass?_texts hnamed]

section Pairs

open OperationTypes (pairSchema fragmentLikePairs pairType ofPair)

theorem parts_rebuild_models_fragmentLikePairs :
    let d := Document.concat fragmentLikePairs
    (∀ d ∈ fragmentLikePairs, ∃ source, Document.read source = .ok d) ∧
      (∃ p, SchemaTypes.part pairSchema {} "operations.py" = .ok p ∧
        p.extras = [rebuildBlock (p.body.filterMap modelClass?)]) ∧
      ∃ (p : Part) (w : List Warning) (found : List Shape) (r : OperationTypes.Result),
        (OperationTypes.part pairSchema d {} "operations.py").run [] = .ok p w ∧
        (shapes pairSchema d).run [] = .ok found w ∧
        (OperationTypes.generate pairSchema d {}).run [] = .ok r w ∧
        p.body = r.blocks.map (fun b => "\n\n\n".intercalate (b.texts r.imports)) ∧
        p.extras = [rebuildBlock ((r.blocks.flatMap (·.texts r.imports)).filterMap modelClass?)] ∧
        (r.blocks.flatMap (·.heldNames)).Nodup ∧
        (∀ n ∈ r.blocks.flatMap (·.heldNames), n ∉ OperationTypes.reservedNames false d) ∧
        List.Forall₂ (fun sh b => OperationTypes.Arranges r.imports sh.fields b)
          found r.blocks := by
  intro d
  have hread : ∀ d ∈ fragmentLikePairs, ∃ source, Document.read source = .ok d := by
    let query := "query Q \x7b fFragment: a \x7b x \x7d FFragment: a \x7b y \x7d \x7d"
    let fragment := "fragment QQueryF on A \x7b x \x7d"
    refine List.forall_mem_cons.mpr
      ⟨⟨⟨query, ""⟩, ?_⟩, List.forall_mem_singleton.mpr ⟨⟨fragment, ""⟩, ?_⟩⟩
    · cbv
    · cbv
  have hx : Asks ⟨pairSchema, fragmentsOf d⟩ (some pairType) [ofPair "x"] _ :=
    .leaf (by decide) rfl .nil
  have hy : Asks ⟨pairSchema, fragmentsOf d⟩ (some pairType) [ofPair "y"] _ :=
    .leaf (by decide) rfl .nil
  have hs : Shaped ⟨pairSchema, fragmentsOf d⟩ d.definitions _ :=
    .cons ⟨_, .node (by decide) rfl hx (.node (by decide) rfl hy .nil), rfl⟩
      (.cons ⟨_, hx, rfl⟩ .nil)
  obtain ⟨w, -, hoperations⟩ :=
    OperationTypes.part_of_shaped {}
      (show Naming.packageOf "operations.py" = .ok "generated" by rfl) hs []
  have hok : (SchemaTypes.part pairSchema {} "operations.py").toOption.isSome := by decide +kernel
  obtain ⟨p, htypes⟩ := exists_ok_of_isSome hok
  obtain ⟨hfirst, hsecond⟩ :=
    parts_rebuild_models pairSchema fragmentLikePairs {} "operations.py" hread
  obtain ⟨found, r, hr⟩ := hsecond _ _ _ hoperations
  exact ⟨hread, ⟨p, htypes, hfirst p htypes⟩, _, w, found, r, hoperations, hr⟩

end Pairs

end Graphwright
