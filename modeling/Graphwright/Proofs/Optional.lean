import Mathlib
import Graphwright.Proofs.Response.Named
import Graphwright.Proofs.Response.Presence
import Graphwright.Proofs.Response.References
import Graphwright.Proofs.Schema.Declared
import Graphwright.Proofs.Types.Marks

/-!
# Fields that default to nothing

A field of a response may be null, or be absent because of a condition; a field of a schema may be
null. Each of them is marked for optional values once, and defaults to nothing just then.

* `OperationTypes.marksOptional_membersOf`: the members for fields with names, with their models at
  every depth.
* `SchemaTypes.marksOptional_declare`: the fields of an object or an interface.
* `parts_mark_optional`: both for the parts that the generators make, with the usual table of
  scalars.
-/
namespace Graphwright

open Graphwright.Document Graphwright.Module Graphwright.Types Graphwright.Response

namespace OperationTypes

/-! ## Fields of a response -/

section Members

variable {r : Registry} (hr : r.local optionalSymbol = optionalSymbol.1)

include hr

/-- A type that is a mark exactly if it may be null is marked once more for a condition, unless it
is a mark already. -/
theorem marksOptional_attributeOf (key : String) (type? : Option TypeRef) (conditional : Bool)
    {t : Resolved} (hplain : '[' ∉ t.expr.innermost.toList) (honce : t.expr.MarksOnce)
    (hmark : t.expr.isOptional = !isRequired type?) :
    (attributeOf key type? t conditional).MarksOptional r := by
  have hattribute : attributeOf key type? t conditional =
      { key, name := attributeName key type?
        annotation := if conditional && isRequired type? then .sometimes t else .type t
        default? := if conditional || !isRequired type? then some "None" else none } := by
    cases type? <;> rfl
  rw [hattribute]
  cases hrequired : isRequired type? with
  | false =>
    refine Attribute.marksOptional_of_text (e := t.expr) ?_ hplain honce ?_
    · rw [Bool.and_false]
      rfl
    · simp [hmark, hrequired]
  | true =>
    cases conditional with
    | false =>
      refine Attribute.marksOptional_of_text (e := t.expr) rfl hplain honce ?_
      simp [hmark, hrequired]
    | true =>
      refine Attribute.marksOptional_of_text (e := .optional t.expr) ?_ hplain ⟨?_, honce⟩ ?_
      · change r.local optionalSymbol ++ "[" ++ t.text ++ "]" = "Optional[" ++ t.text ++ "]"
        rw [hr]
        rfl
      · simp [hmark, hrequired]
      · simp [Expr.isOptional]

theorem marksOptional_resolved (m : Mapper) (key : String) (type : TypeRef)
    (base? : Option NamedType) (conditional : Bool)
    (hplain : '[' ∉ (base?.getD (m.named type.base)).text.toList) :
    (attributeOf key (some type) (m.resolve type base?) conditional).MarksOptional r := by
  obtain ⟨hmark, honce, hinner⟩ := marks_resolve m type base?
  exact marksOptional_attributeOf hr key (some type) conditional (hinner ▸ hplain) honce hmark

end Members

mutual

theorem marksOptional_memberOf {r : Registry} (hr : r.local optionalSymbol = optionalSymbol.1)
    {m : Mapper} (hm : m.IsPlain) {owner : String} (howner : Naming.IsNameText owner.toList) :
    ∀ (f : Field) (a : Naming.Allocator),
      Keyed IsName [f] → ((memberOf m owner f).run a).1.MarksOptional r
  | .mk key (some type) (some fields) conditional, a, .cons hkey hbelow _ => by
    have hname := isNameText_allocate a howner hkey
    rw [run_memberOf_node]
    refine ⟨marksOptional_resolved hr m key type _ conditional (hname.not_mem (by decide)),
      Model.marksOptional_mk ?_⟩
    exact marksOptional_membersOf hr hm hname fields _ (hbelow fields rfl)
  | .mk key none children? conditional, a, _ => by
    rw [run_memberOf_leaf _ _ _ _ (.inl rfl)]
    have hplain : '[' ∉ "str".toList := by decide
    exact marksOptional_attributeOf hr key none conditional hplain trivial rfl
  | .mk key (some type) none conditional, a, _ => by
    rw [run_memberOf_leaf _ _ _ _ (.inr rfl)]
    exact marksOptional_resolved hr m key type none conditional (Mapper.not_mem_named hm type.base)

/-- **Members.** The members for fields with names are marked for optional values as they default to
nothing. -/
theorem marksOptional_membersOf {r : Registry} (hr : r.local optionalSymbol = optionalSymbol.1)
    {m : Mapper} (hm : m.IsPlain) {owner : String} (howner : Naming.IsNameText owner.toList) :
    ∀ (fs : List Field) (a : Naming.Allocator),
      Keyed IsName fs → ∀ x ∈ ((membersOf m owner fs).run a).1, x.MarksOptional r
  | [], a, _ => by
    rw [membersOf]
    exact nofun
  | f :: rest, a, hfields => by
    obtain ⟨hf, hrest⟩ := keyed_append.mp (show Keyed IsName ([f] ++ rest) from hfields)
    rw [run_membersOf_cons]
    exact List.forall_mem_cons.mpr
      ⟨marksOptional_memberOf hr hm howner f a hf,
        marksOptional_membersOf hr hm howner rest _ hrest⟩

end

/-! ## Blocks -/

section Blocks

variable {r : Registry} (hr : r.local optionalSymbol = optionalSymbol.1) {m : Mapper}
    (hm : m.IsPlain)

include hr hm

theorem marksOptional_blockOf (dedupe : Bool) {sh : Shape} (h : sh.IsNamed) (a : Naming.Allocator) :
    ((blockOf m dedupe sh).run a).1.model.MarksOptional r := by
  cases sh with
  | operation name o fields =>
    exact Model.marksOptional_mk
      (marksOptional_membersOf hr hm (isNameText_resultName dedupe h.1 o.kind) fields a h.2)
  | fragment f fields =>
    exact Model.marksOptional_mk
      (marksOptional_membersOf hr hm (isNameText_fragmentTypeName h.1) fields a h.2)

theorem marksOptional_mapM_blockOf (dedupe : Bool) {found : List Shape}
    (h : ∀ sh ∈ found, sh.IsNamed) (a : Naming.Allocator) :
    ∀ b ∈ ((found.mapM (blockOf m dedupe)).run a).1, b.model.MarksOptional r :=
  forall_mem_run_mapM (fun _ hsh => marksOptional_blockOf hr hm dedupe (h _ hsh)) a

end Blocks

/-! ## The module of a document -/

/-- The types of the schema are at hand, or they are in a module with a name of its own; everything
else is imported under the name that it has. -/
theorem startOf_eq (s : Schema) (o : Options) :
    (startOf s o).1.qualifier ∈ ["", typesName ++ "."] ∧
      ∀ i ∈ (startOf s o).2.imports, i.symbol ≠ wholeModule → i.asName? = none := by
  let first := (Registry.orFresh none o.typeImports).recordAll [annotationsSymbol]
  have hfirst : ∀ i ∈ first.imports, i.symbol ≠ wholeModule ∧ i.asName? = none := by
    have himports : first.imports = [⟨annotationsSymbol.1, annotationsSymbol.2, .runtime, none⟩] :=
      rfl
    rw [himports]
    decide
  obtain ⟨hqualifier, himports⟩ :=
    Registry.qualify_of_symbols (fun i hi => (hfirst i hi).1) o.typesFrom?
      (show typesName ≠ "" by decide)
  refine ⟨hqualifier, fun i hi hsymbol => ?_⟩
  rcases himports i hi with hi | hwhole
  · exact (hfirst i hi).2
  · exact (hsymbol hwhole).elim

theorem isPlain_startOf (s : Schema) {o : Options} (h : o.scalars = []) :
    (startOf s o).1.IsPlain := by
  have hqualifier : ∀ q ∈ ["", typesName ++ "."], '[' ∉ q.toList := by decide
  exact ⟨congrArg ScalarTable.ofTexts h, rfl, hqualifier _ (startOf_eq s o).1⟩

theorem local_resultOf (s : Schema) (d : Document) (o : Options) (found : List Shape)
    {symbol : Symbol} (h : symbol.1 ≠ wholeModule) :
    (resultOf s d o found).imports.local symbol = symbol.1 := by
  refine Registry.local_eq_of_forall (fun i hi hkey => ?_) h
  rcases Registry.mem_recordAll hi with hi | ⟨-, hname⟩
  · exact (startOf_eq s o).2 i hi ((congrArg Prod.fst hkey).trans_ne h)
  · exact hname

theorem marksOptional_resultOf {s : Schema} {d : Document} {o : Options} {found : List Shape}
    (h : Shaped ⟨s, fragmentsOf d⟩ d.definitions found) (hnamed : ∀ x ∈ d.definitions, x.IsNamed)
    (hscalars : o.scalars = []) :
    ∀ b ∈ (resultOf s d o found).blocks, b.model.MarksOptional (resultOf s d o found).imports :=
  marksOptional_mapM_blockOf (local_resultOf s d o found (by decide))
    (isPlain_startOf s hscalars) o.dedupeSuffix
    (named_shaped h (namedFragments_of_isNamed hnamed) hnamed) _

end OperationTypes

namespace SchemaTypes

/-! ## Fields of a schema -/

/-- The fields that responses have of a type: those of an object or an interface. -/
def responseFields? (t : TypeDefinition) : Option (List FieldDefinition) :=
  match t.body with
  | .object _ fields | .interface _ fields => some fields
  | _ => none

/-- A type whose fields responses have is declared by a model, which may hold the name of the type,
and then holds these fields in order, each marked for optional values as it defaults to nothing. -/
def DeclaresMarked (r : Registry) (t : TypeDefinition) (x : Declaration) : Prop :=
  ∀ fields, responseFields? t = some fields →
    ∃ (description? : Option String) (typename? : Option Attribute)
    (attributes : List Attribute),
      x = .model (.mk (Naming.className t.name) description?
        ((typename?.toList ++ attributes).map .leaf)) ∧
      (∀ a ∈ typename?, a = typenameAttribute t.name) ∧
      List.Forall₂ (fun (f : FieldDefinition) a => a.key = f.name ∧ a.MarksOptional r) fields
        attributes

section Fields

variable {r : Registry} {m : Mapper} (hm : m.IsPlain)

include hm

/-- A field without a default of its own, with any description. -/
theorem marksOptional_attributeOf (key : String) (type : TypeRef) (description? : Option String) :
    Attribute.MarksOptional r { attributeOf m key type none with description? } := by
  obtain ⟨hmark, honce, hinner⟩ := marks_resolve m type none
  refine Attribute.marksOptional_of_text (e := (m.resolve type).expr) rfl ?_ honce ?_
  · rw [hinner]
    exact Mapper.not_mem_named hm type.base
  · rw [hmark]
    cases hrequired : type.isNonNull <;> simp [attributeOf, hrequired]

theorem marksOptional_fieldAttributes {fields : List FieldDefinition}
    {found : List (Attribute × Option Description)} {described : List Attribute}
    (hfound : fieldAttributes m fields = .ok found)
    (hdescribed : found.mapM (fun (a, d?) => return { a with description? := ← describe d? }) =
      Except.ok (ε := Error) described) :
    List.Forall₂ (fun (f : FieldDefinition) a => a.key = f.name ∧ a.MarksOptional r) fields
      described := by
  unfold fieldAttributes at hfound
  induction fields generalizing found described with
  | nil =>
    cases hfound
    cases hdescribed
    exact .nil
  | cons f rest ih =>
    obtain ⟨⟨a, d?⟩, more, hf, hmore, rfl⟩ := mapM_cons_eq_ok.mp hfound
    obtain ⟨_, others, ha, hothers, rfl⟩ := mapM_cons_eq_ok.mp hdescribed
    obtain ⟨_, -, hf⟩ := bind_eq_ok.mp hf
    cases hf
    obtain ⟨description?, -, ha⟩ := bind_eq_ok.mp ha
    obtain rfl := pure_eq_ok.mp ha
    exact .cons ⟨rfl, marksOptional_attributeOf hm f.name f.type description?⟩ (ih hmore hothers)

theorem marksOptional_modelOf {t : TypeDefinition} {typename? : Option Attribute}
    {fields : List FieldDefinition} {found : List (Attribute × Option Description)} {x : Declared}
    (hfields : responseFields? t = some fields)
    (htypename : ∀ a ∈ typename?, a = typenameAttribute t.name)
    (hfound : fieldAttributes m fields = .ok found) (h : modelOf t typename? found = .ok x) :
    DeclaresMarked r t x.declaration := by
  unfold modelOf at h
  obtain ⟨description?, -, h⟩ := bind_eq_ok.mp h
  obtain ⟨described, hdescribed, h⟩ := bind_eq_ok.mp h
  obtain rfl := pure_eq_ok.mp h
  intro fields' hfields'
  obtain rfl := Option.some.inj (hfields.symm.trans hfields')
  exact ⟨description?, typename?, described, rfl, htypename,
    marksOptional_fieldAttributes hm hfound hdescribed⟩

/-- **Fields.** The declaration of an object or an interface marks its fields; a scalar has no
declaration. -/
theorem marksOptional_declare {skipTypename : Bool} {t : TypeDefinition} {x? : Option Declared}
    (h : declare m skipTypename t = .ok x?) :
    List.Forall₂ (DeclaresMarked r) ([t].filter (!Schema.isScalar ·))
      (x?.toList.map (·.declaration)) := by
  have hone {x : Declared} (hbody : Schema.isScalar t = false)
      (hx : DeclaresMarked r t x.declaration) :
      List.Forall₂ (DeclaresMarked r) ([t].filter (!Schema.isScalar ·))
      ((some x).toList.map (·.declaration)) := by
    rw [List.filter_cons_of_pos (by simpa using hbody)]
    exact .cons hx .nil
  have hother {x : Declaration} (hnone : responseFields? t = none) : DeclaresMarked r t x := by
    intro fields hfields
    rw [hnone] at hfields
    cases hfields
  cases declaring_of_ok h with
  | scalar hb =>
    rw [List.filter_cons_of_neg (by simp [Schema.isScalar, hb])]
    exact .nil
  | object hb hfound hx =>
    refine hone (by simp [Schema.isScalar, hb])
      (marksOptional_modelOf hm (by simp [responseFields?, hb]) (fun a ha => ?_) hfound hx)
    cases skipTypename with
    | true => cases ha
    | false => exact (Option.some.inj ha).symm
  | interface hb hfound hx =>
    refine hone (by simp [Schema.isScalar, hb])
      (marksOptional_modelOf hm (by simp [responseFields?, hb]) (fun a ha => ?_) hfound hx)
    cases ha
  | input hb _ _ | enum hb _ _ | union hb =>
    exact hone (by simp [Schema.isScalar, hb]) (hother (by simp [responseFields?, hb]))

theorem marksOptional_mapM_declare {skipTypename : Bool} {ts : List TypeDefinition}
    {xs : List (Option Declared)} (h : ts.mapM (declare m skipTypename) = .ok xs) :
    List.Forall₂ (DeclaresMarked r) (ts.filter (!Schema.isScalar ·))
      ((xs.filterMap id).map (·.declaration)) := by
  rw [List.map_eq_flatMap]
  exact forall₂_mapM_declare (fun _ _ hx => List.map_eq_flatMap ▸ marksOptional_declare hm hx) h

end Fields

end SchemaTypes

/-! ## Parts of a module -/

/-- **Optional values.** Let the table of scalars be the usual one, and let the documents be read
from texts. In the operation types that are made of them, every field of every model defaults to
nothing exactly if its type is a mark for optional values; and so does every field of every object
and interface in the schema types, but for the one that holds the name of the type. No mark stands
directly inside another one. -/
theorem parts_mark_optional (s : Schema) (ds : List Document) (o : Options) (path : String)
    (hds : ∀ d ∈ ds, ∃ source, Document.read source = .ok d) (hscalars : o.scalars = []) :
    (∀ w p w', (OperationTypes.part s (Document.concat ds) o path).run w = .ok p w' →
      ∃ result : OperationTypes.Result,
        (OperationTypes.generate s (Document.concat ds) o).run w = .ok result w' ∧
        p.body = result.body ∧ ∀ b ∈ result.blocks, b.model.MarksOptional result.imports) ∧
    ∀ p, SchemaTypes.part s o path = .ok p →
      ∃ result : SchemaTypes.Result, SchemaTypes.generate s o = .ok result ∧ p.body = result.body ∧
        List.Forall₂ (SchemaTypes.DeclaresMarked result.imports)
          (s.types.filter (!Schema.isScalar ·)) result.declarations := by
  constructor
  · intro w p w' h
    obtain ⟨package, found, -, hshaped, hgenerate, rfl⟩ := OperationTypes.part_ok h
    exact ⟨_, hgenerate, rfl,
      OperationTypes.marksOptional_resultOf hshaped (isNamed_concat hds) hscalars⟩
  · intro p h
    obtain ⟨package, result, -, hgenerate, rfl⟩ := SchemaTypes.part_ok.mp h
    obtain ⟨-, -, xs, hxs, rfl⟩ := SchemaTypes.generate_ok.mp hgenerate
    have hplain : (SchemaTypes.mapperOf s o).IsPlain :=
      ⟨congrArg ScalarTable.ofTexts hscalars, rfl, List.not_mem_nil⟩
    exact ⟨_, hgenerate, rfl, SchemaTypes.marksOptional_mapM_declare hplain hxs⟩

section Pairs

open OperationTypes (pairSchema pairQuery pair includeIf ofPair)

/-- A query for both numbers of a pair, one of them under a condition. -/
def halfConditional : List Selection :=
  [pair [] [.field none "x" [] [includeIf "c"] none, ofPair "y"]]

theorem parts_mark_optional_halfConditional :
    let ds := pairQuery halfConditional
    (∀ d ∈ ds, ∃ source, Document.read source = .ok d) ∧ ({} : Options).scalars = [] ∧
      (∃ p w, ∃ result : OperationTypes.Result,
        (OperationTypes.part pairSchema (Document.concat ds) {} "operations.py").run [] = .ok p w ∧
          p.body = result.body ∧ ∀ b ∈ result.blocks, b.model.MarksOptional result.imports) ∧
      ∃ p, ∃ result : SchemaTypes.Result, SchemaTypes.part pairSchema {} "operations.py" = .ok p ∧
        p.body = result.body ∧ List.Forall₂ (SchemaTypes.DeclaresMarked result.imports)
          (pairSchema.types.filter (!Schema.isScalar ·)) result.declarations := by
  intro ds
  have hread : ∀ d ∈ ds, ∃ source, Document.read source = .ok d := by
    let text := "query Q($c: Boolean!) \x7b a \x7b x @include(if: $c) y \x7d \x7d"
    refine List.forall_mem_singleton.mpr ⟨⟨text, ""⟩, ?_⟩
    cbv
  have hasks : Asks ⟨pairSchema, []⟩ (rootOf pairSchema .query) halfConditional _ :=
    .node (by decide) rfl (.leaf (by decide) rfl (.leaf (by decide) rfl .nil)) .nil
  obtain ⟨p, w, hoperations⟩ := OperationTypes.part_pairQuery hasks
  have hok : (SchemaTypes.part pairSchema {} "operations.py").toOption.isSome := by decide +kernel
  obtain ⟨q, htypes⟩ := exists_ok_of_isSome hok
  obtain ⟨hfirst, hsecond⟩ := parts_mark_optional pairSchema ds {} "operations.py" hread rfl
  obtain ⟨operations, -, hbody, hmarks⟩ := hfirst _ _ _ hoperations
  obtain ⟨types, -, htypesBody, hdeclares⟩ := hsecond q htypes
  exact ⟨hread, rfl, ⟨p, w, operations, hoperations, hbody, hmarks⟩, q, types, htypes, htypesBody,
    hdeclares⟩

end Pairs

end Graphwright
