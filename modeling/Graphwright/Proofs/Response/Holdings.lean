import Graphwright.Proofs.Optional

/-!
# Models and the fields that hold them

A model that is declared below another one is held by one field. `Model.holdings` lists these
fields, each with its model and the one that it stands in, in the order in which the models are
declared. It is the order in which a response has its fields with others below them, those below a
field before the field itself (`composites`).

* `Model.all_eq_holdings`, `Model.before_of_mem_holdings`: below a model all models are held, each
  one behind its own.
* `belongs_membersOf`: there is one model for each field with others below it, and it is the
  innermost name of its type.
* `hands_mapM_blockOf`: over all blocks the models that are held are named by one run of requests.
-/
namespace Graphwright.Module

/-! ## Models that are held -/

/-- A field that holds a model of its own. -/
structure Holding where
  /-- The model that the field stands in. -/
  owner : Model
  field : Attribute
  model : Model

namespace Model

mutual

/-- The fields that hold models of their own, of the models below a model and of the model
itself. -/
def holdings : Model → List Holding
  | mk name description? members => holdingsBelow (mk name description? members) members

/-- The fields that hold models of their own, for a member of a model. -/
def holdingsOf (owner : Model) : Member → List Holding
  | .leaf _ => []
  | .node a below => holdings below ++ [⟨owner, a, below⟩]

/-- The fields that hold models of their own, for members of a model. -/
def holdingsBelow (owner : Model) : List Member → List Holding
  | [] => []
  | m :: rest => holdingsOf owner m ++ holdingsBelow owner rest

end

mutual

theorem all_eq_holdings : ∀ m : Model, m.all = m.holdings.map (·.model) ++ [m]
  | mk name description? members => by
    rw [all, holdings, allBelow_eq_holdings]

theorem allOf_eq_holdings (owner : Model) : ∀ member : Member,
    allOf member = (holdingsOf owner member).map (·.model)
  | .leaf _ => rfl
  | .node a below => by
    rw [allOf, holdingsOf, all_eq_holdings below, List.map_append]
    rfl

theorem allBelow_eq_holdings (owner : Model) : ∀ members : List Member,
    allBelow members = (holdingsBelow owner members).map (·.model)
  | [] => rfl
  | m :: rest => by
    rw [allBelow, holdingsBelow, List.map_append, allOf_eq_holdings owner m,
      allBelow_eq_holdings owner rest]

end

/-- A field of a model holds a model, and this one stands before the other among some models. -/
def Before (ms : List Model) (h : Holding) : Prop :=
  .node h.field h.model ∈ h.owner.members ∧ [h.model, h.owner].Sublist ms

theorem Before.mono {ms ms' : List Model} {h : Holding} (hb : Before ms h) (hsub : ms.Sublist ms') :
    Before ms' h :=
  ⟨hb.1, hb.2.trans hsub⟩

mutual

/-- A model is declared before the one with the field that holds it. -/
theorem before_of_mem_holdings : ∀ m : Model, ∀ h ∈ m.holdings, Before m.all h
  | mk name description? members => by
    intro h hh
    rw [all]
    rw [holdings] at hh
    rcases before_of_mem_holdingsBelow
      (mk name description? members) members h hh with ⟨howner, hmem, hall⟩ | hbefore
    · refine ⟨howner ▸ hmem, ?_⟩
      rw [howner]
      exact (List.singleton_sublist.mpr hall).append (List.Sublist.refl _)
    · exact hbefore.mono (List.sublist_append_left _ _)

theorem before_of_mem_holdingsOf (owner : Model) : ∀ member : Member, ∀ h ∈ holdingsOf owner member,
    h.owner = owner ∧ .node h.field h.model = member ∧ h.model ∈ allOf member ∨
    Before (allOf member) h
  | .leaf _ => nofun
  | .node a below => by
    intro h hh
    rw [allOf]
    rw [holdingsOf] at hh
    rcases List.mem_append.mp hh with hh | hh
    · exact .inr (before_of_mem_holdings below h hh)
    · obtain rfl := List.mem_singleton.mp hh
      refine .inl ⟨rfl, rfl, ?_⟩
      rw [all_eq_holdings]
      exact List.mem_append_right _ (List.mem_singleton_self _)

theorem before_of_mem_holdingsBelow (owner : Model) :
    ∀ members : List Member, ∀ h ∈ holdingsBelow owner members,
    h.owner = owner ∧ .node h.field h.model ∈ members ∧ h.model ∈ allBelow members ∨
    Before (allBelow members) h
  | [] => nofun
  | m :: rest => by
    intro h hh
    rw [allBelow]
    rw [holdingsBelow] at hh
    rcases List.mem_append.mp hh with hh | hh
    · rcases before_of_mem_holdingsOf owner m h hh with ⟨howner, hmem, hall⟩ | hbefore
      · exact .inl ⟨howner, hmem ▸ List.mem_cons_self, List.mem_append_left _ hall⟩
      · exact .inr (hbefore.mono (List.sublist_append_left _ _))
    · rcases before_of_mem_holdingsBelow owner rest h hh with ⟨howner, hmem, hall⟩ | hbefore
      · exact .inl ⟨howner, List.mem_cons_of_mem _ hmem, List.mem_append_right _ hall⟩
      · exact .inr (hbefore.mono (List.sublist_append_right _ _))

end

end Model

end Graphwright.Module

namespace Graphwright.Response

/-! ## Fields with others below them -/

mutual

/-- The fields with others below them, below a field and the field itself. -/
def compositesOf : Field → List Field
  | .mk _ _ none _ => []
  | .mk key type? (some fields) conditional =>
    composites fields ++ [.mk key type? (some fields) conditional]

/-- The fields of a response with others below them, those below a field before the field. -/
def composites : List Field → List Field
  | [] => []
  | f :: rest => compositesOf f ++ composites rest

end

end Graphwright.Response

namespace Graphwright.OperationTypes

open Graphwright.Document Graphwright.Module Graphwright.Types Graphwright.Response
open Naming.Allocator (Hands)

/-- A field with others below it has a type, and so has each of those. -/
structure Composed (f : Field) : Prop where
  type : f.children?.isSome → f.type?.isSome
  below : ∀ own, f.children? = some own → Typed own ∧ Distinct own

theorem composed_of_typed {fs : List Field} (ht : Typed fs) (hd : Distinct fs) :
    ∀ f ∈ fs, Composed f := by
  intro f hf
  refine ⟨ht [] f hf, fun own hown => ?_⟩
  have hkeys : (fs.map (·.name)).Nodup := hd []
  have hbelow : childrenAt f.name fs = own := by
    rw [childrenAt_of_mem hkeys hf, hown]
    rfl
  exact hbelow ▸ ⟨ht.childrenAt f.name, hd.childrenAt f.name⟩

/-- A model belongs to a field of a response: the field that holds it has the name of that one, and
the name of the model is innermost in its type. -/
structure Belongs (r : Registry) (f : Field) (h : Holding) : Prop where
  key : h.field.key = f.name
  innermost : ∃ outer : List String, (∀ n ∈ outer, n ∈ ["List", "Optional"]) ∧
    h.field.annotation.text r = Types.nested (outer ++ [h.model.name])

/-- The names around the innermost one are marks for lists and optional values. -/
theorem exists_outer (e : Expr) :
    ∃ outer : List String, (∀ n ∈ outer, n ∈ ["List", "Optional"]) ∧
    e.names = outer ++ [e.innermost] := by
  induction e with
  | name text => exact ⟨[], nofun, rfl⟩
  | list item ih =>
    obtain ⟨outer, houter, hnames⟩ := ih
    exact ⟨"List" :: outer, List.forall_mem_cons.mpr ⟨by decide, houter⟩,
      congrArg (listSymbol.1 :: ·) hnames⟩
  | optional inner ih =>
    obtain ⟨outer, houter, hnames⟩ := ih
    exact ⟨"Optional" :: outer, List.forall_mem_cons.mpr ⟨by decide, houter⟩,
      congrArg (optionalSymbol.1 :: ·) hnames⟩

section Belonging

variable {r : Registry}

/-- A field whose type is resolved to a model holds that model. -/
theorem belongs_attributeOf (hr : r.local optionalSymbol = optionalSymbol.1) (m : Mapper)
    (owner : Model) (key : String) (type : TypeRef) (fields : List Field) (conditional : Bool)
    (name : String) (members : List Member) :
    Belongs r (.mk key (some type) (some fields) conditional)
      ⟨owner, attributeOf key (some type) (m.resolve type (some ⟨name, []⟩)) conditional,
        .mk name none members⟩ := by
  obtain ⟨-, -, hinner⟩ := marks_resolve m type (some ⟨name, []⟩)
  obtain ⟨outer, houter, hnames⟩ := exists_outer (m.resolve type (some ⟨name, []⟩)).expr
  rw [hinner] at hnames
  refine ⟨rfl, ?_⟩
  simp only [attributeOf]
  split
  · refine ⟨"Optional" :: outer, List.forall_mem_cons.mpr ⟨by decide, houter⟩, ?_⟩
    rw [ Annotation.text_eq, Annotation.names, hnames, hr]
    exact congrArg nested (List.append_nil _)
  · refine ⟨outer, houter, ?_⟩
    rw [ Annotation.text_eq, Annotation.names, hnames]
    exact congrArg nested (List.append_nil _)

mutual

theorem belongs_memberOf (hr : r.local optionalSymbol = optionalSymbol.1) (m : Mapper)
    (owner : String) (holder : Model) : ∀ (f : Field) (a : Naming.Allocator), Composed f →
      List.Forall₂ (Belongs r) (compositesOf f)
        (Model.holdingsOf holder ((memberOf m owner f).run a).1)
  | .mk key (some type) (some fields) conditional, a, hf => by
    obtain ⟨htyped, hdistinct⟩ := hf.below fields rfl
    rw [run_memberOf_node, compositesOf, Model.holdingsOf, Model.holdings]
    refine List.rel_append ?_
      (.cons (belongs_attributeOf hr m holder key type fields conditional _ _) .nil)
    exact belongs_membersOf hr m _ _ fields _ (composed_of_typed htyped hdistinct)
  | .mk key none (some fields) conditional, a, hf => nomatch hf.type rfl
  | .mk key none none conditional, a, _ => by
    rw [run_memberOf_leaf _ _ _ _ (.inl rfl)]
    exact .nil
  | .mk key (some type) none conditional, a, _ => by
    rw [run_memberOf_leaf _ _ _ _ (.inr rfl)]
    exact .nil

/-- **Members.** The members for fields hold one model for each field with others below it. -/
theorem belongs_membersOf (hr : r.local optionalSymbol = optionalSymbol.1) (m : Mapper)
    (owner : String) (holder : Model) :
    ∀ (fs : List Field) (a : Naming.Allocator), (∀ f ∈ fs, Composed f) →
      List.Forall₂ (Belongs r) (composites fs)
        (Model.holdingsBelow holder ((membersOf m owner fs).run a).1)
  | [], a, _ => by
    rw [membersOf]
    exact .nil
  | f :: rest, a, hfs => by
    obtain ⟨hf, hrest⟩ := List.forall_mem_cons.mp hfs
    rw [run_membersOf_cons]
    exact List.rel_append (belongs_memberOf hr m owner holder f a hf)
      (belongs_membersOf hr m owner holder rest _ hrest)

end

theorem belongs_blockOf (hr : r.local optionalSymbol = optionalSymbol.1) (m : Mapper)
    (dedupe : Bool) {sh : Shape} (h : Typed sh.fields ∧ Distinct sh.fields) (a : Naming.Allocator) :
    List.Forall₂ (Belongs r) (composites sh.fields)
      ((blockOf m dedupe sh).run a).1.model.holdings := by
  cases sh <;> exact belongs_membersOf hr m _ _ _ a (composed_of_typed h.1 h.2)

end Belonging

/-! ## Blocks -/

/-- The texts of a block, one for each class or alias. -/
def Block.texts (r : Registry) (b : Block) : List String := b.declarations.flatMap (·.blocks r)

/-- The models of a block and the fields that it is made for. Its models below the last one belong
to the fields with others below them, one to each, and each of them is declared before the model
with the field that holds it. -/
structure Arranges (r : Registry) (fields : List Field) (b : Block) : Prop where
  belong : List.Forall₂ (Belongs r) (composites fields) b.model.holdings
  all : b.model.all = b.model.holdings.map (·.model) ++ [b.model]
  before : ∀ h ∈ b.model.holdings, .node h.field h.model ∈ h.owner.members ∧
    [h.model.text r, h.owner.text r].Sublist (b.texts r)

theorem arranges_of_belongs {r : Registry} {fields : List Field} {b : Block}
    (h : List.Forall₂ (Belongs r) (composites fields) b.model.holdings) : Arranges r fields b where
  belong := h
  all := b.model.all_eq_holdings
  before holding hholding := by
    obtain ⟨hmem, hsub⟩ := b.model.before_of_mem_holdings holding hholding
    refine ⟨hmem, (hsub.map (Model.text r)).trans ?_⟩
    have hblocks : b.model.all.map (Model.text r) =
        ([.model b.model] : List Declaration).flatMap (·.blocks r) :=
      (List.append_nil _).symm
    rw [Block.texts, Block.declarations, List.flatMap_append, hblocks]
    exact List.sublist_append_right _ _

/-- The blocks of shapes arrange the models of their fields. -/
theorem arranges_resultOf {s : Schema} {d : Document} {found : List Shape}
    (h : Shaped ⟨s, fragmentsOf d⟩ d.definitions found) (o : Options) :
    List.Forall₂ (fun sh b => Arranges (resultOf s d o found).imports sh.fields b) found
      (resultOf s d o found).blocks := by
  have hfields : ∀ sh ∈ found, Typed sh.fields ∧ Distinct sh.fields :=
    h.forall_fields (P := fun fields => Typed fields ∧ Distinct fields)
      fun hbelow => ⟨typed_merge hbelow, distinct_merge hbelow.orderly⟩
  have hlocal : (resultOf s d o found).imports.local optionalSymbol = optionalSymbol.1 :=
    local_resultOf s d o found (by decide)
  exact forall₂_run_mapM
    (fun sh hsh a => arranges_of_belongs (belongs_blockOf hlocal _ _ (hfields sh hsh) a)) _

def Block.heldNames (b : Block) : List String := b.model.holdings.map (·.model.name)

theorem Block.heldNames_eq (b : Block) : b.heldNames = namesBelow b.model.members := by
  obtain ⟨variables?, name, description?, members⟩ := b
  rw [heldNames, Model.holdings, namesBelow, Model.members,
    Model.allBelow_eq_holdings (.mk name description? members) members, List.map_map]
  rfl

/-- The models that fields hold have different names, none of which a definition takes. -/
theorem heldNames_resultOf (s : Schema) (d : Document) (o : Options) (found : List Shape) :
    ((resultOf s d o found).blocks.flatMap (·.heldNames)).Nodup ∧
      ∀ n ∈ (resultOf s d o found).blocks.flatMap (·.heldNames),
        n ∉ reservedNames o.dedupeSuffix d := by
  have hands := hands_mapM_blockOf (startOf s o).1 o.dedupeSuffix found
    (.reserveAll {} (reservedNames o.dedupeSuffix d))
  simp only [← Block.heldNames_eq] at hands
  exact ⟨hands.nodup, hands.not_mem_of_reserved⟩

end Graphwright.OperationTypes
