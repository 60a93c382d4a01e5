import Graphwright.Proofs.Module.Order
import Graphwright.Proofs.Schema.Declared
import Mathlib.Logic.Relation

/-!
# Declarations and the types they stand for

A module of schema types has a fragment for each type of the schema that is no scalar, in order, and
no other. `Declares` describes the fragment of a type line by line: a class has a member for each
field or value of the type, in order, and a union lists its members.

* `declares_declare`: the declaration of a type stands for the type.
* `part_mirrors`: the fragments stand for the types of the schema one by one, and arguments of
  fields and of directives leave no trace in the module.
-/
namespace Graphwright.SchemaTypes

open Graphwright.Document Graphwright.Module Graphwright.Types

/-! ## Members of classes -/

/-- What a field is set to: its default, and the name it has outside the module if that is another
one. -/
def assigned (r : Registry) (key : String) (default? : Option String) : String :=
  if Naming.safeIdentifier key = key then (default?.map (" = " ++ ·)).getD ""
  else
    " = " ++ r.local fieldSymbol ++ "(" ++ (default?.map ("default=" ++ · ++ ", ")).getD "" ++
      "alias=\"" ++ key ++ "\")"

/-- The default of a field; one that may be null defaults to nothing. -/
def usualDefault (type : TypeRef) (default? : Option String) : Option String :=
  default?.or (if type.isNonNull then none else some "None")

/-- The lines of a member of a class: the one that defines it, and its documentation. -/
inductive IsMember (line : String) (description? : Option Description) : List String → Prop
  | mk {doc : List String} : docstring? (description?.map (·.text)) indentation = some doc →
      IsMember line description? ((indentation ++ line) :: doc)

/-- The member for a field with some name, type and default. -/
def IsField (r : Registry) (m : Mapper) (key : String) (type : TypeRef) (default? : Option String) :
    Option Description → List String → Prop :=
  IsMember (Naming.safeIdentifier key ++ ": " ++ (m.resolve type).text ++
    assigned r key (usualDefault type default?))

/-- The line of the field for the name of an object's type. -/
def typenameLine (r : Registry) (typeName : String) : String :=
  indentation ++ "typename__: " ++ r.local literalSymbol ++ "[\"" ++ typeName ++ "\"] = " ++
    r.local fieldSymbol ++ "(default=\"" ++ typeName ++ "\", alias=\"__typename\")"

/-- The members of the class of a type that has fields: one for each of them, in order. Objects have
one for the name of their type in front, unless it is skipped. -/
inductive Members (r : Registry) (m : Mapper) (skipTypename : Bool) (t : TypeDefinition) :
    List (List String) → Prop
  | object {parents : List String} {fields : List FieldDefinition} {members : List (List String)} :
      t.body = .object parents fields →
      List.Forall₂ (fun f => IsField r m f.name f.type none f.description?) fields members →
      Members r m skipTypename t
      ((if skipTypename then [] else [[typenameLine r t.name]]) ++ members)
  | interface {parents : List String} {fields : List FieldDefinition}
      {members : List (List String)} :
      t.body = .interface parents fields →
      List.Forall₂ (fun f => IsField r m f.name f.type none f.description?) fields members →
      Members r m skipTypename t members
  | input {fields : List InputValue} {members : List (List String)} :
      t.body = .input fields →
      List.Forall₂ (fun v lines => ∃ default?, defaultOf v = .ok default? ∧
        IsField r m v.name v.type default? v.description? lines) fields members →
      Members r m skipTypename t members

/-- The setting by which fields may be given under the names they have outside. -/
def settingsLine (r : Registry) : String :=
  indentation ++ "model_config = " ++ r.local settingsSymbol ++ "(populate_by_name=True)"

/-- The text that declares a type: a class with a member for each field, or for each value of an
enum, or the union of other classes. -/
inductive Declares (r : Registry) (m : Mapper) (skipTypename : Bool) (t : TypeDefinition) :
    String → Prop
  | model {doc settings : List String} {members : List (List String)} :
      docstring? (t.description?.map (·.text)) indentation = some doc →
      settings = [] ∨ settings = [settingsLine r] →
      Members r m skipTypename t members →
      Declares r m skipTypename t
      (classText ("class " ++ Naming.className t.name ++ "(" ++ r.local modelSymbol ++ "):")
        [doc, settings, members.flatten])
  | enum {values : List EnumValue} {doc : List String} {members : List (List String)} :
      t.body = .enum values →
      docstring? (t.description?.map (·.text)) indentation = some doc →
      List.Forall₂ (fun v =>
        IsMember (Naming.safeIdentifier v.name ++ " = \"" ++ v.name ++ "\"") v.description?)
        values members →
      Declares r m skipTypename t
        (classText ("class " ++ Naming.className t.name ++ "(str, " ++ r.local enumSymbol ++ "):")
          [doc, members.flatten])
  | union {names comment : List String} :
      t.body = .union names →
      Declares r m skipTypename t ("\n".intercalate (comment ++
        [Naming.className t.name ++ " = " ++ r.local unionSymbol ++ "[" ++
          ", ".intercalate (names.map ("\"" ++ Naming.className · ++ "\"")) ++ "]"]))

/-! ## Fields and their documentation -/

/-- **Outcome.** A description is shown as it is if it has lines to show. -/
theorem describe_ok {d? : Option Description} {text? : Option String} : describe d? = .ok text? ↔
    text? = d?.map (·.text) ∧ (docstring? (d?.map (·.text)) indentation).isSome := by
  unfold describe
  dsimp only
  split <;> grind

theorem isMember_lines {d? : Option Description} {line : String}
    (h : (docstring? (d?.map (·.text)) indentation).isSome) :
    IsMember line d? ((indentation ++ line) :: docLines (d?.map (·.text)) indentation) := by
  obtain ⟨doc, hdoc⟩ := Option.isSome_iff_exists.mp h
  rw [docLines, hdoc]
  exact .mk hdoc

theorem text_attributeOf (r : Registry) (m : Mapper) (key : String) (type : TypeRef)
    (default? description? : Option String) :
    Attribute.text r { attributeOf m key type default? with description? } =
      Naming.safeIdentifier key ++ ": " ++ (m.resolve type).text ++
        assigned r key (usualDefault type default?) := by
  unfold Attribute.text Attribute.isRenamed assigned
  by_cases h : Naming.safeIdentifier key = key
  · simp only [attributeOf, h, usualDefault]
    cases default?.or (if type.isNonNull then none else some "None") <;>
      simp [ Annotation.text, String.append_assoc]
  · have hne : (Naming.safeIdentifier key != key) = true := by simpa using h
    simp only [attributeOf, hne, h, usualDefault]
    cases default?.or (if type.isNonNull then none else some "None") <;>
      simp [ Annotation.text, String.append_assoc]

def linesOf (r : Registry) (a : Attribute) : List String :=
  (indentation ++ a.text r) :: docLines a.description? indentation

theorem isField_linesOf {r : Registry} {m : Mapper} {key : String} {type : TypeRef}
    {default? : Option String} {d? : Option Description} {description? : Option String}
    (h : describe d? = .ok description?) :
    IsField r m key type default? d?
      (linesOf r { attributeOf m key type default? with description? }) := by
  obtain ⟨rfl, hdoc⟩ := describe_ok.mp h
  rw [linesOf, text_attributeOf]
  exact isMember_lines hdoc

/-- The fields of a type, made one by one and then documented, are members. -/
theorem members_fields {α : Type} {r : Registry} {f : α → Checked (Attribute × Option Description)}
    {R : α → List String → Prop} {xs : List α} {fields : List (Attribute × Option Description)}
    {described : List Attribute} (hf : xs.mapM f = .ok fields)
    (hdescribed : fields.mapM (fun (a, d?) => return { a with description? := ← describe d? }) =
      Except.ok (ε := Error) described)
    (hR : ∀ x a d? description?, f x = .ok (a, d?) → describe d? = .ok description? →
      R x (linesOf r { a with description? })) : List.Forall₂ R xs (described.map (linesOf r)) := by
  induction xs generalizing fields described with
  | nil =>
    cases hf
    cases hdescribed
    exact .nil
  | cons x rest ih =>
    obtain ⟨⟨a, d?⟩, more, hx, hmore, rfl⟩ := mapM_cons_eq_ok.mp hf
    obtain ⟨_, others, ha, hothers, rfl⟩ := mapM_cons_eq_ok.mp hdescribed
    obtain ⟨description?, hd, ha⟩ := bind_eq_ok.mp ha
    rw [← pure_eq_ok.mp ha]
    exact .cons (hR x a d? description? hx hd) (ih hmore hothers)

/-- The values of an enum, documented one by one, are members. -/
theorem members_choices {values : List EnumValue} {choices : List Choice}
    (h : values.mapM (fun v => return ({ key := v.name, name := Naming.safeIdentifier v.name
                                         description? := ← describe v.description? } : Choice)) =
      Except.ok (ε := Error) choices) :
    List.Forall₂ (fun v =>
      IsMember (Naming.safeIdentifier v.name ++ " = \"" ++ v.name ++ "\"") v.description?) values
      (choices.map fun c => (indentation ++ c.name ++ " = \"" ++ c.key ++ "\"") ::
        docLines c.description? indentation) := by
  induction values generalizing choices with
  | nil =>
    cases h
    exact .nil
  | cons v rest ih =>
    obtain ⟨c, more, hc, hmore, rfl⟩ := mapM_cons_eq_ok.mp h
    obtain ⟨description?, hd, hc⟩ := bind_eq_ok.mp hc
    obtain ⟨rfl, hdoc⟩ := describe_ok.mp hd
    rw [← pure_eq_ok.mp hc, List.map_cons]
    simp only [String.append_assoc] at ih ⊢
    exact .cons (isMember_lines hdoc) (ih hmore)

theorem linesOf_typenameAttribute (r : Registry) (typeName : String) :
    linesOf r (typenameAttribute typeName) = [typenameLine r typeName] := by
  have hrenamed : (typenameAttribute typeName).isRenamed = true := by
    rw [Attribute.isRenamed, typenameAttribute]
    simp
  have hopening (rest : String) :
      "(default=\"" ++ rest = "(" ++ ("default=" ++ ("\"" ++ rest)) := by
    rw [← String.append_assoc, ← String.append_assoc]
    rfl
  rw [linesOf, Attribute.text, hrenamed, typenameLine]
  simp [typenameAttribute, Annotation.text, docLines, docstring?, String.append_assoc, hopening]

/-! ## Declarations -/

theorem declares_modelOf {r : Registry} {m : Mapper} {skipTypename : Bool} {t : TypeDefinition}
    {typename? : Option Attribute} {fields : List (Attribute × Option Description)} {x : Declared}
    (h : modelOf t typename? fields = .ok x)
    (hmembers : ∀ described : List Attribute,
      fields.mapM (fun (a, d?) => return { a with description? := ← describe d? }) =
        Except.ok (ε := Error) described →
      Members r m skipTypename t ((typename?.toList ++ described).map (linesOf r))) :
    ∃ text, x.declaration.blocks r = [text] ∧ Declares r m skipTypename t text := by
  unfold modelOf at h
  obtain ⟨description?, hdescription, h⟩ := bind_eq_ok.mp h
  obtain ⟨described, hdescribed, h⟩ := bind_eq_ok.mp h
  obtain rfl := pure_eq_ok.mp h
  obtain ⟨rfl, hdoc⟩ := describe_ok.mp hdescription
  obtain ⟨doc, hdoc⟩ := Option.isSome_iff_exists.mp hdoc
  have hall : (Model.mk (Naming.className t.name) (t.description?.map (·.text))
      ((typename?.toList ++ described).map .leaf)).all =
        [.mk (Naming.className t.name) (t.description?.map (·.text))
        ((typename?.toList ++ described).map .leaf)] := by
    rw [Model.all, allBelow_leaves, List.nil_append]
  refine ⟨_, by rw [Declaration.blocks, hall, List.map_singleton], ?_⟩
  rw [Model.text, docLines, hdoc, List.map_map]
  have hfields : Member.field ∘ Member.leaf = id := rfl
  rw [hfields, List.map_id, List.flatMap_def]
  refine .model hdoc ?_ (hmembers described hdescribed)
  split
  · exact .inr rfl
  · exact .inl rfl

/-- One text that stands for a type that is no scalar. -/
theorem forall₂_declares {r : Registry} {m : Mapper} {skipTypename : Bool} {t : TypeDefinition}
    {x : Declared} (hbody : Schema.isScalar t = false)
    (h : ∃ text, x.declaration.blocks r = [text] ∧ Declares r m skipTypename t text) :
    List.Forall₂ (Declares r m skipTypename) ([t].filter (!Schema.isScalar ·))
      ((some x).toList.flatMap (·.declaration.blocks r)) := by
  obtain ⟨text, htext, hdeclares⟩ := h
  rw [Option.toList_some, List.flatMap_singleton, htext,
    List.filter_cons_of_pos (by simpa using hbody)]
  exact .cons hdeclares .nil

theorem isField_attributeOf {r : Registry} {m : Mapper} {f : FieldDefinition} {a : Attribute}
    {d? : Option Description} {description? : Option String}
    (h : (f.arguments.mapM defaultOf >>= fun _ =>
      Except.ok (attributeOf m f.name f.type none, f.description?)) = .ok (a, d?))
    (hd : describe d? = .ok description?) :
    IsField r m f.name f.type none f.description? (linesOf r { a with description? }) := by
  obtain ⟨_, -, h⟩ := bind_eq_ok.mp h
  cases h
  exact isField_linesOf hd

/-- **Mirror.** The declaration of a type stands for the type; scalars have none. -/
theorem declares_declare (r : Registry) {m : Mapper} {skipTypename : Bool} {t : TypeDefinition}
    {x? : Option Declared} (h : declare m skipTypename t = .ok x?) :
    List.Forall₂ (Declares r m skipTypename) ([t].filter (!Schema.isScalar ·))
      (x?.toList.flatMap (·.declaration.blocks r)) := by
  cases declaring_of_ok h with
  | scalar hb =>
    rw [List.filter_cons_of_neg (by simp [Schema.isScalar, hb])]
    exact .nil
  | object hb hfound hx =>
    refine forall₂_declares (by simp [Schema.isScalar, hb])
      (declares_modelOf hx fun described hdescribed => ?_)
    have hmembers := members_fields (r := r) hfound hdescribed fun _ _ _ _ => isField_attributeOf
    have hobject : Members r m skipTypename t _ := .object hb hmembers
    cases skipTypename with
    | true => exact hobject
    | false =>
      rw [List.map_append]
      simpa [linesOf_typenameAttribute] using hobject
  | interface hb hfound hx =>
    refine forall₂_declares (by simp [Schema.isScalar, hb])
      (declares_modelOf hx fun described hdescribed => ?_)
    exact .interface hb (members_fields hfound hdescribed fun _ _ _ _ => isField_attributeOf)
  | input hb hfound hx =>
    refine forall₂_declares (by simp [Schema.isScalar, hb])
      (declares_modelOf hx fun described hdescribed => ?_)
    refine .input hb (members_fields hfound hdescribed fun v a d? description? ha hd => ?_)
    obtain ⟨default?, hdefault, ha⟩ := bind_eq_ok.mp ha
    cases ha
    exact ⟨default?, hdefault, isField_linesOf hd⟩
  | enum hb hchoices hdescription =>
    obtain ⟨rfl, hdoc⟩ := describe_ok.mp hdescription
    obtain ⟨doc, hdoc⟩ := Option.isSome_iff_exists.mp hdoc
    refine forall₂_declares (by simp [Schema.isScalar, hb]) ⟨_, rfl, ?_⟩
    rw [docLines, hdoc, List.flatMap_def]
    exact .enum hb hdoc (members_choices hchoices)
  | union hb =>
    refine forall₂_declares (by simp [Schema.isScalar, hb]) ⟨_, rfl, ?_⟩
    rw [List.map_map]
    exact .union hb

/-- The declarations of some types stand for the types one by one. -/
theorem declares_mapM (r : Registry) {m : Mapper} {skipTypename : Bool} {ts : List TypeDefinition}
    {xs : List (Option Declared)} (h : ts.mapM (declare m skipTypename) = .ok xs) :
    List.Forall₂ (Declares r m skipTypename) (ts.filter (!Schema.isScalar ·))
      ((xs.filterMap id).flatMap (·.declaration.blocks r)) :=
  forall₂_mapM_declare (fun _ _ => declares_declare r) h

theorem Declares.ne_empty {r : Registry} {m : Mapper} {skipTypename : Bool} {t : TypeDefinition}
    {text : String} (h : Declares r m skipTypename t text) : text ≠ "" := by
  cases h with
  | model _ _ _ | enum _ _ _ =>
    exact Holds.ne_empty (Holds.intercalate List.mem_cons_self "\n") (by simp)
  | union _ =>
    exact Holds.ne_empty
      (Holds.intercalate (List.mem_append_right _ (List.mem_singleton_self _)) "\n") (by simp)

theorem nonempty_of_declares {r : Registry} {m : Mapper} {skipTypename : Bool}
    {ts : List TypeDefinition} {texts : List String}
    (h : List.Forall₂ (Declares r m skipTypename) ts texts) : nonempty texts = texts := by
  induction h with
  | nil => rfl
  | cons ht _ ih =>
    rw [nonempty, List.filter_cons_of_pos (by simpa using ht.ne_empty)]
    exact congrArg _ ih

/-! ## Arguments -/

/-- A type without the arguments of its fields. -/
def bare (t : TypeDefinition) : TypeDefinition :=
  match t.body with
  | .object parents fields =>
    { t with body := .object parents (fields.map fun f => { f with arguments := [] }) }
  | .interface parents fields =>
    { t with body := .interface parents (fields.map fun f => { f with arguments := [] }) }
  | _ => t

/-- Two schemas have the same types but for the arguments of fields, and the same standard types but
for scalars, which arguments may bring into use. Directives do not matter at all. -/
structure SameButArguments (s s' : Schema) : Prop where
  types : s.types.map bare = s'.types.map bare
  standard : ∀ name, (s.standard.find? (·.name == name)).filter (!Schema.isScalar ·) =
    (s'.standard.find? (·.name == name)).filter (!Schema.isScalar ·)

theorem name_bare (t : TypeDefinition) : (bare t).name = t.name := by
  unfold bare
  split <;> rfl

theorem isScalar_bare (t : TypeDefinition) : Schema.isScalar (bare t) = Schema.isScalar t := by
  unfold bare
  split <;> simp_all [Schema.isScalar]

/-- A name stands for a type that is no scalar in both schemas or in none. -/
theorem SameButArguments.any_type? {s s' : Schema} (h : SameButArguments s s') (name : String) :
    (s.type? name).any (!Schema.isScalar ·) = (s'.type? name).any (!Schema.isScalar ·) := by
  have hfind (ts : List TypeDefinition) :
      (ts.map bare).find? (·.name == name) = (ts.find? (·.name == name)).map bare := by
    rw [List.find?_map]
    simp only [Function.comp_def, name_bare]
  have htypes := congrArg (List.find? (·.name == name)) h.types
  rw [hfind, hfind] at htypes
  have hstandard := h.standard name
  unfold Schema.type?
  cases hs : s.types.find? (·.name == name) with
  | some t =>
    cases hs' : s'.types.find? (·.name == name) with
    | some t' =>
      simp only [hs, hs', Option.map_some, Option.some.injEq] at htypes
      simp [← isScalar_bare t, htypes, isScalar_bare t']
    | none => simp [hs, hs'] at htypes
  | none =>
    cases hs' : s'.types.find? (·.name == name) with
    | some t' => simp [hs, hs'] at htypes
    | none => simpa using congrArg Option.isSome hstandard

theorem SameButArguments.resolve {s s' : Schema} (h : SameButArguments s s') (o : Options)
    (ref : TypeRef) : (mapperOf s o).resolve ref = (mapperOf s' o).resolve ref := by
  have hany := h.any_type? ref.base
  have hnamed : (mapperOf s o).named ref.base = (mapperOf s' o).named ref.base := by
    unfold Mapper.named mapperOf
    simp only [List.lookup_nil, Option.bind_some]
    cases ht : s.type? ref.base <;> cases ht' : s'.type? ref.base <;> simp [ht, ht'] at hany ⊢ <;>
      simp [hany]
  rw [Mapper.resolve, Mapper.resolve, Option.getD_none, Option.getD_none, hnamed]

theorem SameButArguments.attributeOf_eq {s s' : Schema} (h : SameButArguments s s') (o : Options) :
    attributeOf (mapperOf s o) = attributeOf (mapperOf s' o) := by
  funext name type default?
  rw [attributeOf, attributeOf, h.resolve]

theorem fieldAttributes_bare {m m' : Mapper} (hm : attributeOf m = attributeOf m')
    {fields : List FieldDefinition} {attributes : List (Attribute × Option Description)}
    (h : fieldAttributes m fields = .ok attributes) :
    fieldAttributes m' (fields.map fun f => { f with arguments := [] }) = .ok attributes := by
  unfold fieldAttributes at h ⊢
  induction fields generalizing attributes with
  | nil => exact h
  | cons f rest ih =>
    obtain ⟨a, more, ha, hmore, rfl⟩ := mapM_cons_eq_ok.mp h
    obtain ⟨_, -, ha⟩ := bind_eq_ok.mp ha
    refine mapM_cons_eq_ok.mpr ⟨a, more, ?_, ih hmore, rfl⟩
    rw [← pure_eq_ok.mp ha, hm]
    rfl

/-- A type is declared as without the arguments of its fields. -/
theorem declare_bare {m m' : Mapper} (hm : attributeOf m = attributeOf m') {skipTypename : Bool}
    {t : TypeDefinition} {x? : Option Declared} (h : declare m skipTypename t = .ok x?) :
    declare m' skipTypename (bare t) = .ok x? := by
  unfold declare at h
  unfold bare
  cases hb : t.body with
  | scalar | enum _ | union _ =>
    rw [hb] at h
    unfold declare
    rw [hb]
    exact h
  | input _ =>
    rw [hb] at h
    unfold declare
    rw [hb, ← hm]
    exact h
  | object parents fields | interface parents fields =>
    rw [hb] at h
    obtain ⟨attributes, ha, h⟩ := bind_eq_ok.mp h
    exact bind_eq_ok.mpr ⟨attributes, fieldAttributes_bare hm ha, h⟩

theorem mapM_declare_bare {m m' : Mapper} (hm : attributeOf m = attributeOf m')
    {skipTypename : Bool} {ts : List TypeDefinition} {xs : List (Option Declared)}
    (h : ts.mapM (declare m skipTypename) = .ok xs) :
    (ts.map bare).mapM (declare m' skipTypename) = .ok xs := by
  induction ts generalizing xs with
  | nil =>
    cases h
    rfl
  | cons t rest ih =>
    obtain ⟨x?, more, hx, hmore, rfl⟩ := mapM_cons_eq_ok.mp h
    exact mapM_cons_eq_ok.mpr ⟨x?, more, declare_bare hm hx, ih hmore, rfl⟩

/-- The types of two schemas that differ in arguments only have the same declarations. -/
theorem SameButArguments.declared {s s' : Schema} (h : SameButArguments s s') {o : Options}
    {xs xs' : List (Option Declared)}
    (hxs : s.types.mapM (declare (mapperOf s o) o.skipTypename) = .ok xs)
    (hxs' : s'.types.mapM (declare (mapperOf s' o) o.skipTypename) = .ok xs') : xs = xs' := by
  have hsame := mapM_declare_bare (h.attributeOf_eq o) hxs
  rw [h.types, mapM_declare_bare rfl hxs'] at hsame
  exact (Except.ok.inj hsame).symm

/-! ## Standard types -/

theorem name_extendType (t : TypeDefinition) (extension : TypeBody) :
    (Schema.extendType t extension).name = t.name := by
  unfold Schema.extendType
  split <;> rfl

theorem not_mem_standardNames_of_mem_mergedTypes {d : Document} {t : TypeDefinition}
    (h : t ∈ Schema.mergedTypes d) : t.name ∉ Schema.standardNames := by
  have hname (t : TypeDefinition) (extensions : List TypeBody) :
      (extensions.foldl Schema.extendType t).name = t.name := by
    induction extensions generalizing t with
    | nil => rfl
    | cons extension rest ih => rw [List.foldl_cons, ih, name_extendType]
  obtain ⟨x, -, ht⟩ := List.mem_filterMap.mp h
  split at ht
  · split at ht
    · cases ht
    · rename_i hstandard
      rw [← Option.some.inj ht, hname]
      simpa using hstandard
  · cases ht

/-- A schema that can be built is that of the document. -/
theorem eq_ofDocument_of_build {d : Document} {s : Schema} (h : Schema.build d = .ok s) :
    s = Schema.ofDocument d := by
  unfold Schema.build at h
  dsimp only at h
  split at h
  · obtain ⟨_, -, h⟩ := bind_eq_ok.mp h
    obtain ⟨_, -, h⟩ := bind_eq_ok.mp h
    exact (pure_eq_ok.mp h).symm
  · cases h

/-- The types that a document defines are those of its schema that are not called like standard
ones. -/
theorem defined_build {d : Document} {s : Schema} (h : Schema.build d = .ok s) :
    (s.types ++ s.standard).filter (·.name ∉ Schema.standardNames) = s.types := by
  rw [eq_ofDocument_of_build h, List.filter_append]
  have htypes : (Schema.ofDocument d).types.filter (·.name ∉ Schema.standardNames) =
      (Schema.ofDocument d).types :=
    List.filter_eq_self.mpr fun t ht => by simpa using not_mem_standardNames_of_mem_mergedTypes ht
  have hstandard : (Schema.ofDocument d).standard.filter (·.name ∉ Schema.standardNames) = [] := by
    refine List.filter_eq_nil_iff.mpr fun t ht => ?_
    unfold Schema.ofDocument Schema.standardInUse at ht
    dsimp only at ht
    have hname : t.name ∈ Schema.standardNames := List.mem_map_of_mem (List.mem_of_mem_filter ht)
    simpa using hname
  rw [htypes, hstandard, List.append_nil]

/-! ## The part of a module -/

/-- **Mirror.** Whenever the types of a schema are declared, there is one fragment for each type
that is no scalar, in order, and no other. A class has a member for each field, input field or value
of its type, in order; the class of an object has one for the name of the type in front, unless it
is skipped. Arguments of fields and of directives leave no trace: a schema that differs in them only
has the same part. If the schema is that of a document, its types are all but the standard ones that
belong to it. -/
theorem part_mirrors {s : Schema} {o : Options} {path : String} {p : Part}
    (h : part s o path = .ok p) :
    List.Forall₂ (Declares p.imports (mapperOf s o) o.skipTypename)
      (s.types.filter (!Schema.isScalar ·)) p.body ∧
      bodySections p.body p.wrap? = p.body ∧
      (∀ s' p', SameButArguments s s' → part s' o path = .ok p' → p' = p) ∧
      ∀ d, Schema.build d = .ok s →
      s.types = (s.types ++ s.standard).filter (·.name ∉ Schema.standardNames) := by
  obtain ⟨package, r, hpackage, hr, rfl⟩ := part_ok.mp h
  obtain ⟨-, -, xs, hxs, rfl⟩ := generate_ok.mp hr
  have hbody : (partOf package (resultOf o (xs.filterMap id))).body =
      (xs.filterMap id).flatMap (·.declaration.blocks (resultOf o (xs.filterMap id)).imports) :=
    List.flatMap_map ..
  have hdeclares := declares_mapM (resultOf o (xs.filterMap id)).imports hxs
  rw [hbody]
  refine ⟨hdeclares, ?_, fun s' p' hs' hp' => ?_, fun d hd => (defined_build hd).symm⟩
  · exact nonempty_of_declares hdeclares
  · obtain ⟨_, _, hpackage', hr', rfl⟩ := part_ok.mp hp'
    obtain ⟨-, -, xs', hxs', rfl⟩ := generate_ok.mp hr'
    rw [hs'.declared hxs hxs']
    cases hpackage.symm.trans hpackage'
    rfl

/-- A type of each kind that is declared, and a field with some arguments. -/
def petDocument (arguments : List InputValue) : Document := ⟨[
  .type false { name := "Kind", body := .enum [{ name := "CAT" }, { name := "None" }] },
  .type false {
    name := "Pet", body := .interface [] [{ name := "id", type := .nonNull (.named "ID") }] },
  .type false { name := "Date", body := .scalar },
  .type false {
    name := "Query", body := .object [] [{ name := "pet", type := .named "Pet", arguments }] },
  .type false {
    name := "Wish"
    body := .input [{ name := "kind", type := .named "Kind", default? := some (.enum "CAT") }] },
  .type false { name := "Any", body := .union ["Query"] }]⟩

theorem part_mirrors_pets :
    let s := Schema.ofDocument (petDocument [{ name := "id", type := .named "ID" }])
    let s' := Schema.ofDocument (petDocument [])
    ∃ p, part s {} "types.py" = .ok p ∧ part s' {} "types.py" = .ok p ∧
      List.Forall₂ (Declares p.imports (mapperOf s {}) false)
      (s.types.filter (!Schema.isScalar ·)) p.body ∧
      bodySections p.body p.wrap? = p.body ∧
      (s.types.filter (!Schema.isScalar ·)).map (·.name) = ["Kind", "Pet", "Query", "Wish", "Any"] ∧
      s.types = (s.types ++ s.standard).filter (·.name ∉ Schema.standardNames) := by
  intro s s'
  have hok : (part s {} "types.py").toOption.isSome := by decide +kernel
  have hok' : (part s' {} "types.py").toOption.isSome := by decide +kernel
  obtain ⟨p, hp⟩ := exists_ok_of_isSome hok
  obtain ⟨p', hp'⟩ := exists_ok_of_isSome hok'
  obtain ⟨hbody, hsections, hsame, hdefined⟩ := part_mirrors hp
  have halike : SameButArguments s s' := ⟨rfl, fun _ => rfl⟩
  have hbuild : Schema.build (petDocument [{ name := "id", type := .named "ID" }]) = .ok s := by rfl
  obtain rfl := hsame s' p' halike hp'
  exact ⟨p', hp, hp', hbody, hsections, by decide, hdefined _ hbuild⟩

end Graphwright.SchemaTypes
