import Graphwright.Proofs.Naming.Escapes
import Graphwright.Proofs.Resolver.Protocols
import Graphwright.Proofs.Schema.Unique
import Graphwright.Proofs.Totality

/-!
# Parameters of resolver methods

A method has the parameters that its signature spells out, by the names in front of their types.
Those of the method for a field are the three that every such method has and one for each argument
of the field, keywords escaped (`hasParameters_of_resolves`).

The arguments of a field have different names, but that is not enough: `self`, `parent` and `info`
are names that an argument may have, and an argument may be called like another one's escape. There
is no other way in which two parameters of a method get one name (`parameters_distinct`).
-/
namespace Graphwright.Resolver

open Graphwright.Document Graphwright.Module Graphwright.Types

/-! ## Signatures -/

/-- The name of a parameter is what stands in front of its type. -/
def parameterName (text : String) : String := Text.onChars (List.takeWhile (· ≠ ':')) text

/-- The lines of a method whose parameters have these names; the mark behind which parameters are
given by keyword is none of them. -/
def HasParameters (names lines : List String) : Prop :=
  ∃ keyword name parameters result doc isFailing,
    IsMethod keyword name parameters result doc isFailing lines ∧
    (parameters.filter (· ≠ "*")).map parameterName = names

def fixedParameters : List String := ["self", "parent", "info"]

/-- Parameters of the method for a field: those of every method, and the arguments. -/
def parameterScope (f : FieldDefinition) : Naming.Scope where
  own := fixedParameters
  words := Naming.keywords
  names := f.arguments.map (·.name)

def parameterNames (f : FieldDefinition) : List String := (parameterScope f).identifiers

/-- The parameters of a method that tells the type of an object. -/
def resolveTypeNames : List String := ["self", "obj", "info", "abstract_type"]

/-- The parameters of the methods for a type, method by method. -/
def methodParameters (t : TypeDefinition) : List (List String) :=
  match t.body with
  | .object _ fields => fields.map parameterNames
  | .interface _ fields => resolveTypeNames :: fields.map parameterNames
  | .union _ => [resolveTypeNames]
  | _ => []

/-- The class of a type, whose methods have the parameters that belong to it. -/
def Signs (t : TypeDefinition) (text : String) : Prop :=
  ∃ (doc : List String) (methods : List (List String)),
    text = "\n".intercalate
      (("class " ++ Naming.className t.name ++ "(Protocol):") :: doc ++ methods.flatMap ("" :: ·)) ∧
    List.Forall₂ HasParameters (methodParameters t) methods

/-! ## Names of parameters -/

/-- A parameter with its type has the name in front of that, and is no mark. -/
theorem parameter_spec {name : String} (h : ':' ∉ name.toList) (type : String) :
    name ++ ": " ++ type ≠ "*" ∧ parameterName (name ++ ": " ++ type) = name := by
  have hchars : (name ++ ": " ++ type).toList = name.toList ++ ':' :: ' ' :: type.toList := by
    simp [String.toList_append]
  constructor
  · intro hmark
    have hcolon : ':' ∈ (name ++ ": " ++ type).toList := by simp [hchars]
    rw [hmark] at hcolon
    exact absurd hcolon (by decide)
  · have hfront : ∀ c ∈ name.toList, decide (c ≠ ':') = true :=
      fun c hc => decide_eq_true fun heq => h (heq ▸ hc)
    rw [parameterName, Text.onChars, hchars, List.takeWhile_append_of_pos hfront,
      List.takeWhile_cons_of_neg (by simp), List.append_nil, String.ofList_toList]

theorem colon_not_mem_safeIdentifier {name : String} (h : IsName name) :
    ':' ∉ (Naming.safeIdentifier name).toList := by
  have hname : ':' ∉ name.toList := by
    obtain ⟨c, cs, hchars, hc, hcs⟩ := h
    rw [hchars, List.mem_cons]
    rintro (rfl | hmem)
    · exact absurd hc (by decide)
    · exact absurd (hcs _ hmem) (by decide)
  unfold Naming.safeIdentifier
  split
  · rw [String.toList_append, List.mem_append]
    exact fun hmem => hmem.elim hname (by decide)
  · exact hname

theorem Takes.parameter {m : Mapper} {a : InputValue} {text : String} (h : Takes m a text)
    (ha : IsName a.name) : text ≠ "*" ∧ parameterName text = Naming.safeIdentifier a.name := by
  obtain ⟨type, rfl⟩ : ∃ type, text = Naming.safeIdentifier a.name ++ ": " ++ type := by
    cases h with
    | optional => exact ⟨_, String.append_assoc ..⟩
    | required => exact ⟨_, rfl⟩
  exact parameter_spec (colon_not_mem_safeIdentifier ha) type

theorem names_of_takes {m : Mapper} {as : List InputValue} {texts : List String}
    (h : List.Forall₂ (Takes m) as texts) (has : ∀ a ∈ as, IsName a.name) :
    (texts.filter (· ≠ "*")).map parameterName = as.map fun a => Naming.safeIdentifier a.name := by
  induction h with
  | nil => rfl
  | cons htext _ ih =>
    obtain ⟨ha, hrest⟩ := List.forall_mem_cons.mp has
    obtain ⟨hmark, hname⟩ := htext.parameter ha
    rw [List.filter_cons_of_pos (by simpa using hmark), List.map_cons, hname, ih hrest,
      List.map_cons]

theorem names_parametersOf (parent : String) (texts : List String) :
    ((parametersOf parent texts).filter (· ≠ "*")).map parameterName =
      fixedParameters ++ (texts.filter (· ≠ "*")).map parameterName := by
  obtain ⟨hmark, hparent⟩ : "parent: " ++ parent ≠ "*" ∧
      parameterName ("parent: " ++ parent) = "parent" :=
    @parameter_spec "parent" (by decide) parent
  have hself : parameterName "self" = "self" ∧
      parameterName "info: GraphQLResolveInfo" = "info" := by decide
  cases texts <;> simp [parametersOf, fixedParameters, hmark, hparent, hself]

/-! ## Methods -/

theorem isProper_of_mem_fieldsOf {t : TypeDefinition} (ht : t.IsProper) :
    ∀ f ∈ Schema.fieldsOf t, f.IsProper := by
  have hbody := ht.body
  unfold Schema.fieldsOf
  cases hb : t.body <;> rw [hb] at hbody
  case object | interface => exact hbody.2
  all_goals nofun

/-- The method for a field has the parameters of the field. -/
theorem hasParameters_of_resolves {m : Mapper} {isAsync isFailing : Bool} {parent : String}
    {f : FieldDefinition} {lines : List String} (h : Resolves m isAsync parent isFailing f lines)
    (hf : f.IsProper) : HasParameters (parameterNames f) lines := by
  obtain ⟨-, harguments, hmethod⟩ := h
  refine ⟨_, _, _, _, _, _, hmethod, ?_⟩
  rw [names_parametersOf, names_of_takes harguments fun a ha => (hf.arguments a ha).name,
    parameterNames, Naming.Scope.identifiers, parameterScope, List.map_map]
  rfl

theorem hasParameters_of_tellsType {lines : List String} (h : TellsType lines) :
    HasParameters resolveTypeNames lines :=
  ⟨_, _, _, _, _, _, h, by decide⟩

theorem hasParameters_of_methods {m : Mapper} {isAsync : Bool} {t : TypeDefinition}
    {methods : List (List String)} (h : Methods m isAsync t methods) (ht : t.IsProper) :
    List.Forall₂ HasParameters (methodParameters t) methods := by
  have hfields := isProper_of_mem_fieldsOf ht
  have hresolves {parent : String} {isFailing : Bool} {fields : List FieldDefinition}
      {methods : List (List String)}
      (hfields : ∀ f ∈ fields, f.IsProper)
      (h : List.Forall₂ (Resolves m isAsync parent isFailing) fields methods) :
      List.Forall₂ HasParameters (fields.map parameterNames) methods := by
    have hboth := (List.forall₂_and_left _ _).mpr ⟨hfields, h⟩
    exact List.forall₂_map_left_iff.mpr
      (hboth.imp fun f lines hf => hasParameters_of_resolves hf.2 hf.1)
  unfold methodParameters
  unfold Schema.fieldsOf at hfields
  cases h with
  | object hb hmethods =>
    rw [hb] at hfields ⊢
    exact hresolves hfields hmethods
  | interface hb hfirst hmethods =>
    rw [hb] at hfields ⊢
    exact .cons (hasParameters_of_tellsType hfirst) (hresolves hfields hmethods)
  | union hb hfirst =>
    rw [hb]
    exact .cons (hasParameters_of_tellsType hfirst) .nil

/-- The classes of a module have the methods of its types, with their parameters. -/
theorem signs_of_part {s : Schema} {o : Options} {path : String} {p : Part}
    (hs : ∀ t ∈ s.types, t.IsProper) (h : part s o path = .ok p) :
    List.Forall₂ Signs (s.types.filter Schema.isComposite) p.body := by
  obtain ⟨package, r, -, hr, rfl⟩ := part_ok.mp h
  obtain ⟨m, imports, -, -, hdocumentable, rfl⟩ := generate_ok.mp hr
  have hproper : ∀ t ∈ s.types.filter Schema.isComposite, t.IsProper :=
    fun t ht => hs t (List.mem_of_mem_filter ht)
  have hpresents := (List.forall₂_and_left _ _).mpr
    ⟨hproper, presents_interfaces o.asyncResolvers hdocumentable⟩
  refine hpresents.imp fun t text ⟨ht, htext⟩ => ?_
  obtain ⟨-, hmethods⟩ := htext
  exact ⟨_, _, rfl, hasParameters_of_methods hmethods ht⟩

/-! ## Distinct parameters -/

theorem unescaped_fixedParameters : ∀ n ∈ fixedParameters, Naming.Unescaped Naming.keywords n := by
  decide

theorem isProper_parameterScope {f : FieldDefinition} (h : (f.arguments.map (·.name)).Nodup) :
    (parameterScope f).IsProper where
  escapable := Naming.escapable_keywords
  own := show fixedParameters.Nodup by decide
  unescaped := unescaped_fixedParameters
  names := h

/-- **Parameters.** Let a text be read, its schema be built and its resolver interfaces be made. The
method for a field has the parameters `self`, `parent` and `info` and one for each argument,
keywords escaped; the method that tells the type of an object has others. The latter are always
different. The former are different exactly if no argument is called like one of the first three,
and no two arguments of the field like a keyword and that keyword with an underscore at its end. -/
theorem parameters_distinct {source : Source} {d : Document} {s : Schema} {o : Options}
    {path : String} {p : Part} (hread : Document.read source = .ok d)
    (hbuild : Schema.build d = .ok s) (h : part s o path = .ok p) :
    List.Forall₂ Signs (s.types.filter Schema.isComposite) p.body ∧ resolveTypeNames.Nodup ∧
      ∀ t ∈ s.types, ∀ f ∈ Schema.fieldsOf t,
        ((parameterNames f).Nodup ↔ ¬ Naming.Clashing Naming.keywords (f.arguments.map (·.name)) ∧
          ∀ n ∈ fixedParameters, n ∉ f.arguments.map (·.name)) := by
  refine ⟨signs_of_part (isProper_of_build hread hbuild).types h, by decide, fun t ht f hf => ?_⟩
  have harguments := (Schema.distinct_of_build hbuild).arguments t ht f hf
  exact Naming.Scope.nodup_identifiers_iff (isProper_parameterScope harguments)

/-- An interface whose field has two arguments, the names of which are keywords. -/
def rangeSdl : String :=
  "type Query \x7b n: N \x7d interface N \x7b a(from: Int!, type: ID): Int \x7d"

theorem parameters_distinct_range :
    ∃ d s p, Document.read ⟨rangeSdl, "GraphQL request"⟩ = .ok d ∧ Schema.build d = .ok s ∧
      part s {} "resolvers.py" = .ok p ∧
      List.Forall₂ Signs (s.types.filter Schema.isComposite) p.body ∧
      s.types.flatMap methodParameters =
        [["self", "parent", "info"], resolveTypeNames,
          ["self", "parent", "info", "from_", "type_"]] := by
  obtain ⟨d, s, hd, hbuild, hfacts⟩ := exists_of_any_schemaOf? rangeSdl
    (P := fun s => (part s {} "resolvers.py").toOption.isSome && s.types.flatMap methodParameters ==
      [["self", "parent", "info"], resolveTypeNames, ["self", "parent", "info", "from_", "type_"]])
    (by decide +kernel)
  obtain ⟨hpart, hnames⟩ := Bool.and_eq_true_iff.mp hfacts
  obtain ⟨p, hp⟩ := exists_ok_of_isSome hpart
  exact ⟨d, s, p, hd, hbuild, hp, (parameters_distinct hd hbuild hp).1, beq_iff_eq.mp hnames⟩

/-- A field with an argument that is called like the first parameter of every method. -/
def selfSdl : String := "type Query \x7b a(self: Int): Int \x7d"

/-- A method with two parameters of one name. -/
theorem parameter_twice :
    ∃ d s p, Document.read ⟨selfSdl, "GraphQL request"⟩ = .ok d ∧ Schema.build d = .ok s ∧
      part s {} "resolvers.py" = .ok p ∧
      List.Forall₂ Signs (s.types.filter Schema.isComposite) p.body ∧
      s.types.flatMap methodParameters = [["self", "parent", "info", "self"]] ∧
      ¬ (["self", "parent", "info", "self"] : List String).Nodup := by
  obtain ⟨d, s, hd, hbuild, hfacts⟩ := exists_of_any_schemaOf? selfSdl
    (P := fun s => (part s {} "resolvers.py").toOption.isSome &&
      s.types.flatMap methodParameters == [["self", "parent", "info", "self"]]) (by decide +kernel)
  obtain ⟨hpart, hnames⟩ := Bool.and_eq_true_iff.mp hfacts
  obtain ⟨p, hp⟩ := exists_ok_of_isSome hpart
  exact ⟨d, s, p, hd, hbuild, hp, signs_of_part (isProper_of_build hd hbuild).types hp,
    beq_iff_eq.mp hnames, by decide⟩

end Graphwright.Resolver
