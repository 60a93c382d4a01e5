import Graphwright.Proofs.Document.Spelling
import Graphwright.Schema.Printer

/-!
# Spelling schemas

The pieces that the definitions of a schema are laid out from: types (`lays_typeText`), directives
(`lays_directiveText`) and the schema itself (`lays_definitionText`). Descriptions stand in front of
what they describe, on lines of their own, and every text behind them begins with a blank or a mark
(`Opens`), so nothing runs together.
-/
namespace Graphwright.Schema

open Document

/-! ## Descriptions and directives -/

def descriptionPieces : Option Description → List Piece
  | none => []
  | some d => [stringPiece (isBlockPrintable d.text)]

theorem lays_descriptionLines (d? : Option Description) {indentation : String}
    (h : IsMargin indentation.toList) (isFirst : Bool) :
    LaysFreely (descriptionLines d? indentation isFirst) (descriptionPieces d?) := by
  cases d? with
  | none => exact fun _ _ => cutsFreely_nil
  | some d =>
    have hline : LaysFreely (if indentation ≠ "" && !isFirst then "\n" else "") [] := by
      split
      · exact laysFreely_marks (by decide)
      · exact fun _ _ => cutsFreely_nil
    have hindentation : LaysFreely indentation [] := laysFreely_blanks h
    have hend : LaysFreely "\n" [] := laysFreely_marks (by decide)
    have htext :
        Lays (String.join ((Print.string d.text (isBlockPrintable d.text)).toList.map fun c =>
        if c = '\n' then "\n" ++ indentation
        else c.toString)) [stringPiece (isBlockPrintable d.text)] := by
      intro margin hmargin
      rw [toList_join_margin, indentBy_indentBy fun c hc => by rw [h c hc]; decide]
      exact lays_string _ _ (List.forall_mem_append.mpr ⟨hmargin, h⟩)
    exact ((hline.append hindentation).append_lays htext).append_freely hend (by decide) (by decide)

/-- The mark of a deprecated part as a directive. -/
def shownDeprecation (ds : List Directive) : List Directive :=
  match deprecation? ds with
  | .ok (some reason) =>
    if reason = defaultReason then [{ name := "deprecated" }]
    else [{ name := "deprecated", arguments := [("reason", .string reason false)] }]
  | _ => []

theorem laysFreely_at : LaysFreely " @" [mark "@"] := laysFreely_marks (by decide)

theorem laysFreely_space : LaysFreely " " [] := laysFreely_marks (by decide)

theorem lays_directive {n : String} (hn : IsName n) :
    Lays (" @" ++ n) (Directive.pieces { name := n }) :=
  laysFreely_at.append_lays (lays_name hn)

theorem lays_directive_text {n key : String} (hn : IsName n) (hkey : IsName key) (value : String) :
    Lays (" @" ++ n ++ "(" ++ (key ++ ": ") ++ Print.literal value ++ ")")
      (Directive.pieces { name := n, arguments := [(key, .string value false)] }) := by
  have hparen : LaysFreely "(" [mark "("] := laysFreely_marks (by decide)
  have hcolon : LaysFreely ": " [mark ":"] := laysFreely_marks (by decide)
  have hclose : LaysFreely ")" [mark ")"] := laysFreely_marks (by decide)
  have hopen := laysFreely_word laysFreely_at hn hparen (by decide) (by decide)
  have hargument := (lays_name hkey).append_freely hcolon (by decide) (by decide)
  exact ((hopen.append hargument).append_lays (lays_string value false)).append hclose.lays
    (by decide)

theorem lays_deprecationText (ds : List Directive) :
    Lays (deprecationText ds) ((shownDeprecation ds).flatMap Directive.pieces) := by
  have hname : IsName "deprecated" := by decide
  have hkey : IsName "reason" := by decide
  unfold deprecationText shownDeprecation
  rcases deprecation? ds with _ | _ | reason
  · exact lays_empty
  · exact lays_empty
  · dsimp only
    split
    · simpa using lays_directive hname
    · simpa using lays_directive_text hname hkey reason

theorem opens_deprecationText (ds : List Directive) : Opens (deprecationText ds) := by
  unfold deprecationText
  split
  · split
    · decide
    · exact (show Opens " @deprecated(reason: " by decide).append_of_ne (by decide)
        |>.append_of_ne (by simp)
  · decide

/-! ## Parts with descriptions -/

/-- The pieces of a part with its description in front. -/
def describedPieces {α : Type} (description? : α → Option Description) (pieces : α → List Piece)
    (x : α) : List Piece :=
  descriptionPieces (description? x) ++ pieces x

/-- Parts on lines of their own, each with its description in front. -/
theorem lays_described {α : Type} {indentation : String}
    (hindentation : IsMargin indentation.toList) {description? : α → Option Description}
    {text : α → String} {pieces : α → List Piece} {xs : List α}
    (h : ∀ x ∈ xs, Lays (text x) (pieces x)) :
    Lays ("\n".intercalate (described indentation description? text xs))
      (xs.flatMap (describedPieces description? pieces)) := by
  -- Only the first part has no empty line in front of its description, so each part goes with its
  -- place.
  have hitem : ∀ p ∈ xs.zipIdx,
      Lays (descriptionLines (description? p.1) indentation (p.2 == 0) ++ indentation ++ text p.1)
      (describedPieces description? pieces p.1) := fun p hp => by
    have hdescription := lays_descriptionLines (description? p.1) hindentation (p.2 == 0)
    have htext := h p.1 (List.fst_mem_of_mem_zipIdx hp)
    simpa [describedPieces] using
      (hdescription.append (laysFreely_blanks hindentation)).append_lays htext
  have hend : IsPunctuation "\n" := by decide
  have hlines := lays_lines hend (by decide) rfl hitem
  have hpieces : (xs.zipIdx.flatMap fun p => describedPieces description? pieces p.1) =
      xs.flatMap (describedPieces description? pieces) := by
    rw [← List.flatMap_map Prod.fst, List.zipIdx_map_fst]
  rw [described, List.mapIdx_eq_zipIdx_map, ← hpieces]
  exact hlines

/-! ## Arguments and fields -/

/-- The pieces of an argument or an input field without its description. -/
def inputPieces (v : InputValue) : List Piece :=
  word v.name :: mark ":" :: (v.type.pieces ++ (defaultPieces v.default? ++
    (shownDeprecation v.directives).flatMap Directive.pieces))

theorem lays_inputText {v : InputValue} (h : v.IsProper) : Lays (inputText v) (inputPieces v) := by
  have hcolon : LaysFreely ": " [mark ":"] := laysFreely_marks (by decide)
  have hequals : LaysFreely " = " [mark "="] := laysFreely_marks (by decide)
  have hname := (lays_name h.name).append_freely hcolon (by decide) (by decide)
  unfold inputText inputPieces
  cases hdefault : v.default? with
  | none =>
    have htext := (hname.append_lays (lays_typeRef h.type)).append
      (lays_deprecationText v.directives) (opens_deprecationText v.directives)
    simpa [defaultPieces] using htext
  | some x =>
    have hvalue := hequals.append_lays (lays_value (h.default x hdefault))
    have htext := ((hname.append_lays (lays_typeRef h.type)).append hvalue
      ((show Opens " = " by decide).append_of_ne (by decide))).append
      (lays_deprecationText v.directives)
      (opens_deprecationText v.directives)
    simpa [defaultPieces] using htext

abbrev inputPartPieces : InputValue → List Piece := describedPieces (·.description?) inputPieces

def argumentsPieces (arguments : List InputValue) : List Piece :=
  Items.optional "(" ")" inputPartPieces arguments

theorem lays_argumentsText {indentation : String} (hindentation : IsMargin indentation.toList)
    {arguments : List InputValue}
    (h : ∀ a ∈ arguments, a.IsProper) :
    Lays (argumentsText indentation arguments) (argumentsPieces arguments) := by
  have hinput : ∀ a ∈ arguments, Lays (inputText a) (inputPieces a) :=
    fun a ha => lays_inputText (h a ha)
  unfold argumentsText argumentsPieces Items.optional
  split
  · exact lays_empty
  have hclose : LaysFreely ")" [mark ")"] := laysFreely_marks (by decide)
  split
  · rename_i hplain
    have hopen : LaysFreely "(" [mark "("] := laysFreely_marks (by decide)
    have hcomma : IsPunctuation ", " := by decide
    have hlines := lays_lines hcomma (by decide) rfl hinput
    have hpieces : arguments.flatMap inputPartPieces = arguments.flatMap inputPieces := by
      rw [List.flatMap_def, List.flatMap_def]
      refine congrArg _ (List.map_congr_left fun a ha => ?_)
      have hnone := List.all_eq_true.mp hplain a ha
      rw [inputPartPieces, describedPieces, Option.isNone_iff_eq_none.mp hnone]
      rfl
    rw [hpieces]
    exact (hopen.append_lays hlines).append hclose.lays (by decide)
  · have hopen : LaysFreely "(\n" [mark "("] := laysFreely_marks (by decide)
    have hend : LaysFreely "\n" [] := laysFreely_marks (by decide)
    have hmargin : IsMargin ("  " ++ indentation).toList := by
      rw [String.toList_append]
      exact List.forall_mem_append.mpr ⟨by simp, hindentation⟩
    have hitems :
        Lays ("\n".intercalate
          (described ("  " ++ indentation) (·.description?) inputText arguments))
        (arguments.flatMap inputPartPieces) := lays_described hmargin hinput
    have hlines := hopen.append_lays hitems
    have hclosed := ((hlines.append_freely hend (by decide) (by decide)).append
      (laysFreely_blanks hindentation)).append hclose
    simpa [String.append_assoc] using hclosed.lays

theorem opens_argumentsText (indentation : String) (arguments : List InputValue) :
    Opens (argumentsText indentation arguments) := by
  unfold argumentsText
  split
  · decide
  · split
    · exact ((show Opens "(" by decide).append_of_ne (by decide)).append_of_ne (by simp)
    · simp only [String.append_assoc]
      exact (show Opens "(\n" by decide).append_of_ne (by decide)

def fieldPieces (f : FieldDefinition) : List Piece :=
  word f.name :: (argumentsPieces f.arguments ++ mark ":" :: (f.type.pieces ++
    (shownDeprecation f.directives).flatMap Directive.pieces))

def fieldText (f : FieldDefinition) : String :=
  f.name ++ argumentsText "  " f.arguments ++ ": " ++ f.type.text ++ deprecationText f.directives

theorem lays_fieldText {f : FieldDefinition} (h : f.IsProper) :
    Lays (fieldText f) (fieldPieces f) := by
  have hcolon : LaysFreely ": " [mark ":"] := laysFreely_marks (by decide)
  have hmargin : IsMargin "  ".toList := by decide
  have harguments := (lays_name h.name).append (lays_argumentsText hmargin h.arguments)
    (opens_argumentsText _ _)
  have htype := (harguments.append_freely hcolon (by decide) (by decide)).append_lays
    (lays_typeRef h.type)
  simpa [fieldText, fieldPieces] using htype.append (lays_deprecationText f.directives)
    (opens_deprecationText f.directives)

theorem lays_braces {α : Type} {description? : α → Option Description} {text : α → String}
    {pieces : α → List Piece} {xs : List α} (h : ∀ x ∈ xs, Lays (text x) (pieces x)) :
    Lays (braces (described "  " description? text xs))
      (Items.optional "\x7b" "\x7d" (describedPieces description? pieces) xs) := by
  have hopen : LaysFreely " \x7b\n" [mark "\x7b"] := laysFreely_marks (by decide)
  have hclose : LaysFreely "\n\x7d" [mark "\x7d"] := laysFreely_marks (by decide)
  have hempty : (described "  " description? text xs).isEmpty = xs.isEmpty := by
    cases xs <;> simp [described]
  unfold braces Items.optional
  rw [hempty]
  split
  · exact lays_empty
  · exact (hopen.append_lays (lays_described (by decide) h)).append hclose.lays (by decide)

theorem opens_braces (items : List String) : Opens (braces items) := by
  unfold braces
  split
  · decide
  · exact ((show Opens " \x7b\n" by decide).append_of_ne (by decide)).append_of_ne (by simp)

/-! ## Types -/

def fieldsPieces (fields : List FieldDefinition) : List Piece :=
  Items.optional "\x7b" "\x7d" (describedPieces (·.description?) fieldPieces) fields

def interfacesPieces (parents : List String) : List Piece :=
  if parents.isEmpty then [] else word "implements" :: separated "&" parents

def membersPieces (members : List String) : List Piece :=
  if members.isEmpty then [] else mark "=" :: separated "|" members

/-- The pieces of a value of an enum without its description. -/
def enumValuePieces (v : EnumValue) : List Piece :=
  word v.name :: (shownDeprecation v.directives).flatMap Directive.pieces

/-- The address of the definition of a scalar as a directive. -/
def shownSpecification (ds : List Directive) : List Directive :=
  match specification? ds with
  | .ok (some url) => [{ name := "specifiedBy", arguments := [("url", .string url false)] }]
  | _ => []

/-- The mark of an input object of which one field is given. -/
def shownOneOf (ds : List Directive) : List Directive :=
  if ds.any (·.name == "oneOf") then [{ name := "oneOf" }] else []

def keywordOf (b : TypeBody) : String :=
  match b with
  | .scalar => "scalar"
  | .object _ _ => "type"
  | .interface _ _ => "interface"
  | .union _ => "union"
  | .enum _ => "enum"
  | .input _ => "input"

theorem isName_keywordOf (b : TypeBody) : IsName (keywordOf b) := by
  cases b <;> simp only [keywordOf] <;> decide

def contentPieces (t : TypeDefinition) : List Piece :=
  match t.body with
  | .scalar => (shownSpecification t.directives).flatMap Directive.pieces
  | .object parents fields | .interface parents fields =>
    interfacesPieces parents ++ fieldsPieces fields
  | .union members => membersPieces members
  | .enum values =>
    Items.optional "\x7b" "\x7d" (describedPieces (·.description?) enumValuePieces) values
  | .input fields => (shownOneOf t.directives).flatMap Directive.pieces ++
      Items.optional "\x7b" "\x7d" inputPartPieces fields

def typePieces (t : TypeDefinition) : List Piece :=
  descriptionPieces t.description? ++ word (keywordOf t.body) :: word t.name :: contentPieces t

theorem lays_interfacesText {parents : List String} (h : ∀ p ∈ parents, IsName p) :
    Lays (interfacesText parents) (interfacesPieces parents) := by
  unfold interfacesText interfacesPieces
  split
  · exact lays_empty
  · have hname : IsName "implements" := by decide
    have hword := laysFreely_word laysFreely_space hname laysFreely_space (by decide) (by decide)
    have hamp : IsPunctuation " & " := by decide
    have hparents : Lays (" & ".intercalate parents) (separated "&" parents) :=
      lays_separated hamp (by decide) rfl h
    simpa using hword.append_lays hparents

def contentText (t : TypeDefinition) : String :=
  match t.body with
  | .scalar =>
    match specification? t.directives with
      | .ok (some url) => " @specifiedBy(url: " ++ Print.literal url ++ ")"
      | _ => ""
  | .object parents fields | .interface parents fields =>
    interfacesText parents ++ fieldsText fields
  | .union members => if members.isEmpty then "" else " = " ++ " | ".intercalate members
  | .enum values =>
    braces (described "  " (·.description?)
      (fun v => v.name ++ deprecationText v.directives) values)
  | .input fields => (if t.directives.any (·.name == "oneOf") then " @oneOf" else "") ++
      braces (described "  " (·.description?) inputText fields)

theorem typeText_eq (t : TypeDefinition) : typeText t =
    descriptionLines t.description? "" true ++
      (keywordOf t.body ++ " " ++ (t.name ++ contentText t)) := by
  unfold typeText contentText
  cases t.body <;> simp only [String.append_assoc] <;> rfl

theorem lays_contentText {t : TypeDefinition} (h : t.body.IsProper) :
    Lays (contentText t) (contentPieces t) := by
  have hfields {fields : List FieldDefinition} (h : ∀ f ∈ fields, f.IsProper) :
      Lays (fieldsText fields) (fieldsPieces fields) :=
    lays_braces fun f hf => lays_fieldText (h f hf)
  unfold contentText contentPieces
  cases hb : t.body with
  | scalar =>
    have hname : IsName "specifiedBy" := by decide
    have hkey : IsName "url" := by decide
    unfold shownSpecification
    rcases specification? t.directives with _ | _ | url
    · exact lays_empty
    · exact lays_empty
    · simpa using lays_directive_text hname hkey url
  | object parents fields | interface parents fields =>
    rw [hb] at h
    exact (lays_interfacesText h.1).append (hfields h.2) (opens_braces _)
  | union members =>
    rw [hb] at h
    dsimp only
    unfold membersPieces
    split
    · exact lays_empty
    · have hequals : LaysFreely " = " [mark "="] := laysFreely_marks (by decide)
      have hbar : IsPunctuation " | " := by decide
      exact hequals.append_lays (lays_separated hbar (by decide) rfl h)
  | enum values =>
    rw [hb] at h
    exact lays_braces fun v hv =>
      (lays_name (h v hv).name).append (lays_deprecationText v.directives)
      (opens_deprecationText v.directives)
  | input fields =>
    rw [hb] at h
    have hname : IsName "oneOf" := by decide
    have honeOf : Lays (if t.directives.any (·.name == "oneOf") then " @oneOf" else "")
        ((shownOneOf t.directives).flatMap Directive.pieces) := by
      unfold shownOneOf
      split
      · simpa using lays_directive hname
      · exact lays_empty
    exact honeOf.append (lays_braces fun v hv => lays_inputText (h v hv)) (opens_braces _)

theorem opens_contentText (t : TypeDefinition) : Opens (contentText t) := by
  have hinterfaces (parents : List String) : Opens (interfacesText parents) := by
    unfold interfacesText
    split
    · decide
    · exact (show Opens " implements " by decide).append_of_ne (by decide)
  unfold contentText
  cases t.body with
  | scalar =>
    dsimp only
    split
    · exact ((show Opens " @specifiedBy(url: " by decide).append_of_ne
        (by decide)).append_of_ne (by simp)
    · decide
  | object parents fields | interface parents fields =>
    exact (hinterfaces parents).append (opens_braces _)
  | union members =>
    dsimp only
    split
    · decide
    · exact (show Opens " = " by decide).append_of_ne (by decide)
  | enum values => exact opens_braces _
  | input fields =>
    refine Opens.append ?_ (opens_braces _)
    split <;> decide

theorem lays_typeText {t : TypeDefinition} (h : t.IsProper) : Lays (typeText t) (typePieces t) := by
  have hmargin : IsMargin "".toList := by decide
  have hkeyword := (lays_name (isName_keywordOf t.body)).append_freely laysFreely_space
    (by decide) (by decide)
  have hname := (lays_name h.name).append (lays_contentText h.body) (opens_contentText t)
  rw [typeText_eq]
  exact (lays_descriptionLines t.description? hmargin true).append_lays (hkeyword.append_lays hname)

/-! ## Directives and root types -/

def directivePieces (d : DirectiveDefinition) : List Piece :=
  word "directive" :: mark "@" :: word d.name :: (argumentsPieces d.arguments ++
    ((if d.repeatable then [word "repeatable"] else []) ++ word "on" ::
      separated "|" (d.locations.map (·.keyword))))

theorem isName_keyword (l : Location) : IsName l.keyword := by
  rw [isName_iff, Location.keyword, String.toList_map]
  cases l <;> decide

theorem lays_directiveText {d : DirectiveDefinition} (h : d.IsProper) :
    Lays (directiveText d) (descriptionPieces d.description? ++ directivePieces d) := by
  have hmargin : IsMargin "".toList := by decide
  have hbar : IsPunctuation " | " := by decide
  have hwords : IsName "directive" ∧ IsName "repeatable" ∧ IsName "on" := by decide
  have hdirective := (lays_name hwords.1).append_freely laysFreely_at (by decide) (by decide)
  have hname := hdirective.append_lays (lays_name h.name)
  have harguments := hname.append (lays_argumentsText hmargin h.arguments) (opens_argumentsText _ _)
  have hrepeatable : Lays (if d.repeatable then " " ++ "repeatable" else "")
      (if d.repeatable then [word "repeatable"] else []) := by
    split
    · exact laysFreely_space.append_lays (lays_name hwords.2.1)
    · exact lays_empty
  have hrepeated := harguments.append hrepeatable (by split <;> decide)
  have hon := laysFreely_word laysFreely_space hwords.2.2 laysFreely_space (by decide) (by decide)
  have hlocations : Lays (" | ".intercalate (d.locations.map (·.keyword)))
      (separated "|" (d.locations.map (·.keyword))) :=
    lays_separated hbar (by decide) rfl fun n hn => by
      obtain ⟨l, -, rfl⟩ := List.mem_map.mp hn
      exact isName_keyword l
  have htext := (lays_descriptionLines d.description? hmargin true).append_lays
    (hrepeated.append (hon.append_lays hlocations)
      ((show Opens (" " ++ "on" ++ " ") by decide).append_of_ne (by decide)))
  simpa [directiveText, directivePieces, argumentsPieces, String.append_assoc] using htext

/-- The root types that the definition of a schema shows. -/
def shownRoots (s : Schema) : List (OperationKind × String) :=
  OperationKind.all.filterMap fun k => (s.root? k).map (k, ·)

def rootPieces (r : OperationKind × String) : List Piece := [word r.1.keyword, mark ":", word r.2]

/-- The pieces of the definition of a schema without its description. -/
def schemaPieces (s : Schema) : List Piece :=
  word "schema" :: mark "\x7b" :: ((shownRoots s).flatMap rootPieces ++ [mark "\x7d"])

theorem mem_of_lookup {k : OperationKind} {name : String} {roots : List (OperationKind × String)}
    (h : roots.lookup k = some name) : (k, name) ∈ roots := by
  obtain ⟨before, after, hroots, -⟩ := List.lookup_eq_some_iff.mp h
  rw [hroots]
  simp

theorem isName_of_mem_shownRoots {s : Schema} (h : ∀ r ∈ s.roots, IsName r.2)
    {r : OperationKind × String} (hr : r ∈ shownRoots s) : IsName r.2 := by
  obtain ⟨k, -, hk⟩ := List.mem_filterMap.mp hr
  obtain ⟨name, hname, rfl⟩ := Option.map_eq_some_iff.mp hk
  exact h (k, name) (mem_of_lookup hname)

theorem lays_definitionText {s : Schema} (h : ∀ r ∈ s.roots, IsName r.2) {text : String}
    (htext : text ∈ definitionText s) :
    Lays text (descriptionPieces s.description? ++ schemaPieces s) := by
  have hmargin : IsMargin "".toList := by decide
  have hblanks : LaysFreely "  " [] := laysFreely_marks (by decide)
  have hcolon : LaysFreely ": " [mark ":"] := laysFreely_marks (by decide)
  have hend : LaysFreely "\n" [] := laysFreely_marks (by decide)
  have hlines :
      LaysFreely (String.join
        ((shownRoots s).map fun r => "  " ++ r.1.keyword ++ ": " ++ r.2 ++ "\n"))
      ((shownRoots s).flatMap rootPieces) := by
    have hroots := fun r => isName_of_mem_shownRoots (r := r) h
    generalize shownRoots s = roots at hroots ⊢
    induction roots with
    | nil => exact laysFreely_empty
    | cons r rest ih =>
      obtain ⟨hr, hrest⟩ := List.forall_mem_cons.mp hroots
      have hkeyword : IsName r.1.keyword := by cases r.1 <;> decide
      have hkind := laysFreely_word hblanks hkeyword hcolon (by decide) (by decide)
      have hline := (hkind.append_lays (lays_name hr)).append_freely hend (by decide) (by decide)
      simpa [rootPieces] using hline.append (ih hrest)
  have hbrace : LaysFreely " \x7b\n" [mark "\x7b"] := laysFreely_marks (by decide)
  have hclose : LaysFreely "\x7d" [mark "\x7d"] := laysFreely_marks (by decide)
  have hword : IsName "schema" := by decide
  have hopen := (lays_name hword).append_freely hbrace (by decide) (by decide)
  have hall := (lays_descriptionLines s.description? hmargin true).append
    ((hopen.append hlines).append hclose)
  have hlines_eq : (OperationKind.all.filterMap fun k =>
      (s.root? k).map fun name => "  " ++ k.keyword ++ ": " ++ name ++ "\n") =
      (shownRoots s).map fun r => "  " ++ r.1.keyword ++ ": " ++ r.2 ++ "\n" := by
    rw [shownRoots, List.map_filterMap]
    simp only [Option.map_map]
    rfl
  unfold definitionText at htext
  split at htext
  · cases htext
  · split at htext
    · rw [List.mem_singleton.mp htext]
      rw [hlines_eq]
      simpa [schemaPieces, String.append_assoc] using hall.lays
    · cases htext

end Graphwright.Schema
