import Graphwright.Proofs.Schema.Spelling
import Mathlib.Tactic.Choose

/-!
# Reading printed schemas

What a printed definition is laid out from is taken by the reader of that definition
(`takes_definition`), so a printed schema is a document again. This needs names that are names,
literals without variables and directives with at least one place: all that a text can spell, and
all that is left of a text when its schema is built (`isProper_ofDocument`).

Main results:
* `exists_document`: the text of a schema that can be spelled is a document unless nothing is shown
  in it;
* `isProper_ofDocument`: the schema of a document that was read can be spelled.
-/
namespace Graphwright.Schema

open Document

/-! ## What comes next -/

/-- A piece that goes on with none of the parts of a definition. -/
def Ends (a : Piece) : Prop := ∀ m ∈ ["!", "=", "@", "(", "&", "|", "\x7b"], a.1 ≠ .mark m

def NoMark (a : Piece) : Prop := ∀ m, a.1 ≠ .mark m

theorem NoMark.ends {a : Piece} (h : NoMark a) : Ends a := fun m _ => h m

theorem noMark_word (n : String) : NoMark (word n) := fun m => by simp [word]

theorem ends_mark {m : String} (h : m ∉ ["!", "=", "@", "(", "&", "|", "\x7b"]) :
    Ends (mark m) := by
  rintro m' hm' heq
  obtain rfl : m = m' := TokenKind.mark.inj heq
  exact h hm'

theorem Ends.noDirective {a : Piece} (h : Ends a) : NoDirective a :=
  ⟨h "@" (by simp), h "(" (by simp)⟩

/-- Directives begin with a mark of their own. -/
theorem first_directives (ds : List Directive) {next first : Piece → Prop}
    (h : ∀ a, next a → first a) (hat : first (mark "@")) :
    First (ds.flatMap Directive.pieces) next first := by
  cases ds with
  | nil => exact h
  | cons d ds => exact hat

theorem noString_word (n : String) : NoString (word n) := by simp [NoString, word]

theorem takes_described {α : Type} {f : Option Description → Read α} {p : Piece} {ps : List Piece}
    {next : Piece → Prop} {post : α → Prop} (h : ∀ d, Takes (f d) (p :: ps) next post)
    (hp : NoString p) (d? : Option Description) :
    Takes (Read.description? >>= f) (descriptionPieces d? ++ p :: ps) next post := by
  cases d? with
  | none => exact noDescription.look (fun d _ => h d) hp
  | some d => exact (takes_description _).cons fun d _ => h d

theorem exists_describedPieces (d? : Option Description) (n : String) (ps : List Piece) :
    ∃ a as, descriptionPieces d? ++ word n :: ps = a :: as ∧ NoMark a := by
  cases d? with
  | none => exact ⟨_, _, rfl, noMark_word n⟩
  | some d =>
    refine ⟨_, _, rfl, fun m => ?_⟩
    cases isBlockPrintable d.text <;> simp [stringPiece]

/-! ## Arguments and fields -/

theorem isConstant_shownDeprecation (ds : List Directive) :
    ∀ d ∈ shownDeprecation ds, ∀ a ∈ d.arguments, a.2.IsConstant := by
  unfold shownDeprecation
  split
  · split
    · simp
    · simpa using .string _ _
  · simp

theorem isConstant_shownSpecification (ds : List Directive) :
    ∀ d ∈ shownSpecification ds, ∀ a ∈ d.arguments, a.2.IsConstant := by
  unfold shownSpecification
  split
  · simpa using .string _ _
  · simp

theorem isConstant_shownOneOf (ds : List Directive) :
    ∀ d ∈ shownOneOf ds, ∀ a ∈ d.arguments, a.2.IsConstant := by
  unfold shownOneOf
  split <;> simp

theorem takes_noDirectives {fuel : Nat} (hfuel : 0 < fuel) :
    Takes (Read.directives true fuel) [] NoDirective fun _ => True :=
  @takes_directives [] (by simp) _ hfuel

theorem takes_inputValue {v : InputValue} (h : v.IsProper) {fuel : Nat}
    (hfuel : (inputPartPieces v).length < fuel) :
    Takes (Read.inputValue fuel) (inputPartPieces v) Ends fun _ => True := by
  simp only [inputPartPieces, describedPieces, inputPieces, List.length_append,
    List.length_cons] at hfuel
  refine takes_described (fun _ => ?_) (noString_word _) _
  refine (Takes.name v.name).cons fun _ _ => (Takes.expectMark ":").cons fun _ _ => ?_
  have htype : Takes (Read.typeRef fuel) _ _ _ := takes_typeRef h.type (by omega)
  have hdefault : Takes (Read.default? fuel) _ _ _ := takes_default h.default (by omega)
  have hdirectives : Takes (Read.directives true fuel) _ _ _ :=
    takes_directives (isConstant_shownDeprecation v.directives) (by omega)
  refine htype.append (fun _ _ =>
    hdefault.append (fun _ _ => (hdirectives.last fun _ _ => .pure trivial).imp
    (fun _ h => Ends.noDirective h) fun _ h => h) ?_) ?_
  · exact first_directives _ (fun a ha => ha "=" (by simp)) (by simp [mark])
  · have hrest :
        First ((shownDeprecation v.directives).flatMap Directive.pieces) Ends (·.1 ≠ .mark "!") :=
      first_directives _ (fun a ha => ha "!" (by simp)) (by simp [mark])
    cases v.default? with
    | none => exact hrest
    | some x => simp [defaultPieces, First, mark]

theorem items_described {α β : Type} {item : Read β} {description? : α → Option Description}
    {pieces : α → List Piece} {name : α → String} {closing : String} {xs : List α}
    (hname : ∀ x, ∃ ps, pieces x = word (name x) :: ps) (hclosing : Ends (mark closing))
    (h : ∀ x ∈ xs, Takes item (describedPieces description? pieces x) Ends fun _ => True) :
    Items item (describedPieces description? pieces) Ends (mark closing) xs where
  takes := h
  starts x _ := by
    obtain ⟨ps, hps⟩ := hname x
    obtain ⟨a, as, hx, ha⟩ := exists_describedPieces (description? x) (name x) ps
    exact ⟨a, as, by rw [describedPieces, hps, hx], ha closing, ha.ends⟩
  close := hclosing

theorem takes_arguments {arguments : List InputValue} (h : ∀ a ∈ arguments, a.IsProper) {fuel : Nat}
    (hfuel : (argumentsPieces arguments).length ≤ fuel) :
    Takes (Read.optionalMany fuel "(" ")" (Read.inputValue fuel)) (argumentsPieces arguments)
      (·.1 ≠ .mark "(")
      fun _ => True := by
  refine (items_described (fun v => ⟨_, rfl⟩) (ends_mark (by simp)) fun a ha =>
    ?_).takes_optionalMany hfuel
  exact takes_inputValue (h a ha)
    (Nat.lt_of_lt_of_le (Items.length_lt_optional "(" ")" inputPartPieces ha) hfuel)

theorem takes_fieldDefinition {f : FieldDefinition} (h : f.IsProper) {fuel : Nat}
    (hfuel : (describedPieces (·.description?) fieldPieces f).length < fuel) :
    Takes (Read.fieldDefinition fuel) (describedPieces (·.description?) fieldPieces f)
      Ends fun _ => True := by
  simp only [describedPieces, fieldPieces, List.length_append, List.length_cons] at hfuel
  have htype : Takes (Read.typeRef fuel) _ _ _ := takes_typeRef h.type (by omega)
  have hdirectives : Takes (Read.directives true fuel) _ _ _ :=
    takes_directives (isConstant_shownDeprecation f.directives) (by omega)
  refine takes_described (fun _ => ?_) (noString_word _) _
  refine (Takes.name f.name).cons fun _ _ =>
    (takes_arguments h.arguments (by omega)).append (fun _ _ => ?_)
    (by simp [First, mark])
  refine (Takes.expectMark ":").cons fun _ _ =>
    htype.append (fun _ _ => (hdirectives.last fun _ _ => .pure trivial).imp
    (fun _ h => Ends.noDirective h) fun _ h => h) ?_
  exact first_directives _ (fun a ha => ha "!" (by simp)) (by simp [mark])

theorem takes_enumValue {v : EnumValue} (h : v.IsProper) {fuel : Nat}
    (hfuel : (describedPieces (·.description?) enumValuePieces v).length < fuel) :
    Takes (Read.enumValue fuel) (describedPieces (·.description?) enumValuePieces v)
      Ends fun _ => True := by
  simp only [describedPieces, enumValuePieces, List.length_append, List.length_cons] at hfuel
  have hdirectives : Takes (Read.directives true fuel) _ _ _ :=
    takes_directives (isConstant_shownDeprecation v.directives) (by omega)
  refine takes_described (fun _ => Takes.onCurrent fun t ht => ?_) (noString_word _) _
  rw [if_neg (by simpa [value_of_piece ht] using h.notConstant)]
  exact (Takes.name v.name).cons fun _ _ => (hdirectives.last fun _ _ => .pure trivial).imp
    (fun _ h => Ends.noDirective h) fun _ h => h

/-! ## Types -/

theorem takes_names {separator : String} {names : List String} (hne : names ≠ []) {fuel : Nat}
    (hfuel : (separated separator names).length ≤ fuel) :
    Takes (Read.delimited fuel separator Read.name) (separated separator names)
      (·.1 ≠ .mark separator)
      fun _ => True := by
  exact takes_delimited (fun n _ => (Takes.name n).imp (fun _ h => h) fun _ _ => trivial) hne
    (Nat.le_trans (length_le_separated _ _) hfuel)

theorem takes_interfaces {parents : List String} {fuel : Nat}
    (hfuel : (interfacesPieces parents).length ≤ fuel) :
    Takes (Read.interfaces fuel) (interfacesPieces parents)
      (fun a => a ≠ word "implements" ∧ a.1 ≠ .mark "&")
      fun _ => True := by
  unfold interfacesPieces at hfuel ⊢
  split at hfuel
  · rename_i hempty
    rw [if_pos hempty]
    refine (Takes.noWord "implements").look (fun b hb => ?_) fun _ h => h.1
    rw [if_neg (by simp [hb])]
    exact .pure trivial
  · rename_i hne
    rw [if_neg hne]
    refine (Takes.optionalWord "implements").cons fun b hb => ?_
    rw [if_pos hb]
    exact (takes_names (by simpa using hne) (by simp at hfuel; omega)).imp
      (fun _ h => h.2) fun _ h => h

theorem takes_members {members : List String} {fuel : Nat}
    (hfuel : (membersPieces members).length ≤ fuel) :
    Takes (Read.members fuel) (membersPieces members) (fun a => a.1 ≠ .mark "=" ∧ a.1 ≠ .mark "|")
      fun _ => True := by
  unfold membersPieces at hfuel ⊢
  split at hfuel
  · rename_i hempty
    rw [if_pos hempty]
    refine (Takes.noMark "=").look (fun b hb => ?_) fun _ h => h.1
    rw [if_neg (by simp [hb])]
    exact .pure trivial
  · rename_i hne
    rw [if_neg hne]
    refine (Takes.optionalMark "=").cons fun b hb => ?_
    rw [if_pos hb]
    exact (takes_names (by simpa using hne) (by simp at hfuel; omega)).imp
      (fun _ h => h.2) fun _ h => h

/-- A piece behind a type: one that goes on with nothing, and is not the word for its interfaces. -/
def EndsType (a : Piece) : Prop := Ends a ∧ a ≠ word "implements"

theorem takes_fieldDefinitions {fields : List FieldDefinition} (h : ∀ f ∈ fields, f.IsProper)
    {fuel : Nat} (hfuel : (fieldsPieces fields).length ≤ fuel) :
    Takes (Read.fieldDefinitions fuel) (fieldsPieces fields) (·.1 ≠ .mark "\x7b") fun _ => True :=
  (items_described (fun f => ⟨_, rfl⟩) (ends_mark (by simp)) fun f hf =>
    takes_fieldDefinition (h f hf)
    (Nat.lt_of_lt_of_le (Items.length_lt_optional _ _ _ hf) hfuel)).takes_optionalMany hfuel

theorem first_optional {α : Type} {pieces : α → List Piece} (opening closing : String) (xs : List α)
    {next first : Piece → Prop}
    (h : ∀ a, next a → first a) (hopening : first (mark opening)) :
    First (Items.optional opening closing pieces xs) next first := by
  cases xs with
  | nil => exact h
  | cons x xs => exact hopening

theorem takes_fieldsContent {parents : List String} {fields : List FieldDefinition}
    (h : ∀ f ∈ fields, f.IsProper) {fuel : Nat}
    (hfuel : (interfacesPieces parents ++ fieldsPieces fields).length < fuel)
    {f : List String → List Directive → List FieldDefinition → String × List Directive × TypeBody} :
    Takes (do
      let parents ← Read.interfaces fuel
      let ds ← Read.directives true fuel
      return f parents ds (← Read.fieldDefinitions fuel))
        (interfacesPieces parents ++ fieldsPieces fields)
      EndsType fun _ => True := by
  rw [List.length_append] at hfuel
  have hnone : Takes (Read.directives true fuel) [] _ _ := takes_noDirectives (by omega)
  have hfields : Takes (Read.fieldDefinitions fuel) _ _ _ := takes_fieldDefinitions h (by omega)
  have hfirst {first : Piece → Prop} (h : ∀ a, EndsType a → first a)
      (hbrace : first (mark "\x7b")) :
      First (fieldsPieces fields) EndsType first := first_optional _ _ _ h hbrace
  refine (takes_interfaces (by omega)).append (fun _ _ => hnone.look (fun _ _ => ?_) ?_) ?_
  · exact (hfields.imp (fun a h => h.1 "\x7b" (by simp)) fun _ h => h).last fun _ _ => .pure trivial
  · exact hfirst (fun a h => h.1.noDirective) (by simp [NoDirective, mark])
  · exact hfirst (fun a h => ⟨h.2, h.1 "&" (by simp)⟩) (by simp [mark, word])

/-- The directives of a type, and what follows them between braces. -/
theorem takes_bracesContent {α β : Type} {ds : List Directive}
    (hds : ∀ d ∈ ds, ∀ a ∈ d.arguments, a.2.IsConstant) {item : Read β} {pieces : α → List Piece}
    {xs : List α} (h : Items item pieces Ends (mark "\x7d") xs) {fuel : Nat}
    (hfuel : (ds.flatMap Directive.pieces ++ Items.optional "\x7b" "\x7d" pieces xs).length < fuel)
    {f : List Directive → List β → String × List Directive × TypeBody} :
    Takes (do
      let ds ← Read.directives true fuel
      return f ds (← Read.optionalMany fuel "\x7b" "\x7d" item))
      (ds.flatMap Directive.pieces ++ Items.optional "\x7b" "\x7d" pieces xs)
        EndsType fun _ => True := by
  rw [List.length_append] at hfuel
  refine (takes_directives hds (by omega)).append (fun _ _ => ?_) ?_
  · exact ((h.takes_optionalMany (by omega)).imp (fun a h => h.1 "\x7b" (by simp))
      fun _ h => h).last
      fun _ _ => .pure trivial
  · exact first_optional _ _ _ (fun a h => h.1.noDirective) (by simp [NoDirective, mark])

theorem takes_typeContent {t : TypeDefinition} (h : t.IsProper) {fuel : Nat}
    (hfuel : (contentPieces t).length < fuel) :
    Takes (Read.typeContent (keywordOf t.body) fuel) (word t.name :: contentPieces t) EndsType
      fun _ => True := by
  obtain ⟨-, hbody⟩ := h
  refine (Takes.name t.name).cons fun _ _ => ?_
  have hnone : Takes (Read.directives true fuel) [] _ _ := takes_noDirectives (by omega)
  unfold contentPieces at hfuel ⊢
  cases hb : t.body with
  | scalar =>
    rw [hb] at hfuel
    exact ((takes_directives (isConstant_shownSpecification t.directives) hfuel).imp
      (fun a h => h.1.noDirective)
      fun _ h => h).last fun _ _ => .pure trivial
  | object parents fields | interface parents fields =>
    rw [hb] at hfuel hbody
    exact takes_fieldsContent hbody.2 hfuel
  | union members =>
    rw [hb] at hfuel
    have hmembers : Takes (Read.members fuel) _ _ _ := takes_members (Nat.le_of_lt hfuel)
    refine hnone.look (fun _ _ => ?_) ?_
    · exact (hmembers.imp (fun a h => ⟨h.1 "=" (by simp), h.1 "|" (by simp)⟩) fun _ h => h).last
        fun _ _ => .pure trivial
    · dsimp only
      unfold membersPieces
      split
      · exact fun a h => h.1.noDirective
      · simp [First, NoDirective, mark]
  | enum values =>
    rw [hb] at hfuel hbody
    have hnoDirectives : ∀ d ∈ ([] : List Directive), ∀ a ∈ d.arguments, a.2.IsConstant := by simp
    refine takes_bracesContent hnoDirectives
      (items_described (fun v => ⟨_, rfl⟩) (ends_mark (by simp)) fun v hv => ?_) hfuel
    exact takes_enumValue (hbody v hv)
      (Nat.lt_trans (Items.length_lt_optional "\x7b" "\x7d" _ hv) hfuel)
  | input fields =>
    rw [hb] at hfuel hbody
    refine takes_bracesContent (isConstant_shownOneOf t.directives)
      (items_described (fun v => ⟨_, rfl⟩) (ends_mark (by simp)) fun v hv => ?_) hfuel
    have hlength := Items.length_lt_optional "\x7b" "\x7d" inputPartPieces hv
    simp only [List.length_append] at hfuel
    exact takes_inputValue (hbody v hv) (by omega)

/-! ## Definitions -/

theorem takes_typeDefinition {t : TypeDefinition} (h : t.IsProper) {fuel : Nat}
    (hfuel : (typePieces t).length < fuel) :
    Takes (Read.typeDefinition fuel) (typePieces t) EndsType fun _ => True := by
  simp only [typePieces, List.length_append, List.length_cons] at hfuel
  refine takes_described (fun _ => ?_) (noString_word _) _
  refine (Takes.name (keywordOf t.body)).cons fun keyword hkeyword => ?_
  subst hkeyword
  exact (takes_typeContent h (by omega)).last fun _ _ => .pure trivial

theorem takes_location (l : Location) : Takes Read.location [word l.keyword] Any fun _ => True := by
  have hkeyword : (Location.ofKeyword? l.keyword).isSome := by
    have hmem : l ∈ Location.all := by cases l <;> decide
    exact List.find?_isSome.mpr ⟨l, hmem, beq_self_eq_true _⟩
  obtain ⟨l', hl'⟩ := Option.isSome_iff_exists.mp hkeyword
  refine Takes.onCurrent fun t _ => ?_
  refine (Takes.name l.keyword).cons fun n hn => ?_
  subst hn
  simp only [hl']
  exact .pure trivial

theorem takes_directiveDefinition {d : DirectiveDefinition} (h : d.IsProper) {fuel : Nat}
    (hfuel : (descriptionPieces d.description? ++ directivePieces d).length < fuel) :
    Takes (Read.directiveDefinition fuel) (descriptionPieces d.description? ++ directivePieces d)
      EndsType fun _ => True := by
  simp only [directivePieces, List.length_append, List.length_cons] at hfuel
  have hlocations :
      Takes (Read.delimited fuel "|" Read.location) (separated "|" (d.locations.map (·.keyword)))
      (·.1 ≠ .mark "|") fun _ => True := by
    refine takes_delimited (fun n hn => ?_) (by simpa using h.locations)
      (Nat.le_trans (length_le_separated "|" _) (by omega))
    obtain ⟨l, -, rfl⟩ := List.mem_map.mp hn
    exact takes_location l
  have hon {f : List Location → Definition} : Takes (do
      Read.expectWord "on"
      return f (← Read.delimited fuel "|" Read.location))
      (word "on" :: separated "|" (d.locations.map (·.keyword)))
      EndsType
      fun _ => True :=
    (Takes.expectWord "on").cons fun _ _ =>
      (hlocations.imp (fun a h => h.1 "|" (by simp)) fun _ h => h).last fun _ _ => .pure trivial
  refine takes_described (fun _ => ?_) (noString_word _) _
  refine (Takes.expectWord "directive").cons fun _ _ => (Takes.expectMark "@").cons fun _ _ => ?_
  refine (Takes.name d.name).cons fun _ _ =>
    (takes_arguments h.arguments (by omega)).append (fun _ _ => ?_) ?_
  · cases d.repeatable with
    | false => exact (Takes.noWord "repeatable").look (fun _ _ => hon) (by simp [First, word])
    | true => exact (Takes.optionalWord "repeatable").cons fun _ _ => hon
  · cases d.repeatable <;> simp [First, word]

theorem takes_rootType (r : OperationKind × String) :
    Takes Read.rootType (rootPieces r) Any fun _ => True := by
  have hkind : Takes Read.operationKind [word r.1.keyword] Any fun _ => True := by
    have hkeyword : OperationKind.ofKeyword? r.1.keyword = some r.1 := by cases r.1 <;> rfl
    refine (Takes.expect (a := word r.1.keyword) rfl).last fun t ht => ?_
    rw [value_of_piece ht, hkeyword]
    exact .pure trivial
  exact hkind.cons fun _ _ => (Takes.expectMark ":").cons fun _ _ =>
    (Takes.name r.2).last fun _ _ => .pure trivial

theorem takes_schemaDefinition {s : Schema} (h : shownRoots s ≠ []) {fuel : Nat}
    (hfuel : (descriptionPieces s.description? ++ schemaPieces s).length < fuel) :
    Takes (Read.schemaDefinition fuel) (descriptionPieces s.description? ++ schemaPieces s) EndsType
      fun _ => True := by
  simp only [schemaPieces, List.length_append, List.length_cons] at hfuel
  have hroots : Items Read.rootType rootPieces Any (mark "\x7d") (shownRoots s) :=
    ⟨fun r _ => takes_rootType r, fun r _ => ⟨_, _, rfl, by simp [word, mark], trivial⟩, trivial⟩
  have hnone : Takes (Read.directives true fuel) [] _ _ := takes_noDirectives (by omega)
  refine takes_described (fun _ => ?_) (noString_word _) _
  refine (Takes.expectWord "schema").cons fun _ _ =>
    hnone.look (fun _ _ => ?_) (by simp [First, NoDirective, mark])
  exact ((hroots.takes_many h (by omega)).last fun _ _ => .pure trivial).imp
    (fun _ _ => trivial) fun _ h => h

/-- The reader of the definitions that a word introduces. -/
def definitionReader (w : String) (fuel : Nat) : Read Definition :=
  if w = "schema" then Read.schemaDefinition fuel
  else if Read.typeKeywords.contains w then Read.typeDefinition fuel
  else Read.directiveDefinition fuel

theorem definitionReader_eq {w : String} (hw : w ∈ "schema" :: "directive" :: Read.typeKeywords)
    (fuel : Nat) (other : Read Definition) :
    (if w = "schema" then Read.schemaDefinition fuel
      else if Read.typeKeywords.contains w then Read.typeDefinition fuel
      else if w = "directive" then Read.directiveDefinition fuel
      else other) = definitionReader w fuel := by
  unfold definitionReader
  split
  · rfl
  · split
    · rfl
    · rename_i hschema htype
      have hdirective : w = "directive" := by simp_all
      rw [if_pos hdirective]

/-- A definition is taken by the reader that the word in front of it asks for. -/
theorem takes_definition {w : String} (hw : w ∈ "schema" :: "directive" :: Read.typeKeywords)
    {fuel : Nat} {d? : Option Description} {ps : List Piece} {next : Piece → Prop}
    (h : Takes (definitionReader w fuel) (descriptionPieces d? ++ word w :: ps)
      next fun _ => True) :
    Takes (Read.definition fuel) (descriptionPieces d? ++ word w :: ps) next fun _ => True := by
  have hbrace : First (descriptionPieces d? ++ word w :: ps) next (·.1 ≠ .mark "\x7b") := by
    obtain ⟨a, as, hpieces, ha⟩ := exists_describedPieces d? w ps
    rw [hpieces]
    exact ha _
  refine (Takes.peek_ne (.mark "\x7b")).look (fun b hb => ?_) hbrace
  rw [if_neg (by simp [hb])]
  -- The word that decides is the current token, or the one after the description.
  cases d? with
  | none =>
    refine noPeekDescription.look (fun described hdescribed => ?_) (noString_word w)
    subst hdescribed
    refine Takes.onCurrent fun t ht => ?_
    have hkind : t.kind = .name := congrArg Prod.fst ht
    simp only [value_of_piece ht, hkind]
    rw [if_neg (by simp), if_pos (by simp), definitionReader_eq hw]
    exact h
  | some d =>
    refine (peekDescription_eq _).look (fun described hdescribed => ?_) rfl
    subst hdescribed
    refine Takes.lookahead fun t ht => ?_
    have hkind : t.kind = .name := congrArg Prod.fst ht
    simp only [value_of_piece ht, hkind]
    rw [if_neg (by simp), if_pos (by simp), definitionReader_eq hw]
    exact h

/-! ## Documents -/

/-- A text that is read as a definition, provided that another one or the end comes next. -/
structure IsDefinition (text : String) (ps : List Piece) : Prop where
  lays : Lays text ps
  starts : ∃ a as, ps = a :: as ∧ a.1 ≠ .endOfFile ∧ EndsType a
  takes : ∀ fuel, ps.length < fuel → Takes (Read.definition fuel) ps EndsType fun _ => True

/-- A text that is laid out from what the reader of its word takes. -/
theorem isDefinition_of_takes {text w : String}
    (hw : w ∈ "schema" :: "directive" :: Read.typeKeywords) {d? : Option Description}
    {ps : List Piece} (hlays : Lays text (descriptionPieces d? ++ word w :: ps))
    (h : ∀ fuel, (descriptionPieces d? ++ word w :: ps).length < fuel →
      Takes (definitionReader w fuel) (descriptionPieces d? ++ word w :: ps)
        EndsType fun _ => True) :
    IsDefinition text (descriptionPieces d? ++ word w :: ps) where
  lays := hlays
  takes fuel hfuel := takes_definition hw (h fuel hfuel)
  starts := by
    cases d? with
    | none =>
      refine ⟨_, _, rfl, by simp [word], (noMark_word w).ends, fun himplements => ?_⟩
      obtain rfl : w = "implements" := congrArg Prod.snd himplements
      exact absurd hw (by decide)
    | some d =>
      refine ⟨_, _, rfl, ?_⟩
      cases isBlockPrintable d.text <;> simp [EndsType, Ends, stringPiece, word]

theorem isDefinition_typeText {t : TypeDefinition} (h : t.IsProper) :
    IsDefinition (typeText t) (typePieces t) := by
  have hkeyword : Read.typeKeywords.contains (keywordOf t.body) ∧ keywordOf t.body ≠ "schema" := by
    cases t.body <;> simp [keywordOf, Read.typeKeywords]
  refine isDefinition_of_takes (by simpa using Or.inr (Or.inr hkeyword.1))
    (lays_typeText h) fun fuel hfuel => ?_
  rw [definitionReader, if_neg hkeyword.2, if_pos hkeyword.1]
  exact takes_typeDefinition h hfuel

theorem isDefinition_directiveText {d : DirectiveDefinition} (h : d.IsProper) :
    IsDefinition (directiveText d) (descriptionPieces d.description? ++ directivePieces d) :=
  isDefinition_of_takes (by decide) (lays_directiveText h) fun _ hfuel =>
    takes_directiveDefinition h hfuel

/-- The definition of a schema has at least one root type to show. -/
theorem isDefinition_definitionText {s : Schema} (hroots : ∀ r ∈ s.roots, IsName r.2)
    (hshown : shownRoots s ≠ []) {text : String} (htext : text ∈ definitionText s) :
    IsDefinition text (descriptionPieces s.description? ++ schemaPieces s) :=
  isDefinition_of_takes (by decide) (lays_definitionText hroots htext) fun _ hfuel =>
    takes_schemaDefinition hshown hfuel

/-- Texts of definitions with an empty line between them are a document. -/
theorem exists_read {texts : List String} (h : ∀ t ∈ texts, ∃ ps, IsDefinition t ps)
    (hne : texts ≠ []) (name : String) :
    ∃ d, Document.read ⟨"\n\n".intercalate texts, name⟩ = .ok d := by
  choose! pieces hpieces using h
  have hlays : Lays ("\n\n".intercalate texts) (texts.flatMap pieces) := by
    have hblank : IsPunctuation "\n\n" := by decide
    simpa using lays_lines hblank (by decide) rfl fun t ht => (hpieces t ht).lays
  refine exists_whole hlays fun fuel hfuel => ?_
  have hitems : Items (Read.definition fuel) pieces EndsType endPiece texts := by
    refine ⟨fun t ht => (hpieces t ht).takes fuel ?_, fun t ht => (hpieces t ht).starts, ?_⟩
    · exact Nat.lt_of_le_of_lt (length_le_of_mem pieces ht) hfuel
    · exact ⟨fun m _ => by simp [endPiece], by simp [endPiece, word]⟩
  obtain ⟨t, rest, rfl⟩ := List.exists_cons_of_ne_nil hne
  rw [List.flatMap_cons, List.append_assoc]
  have hlength : (rest.flatMap pieces).length < fuel := by
    rw [List.flatMap_cons, List.length_append] at hfuel
    omega
  have hrest := hitems.tail.takes_itemsUntil (Nat.lt_of_le_of_lt hitems.tail.length_le hlength)
  exact (hitems.takes t List.mem_cons_self).append
    (fun _ _ => hrest.last fun _ _ => .pure trivial) hitems.tail.first

/-! ## Schemas of documents -/

/-- A schema whose definitions can be spelled. -/
structure IsProper (s : Schema) : Prop where
  roots : ∀ r ∈ s.roots, IsName r.2
  types : ∀ t ∈ s.types, t.IsProper
  directives : ∀ d ∈ s.directives, d.IsProper

/-- Merging in an extension adds parts that can be spelled. -/
theorem isProper_extendType {t : TypeDefinition} {extension : TypeBody} (ht : t.IsProper)
    (hextension : extension.IsProper) :
    (extendType t extension).IsProper := by
  obtain ⟨hname, hbody⟩ := ht
  unfold extendType
  split
  case h_1 hb | h_2 hb =>
    rw [hb] at hbody
    exact ⟨hname, List.forall_mem_append.mpr ⟨hbody.1, hextension.1⟩,
      List.forall_mem_append.mpr ⟨hbody.2, hextension.2⟩⟩
  case h_3 hb | h_4 hb | h_5 hb =>
    rw [hb] at hbody
    exact ⟨hname, List.forall_mem_append.mpr ⟨hbody, hextension⟩⟩
  case h_6 => exact ⟨hname, hbody⟩

theorem isProper_foldl_extendType {t : TypeDefinition} {extensions : List TypeBody}
    (ht : t.IsProper) (h : ∀ e ∈ extensions, e.IsProper) :
    (extensions.foldl extendType t).IsProper := by
  induction extensions generalizing t with
  | nil => exact ht
  | cons e rest ih =>
    obtain ⟨he, hrest⟩ := List.forall_mem_cons.mp h
    exact ih (isProper_extendType ht he) hrest

section Document

variable {d : Document} (h : ∀ x ∈ d.definitions, x.IsProper)

include h

theorem isProper_of_mem_extensionsOf {name : String} : ∀ e ∈ extensionsOf d name, e.IsProper := by
  intro e he
  obtain ⟨x, hx, hxe⟩ := List.mem_filterMap.mp he
  split at hxe
  · split at hxe
    · cases hxe
      exact (h _ hx).body
    · cases hxe
  · cases hxe

theorem isProper_of_mem_mergedTypes : ∀ t ∈ mergedTypes d, t.IsProper := by
  intro t ht
  obtain ⟨x, hx, hxt⟩ := List.mem_filterMap.mp ht
  split at hxt
  · split at hxt
    · cases hxt
    · cases hxt
      exact isProper_foldl_extendType (h _ hx) (isProper_of_mem_extensionsOf h)
  · cases hxt

theorem isName_of_mem_namedRoots : ∀ r ∈ namedRoots d, IsName r.2 := by
  intro r hr
  obtain ⟨k, -, hk⟩ := List.mem_filterMap.mp hr
  obtain ⟨name, hname, rfl⟩ := Option.map_eq_some_iff.mp hk
  obtain ⟨x, hx, hroot⟩ := List.mem_flatMap.mp (List.mem_reverse.mp (mem_of_lookup hname))
  split at hroot
  · exact h _ hx _ hroot
  · cases hroot

theorem isName_of_mem_rootsOf (types : List TypeDefinition) :
    ∀ r ∈ rootsOf d types, IsName r.2 := by
  have hnamed := isName_of_mem_namedRoots h
  unfold rootsOf
  split
  · exact hnamed
  · intro r hr
    obtain ⟨k, -, hk⟩ := List.mem_filterMap.mp hr
    split at hk
    · cases hk
      cases k <;> decide
    · obtain ⟨name, hname, rfl⟩ := Option.map_eq_some_iff.mp hk
      exact hnamed (k, name) (mem_of_lookup hname)

/-- The schema of a document that can be spelled can be spelled itself. -/
theorem isProper_ofDocument : (ofDocument d).IsProper where
  roots := isName_of_mem_rootsOf h _
  types := isProper_of_mem_mergedTypes h
  directives x hx := by
    obtain ⟨y, hy, hyx⟩ := List.mem_filterMap.mp hx
    split at hyx
    · cases hyx
      exact h _ hy
    · cases hyx

end Document

theorem eq_of_build {d : Document} {s : Schema} (h : build d = .ok s) : s = ofDocument d := by
  unfold build at h
  dsimp only at h
  split at h
  · obtain ⟨_, -, h⟩ := bind_eq_ok.mp h
    obtain ⟨_, -, h⟩ := bind_eq_ok.mp h
    exact (pure_eq_ok.mp h).symm
  · cases h

/-! ## Printed schemas -/

/-- Something of a schema is shown: its own definition, a directive of its own, or a type. -/
def HasText (s : Schema) : Prop := definitionText s ≠ [] ∨ s.shownDirectives ≠ [] ∨ s.types ≠ []

theorem shownRoots_ne_nil {s : Schema} (h : definitionText s ≠ []) : shownRoots s ≠ [] := by
  have hroots : s.roots ≠ [] := fun hnil => h (by simp [definitionText, hnil])
  obtain ⟨⟨k, name⟩, rest, hs⟩ := List.exists_cons_of_ne_nil hroots
  have hk : s.root? k = some name := by simp [root?, hs]
  have hmem : (k, name) ∈ shownRoots s := by
    refine List.mem_filterMap.mpr ⟨k, ?_, by rw [hk]; rfl⟩
    cases k <;> decide
  exact List.ne_nil_of_mem hmem

theorem read_empty_ne_ok (d : Document) : Document.read ⟨"", "GraphQL request"⟩ ≠ .ok d := by
  intro hd
  have hempty : (Document.read ⟨"", "GraphQL request"⟩).toOption.isSome = false := by decide
  rw [hd] at hempty
  cases hempty

/-- **Rereading.** The text of a schema whose definitions can be spelled is a document, unless
nothing is shown. -/
theorem exists_document {s : Schema} (h : s.IsProper) : (∃ d, s.document = .ok d) ↔ s.HasText := by
  have hshown : s.HasText ↔
      definitionText s ++ s.shownDirectives.map directiveText ++ s.types.map typeText ≠ [] := by
    simp only [HasText, ne_eq, List.append_eq_nil_iff, List.map_eq_nil_iff, not_and_or, or_assoc]
  have htexts :
      ∀ t ∈ definitionText s ++ s.shownDirectives.map directiveText ++ s.types.map typeText,
      ∃ ps, IsDefinition t ps := by
    simp only [List.forall_mem_append, List.forall_mem_map]
    refine ⟨⟨fun t ht => ?_, fun d hd => ?_⟩, fun t ht => ?_⟩
    · exact ⟨_, isDefinition_definitionText h.roots (shownRoots_ne_nil (List.ne_nil_of_mem ht)) ht⟩
    · exact ⟨_, isDefinition_directiveText (h.directives d ((List.mem_filter.mp hd).1))⟩
    · exact ⟨_, isDefinition_typeText (h.types t ht)⟩
  unfold document print
  generalize definitionText s ++ s.shownDirectives.map directiveText ++ s.types.map typeText =
    texts at hshown htexts
  rw [hshown]
  constructor
  · rintro ⟨d, hd⟩ rfl
    exact read_empty_ne_ok d hd
  · exact fun hne => exists_read htexts hne _

end Graphwright.Schema
