import Graphwright.Document.Reader
import Graphwright.Proofs.Document.Cutting

/-!
# What documents are made of

A syntax tree can hold anything for a name or a number. A tree that has been read from a text holds
only what a text can spell: its names are names, its numbers are numbers, no two non-null marks
follow each other, no value of a type system definition has a variable in it, and every directive
can be applied somewhere (`Definition.IsProper`). Of executable definitions it is said that what
they call themselves, and what they select, has names (`Definition.IsNamed`). Reading gives nothing
else (`isProper_of_read`, `isNamed_of_read`): the tokens are what they claim to be, and `Yields`
carries this from one reader to the next.
-/
namespace Graphwright.Document

/-! ## Proper syntax trees -/

/-- A literal without variables. -/
inductive Value.IsConstant : Value → Prop
  | int {text : String} : IsNumber .int text → IsConstant (.int text)
  | float {text : String} : IsNumber .float text → IsConstant (.float text)
  | string (text : String) (block : Bool) : IsConstant (.string text block)
  | boolean (b : Bool) : IsConstant (.boolean b)
  | null : IsConstant .null
  | enum {name : String} : IsName name → IsConstant (.enum name)
  | list {items : List Value} : (∀ v ∈ items, v.IsConstant) → IsConstant (.list items)
  | object {fields : List (String × Value)} : (∀ f ∈ fields, IsName f.1) →
      (∀ f ∈ fields, f.2.IsConstant) → IsConstant (.object fields)

/-- A reference whose non-null marks stand apart. -/
inductive TypeRef.IsProper : TypeRef → Prop
  | named {name : String} : IsName name → IsProper (.named name)
  | list {item : TypeRef} : item.IsProper → IsProper (.list item)
  | nonNull {inner : TypeRef} : inner.IsProper → inner.isNonNull = false → IsProper (.nonNull inner)

/-- An argument or an input field as a text can spell it. -/
structure InputValue.IsProper (v : InputValue) : Prop where
  name : IsName v.name
  type : v.type.IsProper
  default : ∀ x ∈ v.default?, x.IsConstant

/-- A field as a text can spell it. -/
structure FieldDefinition.IsProper (f : FieldDefinition) : Prop where
  name : IsName f.name
  arguments : ∀ a ∈ f.arguments, a.IsProper
  type : f.type.IsProper

/-- A value of an enum as a text can spell it. -/
structure EnumValue.IsProper (v : EnumValue) : Prop where
  name : IsName v.name
  notConstant : v.name ∉ ["true", "false", "null"]

/-- The content of a type as a text can spell it. -/
def TypeBody.IsProper : TypeBody → Prop
  | .scalar => True
  | .object parents fields | .interface parents fields =>
    (∀ p ∈ parents, IsName p) ∧ ∀ f ∈ fields, f.IsProper
  | .union members => ∀ m ∈ members, IsName m
  | .enum values => ∀ v ∈ values, v.IsProper
  | .input fields => ∀ v ∈ fields, v.IsProper

structure TypeDefinition.IsProper (t : TypeDefinition) : Prop where
  name : IsName t.name
  body : t.body.IsProper

structure DirectiveDefinition.IsProper (d : DirectiveDefinition) : Prop where
  name : IsName d.name
  arguments : ∀ a ∈ d.arguments, a.IsProper
  locations : d.locations ≠ []

/-- A type system definition as a text can spell it. -/
def Definition.IsProper : Definition → Prop
  | .operation _ | .fragment _ => True
  | .schema _ s => ∀ r ∈ s.roots, IsName r.2
  | .type _ t => t.IsProper
  | .directive d => d.IsProper

/-- A selection whose fields have names, and other names if they are to be called otherwise. -/
inductive Selection.IsNamed : Selection → Prop
  | field {alias? name arguments directives selections?} : (∀ a ∈ alias?, IsName a) → IsName name →
      (∀ ss ∈ selections?, ∀ s ∈ ss, s.IsNamed) →
      IsNamed (.field alias? name arguments directives selections?)
  | spread (name directives) : IsNamed (.spread name directives)
  | inline {on? directives selections} : (∀ s ∈ selections, s.IsNamed) →
      IsNamed (.inline on? directives selections)

/-- An operation that has a name, if any, and selects fields with names. -/
structure Operation.IsNamed (o : Operation) : Prop where
  name : ∀ n ∈ o.name?, IsName n
  selections : ∀ s ∈ o.selections, s.IsNamed

/-- A fragment that has a name and selects fields with names. -/
structure Fragment.IsNamed (f : Fragment) : Prop where
  name : IsName f.name
  selections : ∀ s ∈ f.selections, s.IsNamed

/-- An executable definition with names in it. -/
def Definition.IsNamed : Definition → Prop
  | .operation o => o.IsNamed
  | .fragment f => f.IsNamed
  | .schema _ _ | .type _ _ | .directive _ => True

/-! ## Readers -/

/-- The tokens ahead are what they claim to be. -/
def Cursor.IsSound (c : Cursor) : Prop := c.current.IsSound ∧ c.later.IsSound

/-- Whatever a reader gives has a property. -/
def Yields {α : Type} (r : Read α) (p : α → Prop) : Prop :=
  ∀ ⦃c⦄, c.IsSound → ∀ ⦃v c'⦄, r.run c = .ok (v, c') → p v ∧ c'.IsSound

/-- The token that is taken is the current one. -/
theorem eq_current_of_advance {c c' : Cursor} {t : Token} (h : Read.advance.run c = .ok (t, c')) :
    t = c.current := by
  obtain ⟨source, current, later⟩ := c
  cases later with
  | done last | next next rest =>
    cases h
    rfl
  | failed fault => obtain ⟨_, _, _ | _⟩ := fault <;> cases h

theorem advance_of_expect {kind : TokenKind} {c c' : Cursor} {t : Token}
    (h : (Read.expect kind).run c = .ok (t, c')) :
    c.current.kind = kind ∧ Read.advance.run c = .ok (t, c') := by
  change StateT.run (if c.current.kind == kind then Read.advance else _) c = _ at h
  split at h
  · rename_i hkind
    exact ⟨by simpa using hkind, h⟩
  · cases h

theorem eq_current_of_name {c c' : Cursor} {n : String} (h : Read.name.run c = .ok (n, c')) :
    n = c.current.value := by
  unfold Read.name at h
  rw [StateT.run_bind] at h
  obtain ⟨⟨t, c₁⟩, ht, h⟩ := bind_eq_ok.mp h
  cases h
  rw [eq_current_of_advance (advance_of_expect ht).2]

/-- Whatever a reader gives, the tokens ahead stay what they claim to be. -/
abbrev Keeps {α : Type} (r : Read α) : Prop := Yields r fun _ => True

namespace Yields

variable {α β : Type} {p q : α → Prop}

theorem pure {v : α} (h : p v) : Yields (pure v) p := by
  intro c hc v c' hv
  cases hv
  exact ⟨h, hc⟩

theorem bind {x : Read α} {f : α → Read β} {q : β → Prop} (hx : Yields x p)
    (hf : ∀ v, p v → Yields (f v) q) : Yields (x >>= f) q := by
  intro c hc v c' hv
  rw [StateT.run_bind] at hv
  obtain ⟨⟨u, c₁⟩, hu, hv⟩ := bind_eq_ok.mp hv
  obtain ⟨hp, hc₁⟩ := hx hc hu
  exact hf u hp hc₁ hv

theorem imp {x : Read α} (hx : Yields x p) (h : ∀ v, p v → q v) : Yields x q :=
  fun _ hc _ _ hv => (hx hc hv).imp_left (h _)

theorem map {x : Read α} {f : α → β} {q : β → Prop} (hx : Yields x p) (h : ∀ v, p v → q (f v)) :
    Yields (f <$> x) q := by
  rw [← bind_pure_comp]
  exact hx.bind fun v hv => .pure (h v hv)

theorem branch {b : Bool} {x y : Read α} {f : α → Read β} {q : β → Prop} (hx : Yields x p)
    (hy : Yields y p) (hf : ∀ v, p v → Yields (f v) q) :
    Yields (if b then x >>= f else y >>= f) q := by
  cases b with
  | true => exact hx.bind hf
  | false => exact hy.bind hf

theorem optional {x : Read α} (hx : Yields x p) : Yields (some <$> x) fun v? => ∀ v ∈ v?, p v :=
  hx.map fun _ hv _ heq => Option.some.inj heq ▸ hv

theorem fail (position : Nat) (reason : String) :
    Yields (Read.fail position reason : Read α) p := nofun

theorem unexpectedAt (t : Token) : Yields (Read.unexpectedAt t : Read α) p := fail _ _

theorem unexpected : Yields (Read.unexpected : Read α) p := nofun

theorem advance : Yields Read.advance Token.IsSound := by
  rintro ⟨source, current, later⟩ ⟨hcurrent, hlater⟩ t c' ht
  cases hlater with
  | done hlast =>
    cases ht
    exact ⟨hcurrent, hlast, .done hlast⟩
  | failed fault => obtain ⟨_, _, _ | _⟩ := fault <;> cases ht
  | next hnext hrest =>
    cases ht
    exact ⟨hcurrent, hnext, hrest⟩

theorem lookahead : Yields Read.lookahead Token.IsSound := by
  rintro ⟨source, current, later⟩ ⟨hcurrent, hlater⟩ t c' ht
  cases hlater with
  | done hlast =>
    cases ht
    exact ⟨hlast, hcurrent, .done hlast⟩
  | failed fault => obtain ⟨_, _, _ | _⟩ := fault <;> cases ht
  | next hnext hrest =>
    cases ht
    exact ⟨hnext, hcurrent, .next hnext hrest⟩

theorem current : Yields Read.current Token.IsSound := by
  intro c hc t c' ht
  cases ht
  exact ⟨hc.1, hc⟩

theorem peek (kind : TokenKind) : Yields (Read.peek kind) fun _ => True :=
  current.bind fun _ _ => .pure trivial

theorem peekMark (text : String) : Yields (Read.peekMark text) fun _ => True := peek _

theorem peekWord (word : String) : Yields (Read.peekWord word) fun _ => True :=
  current.bind fun _ _ => .pure trivial

theorem ite {b : Bool} {x y : Read α} (hx : b = true → Yields x p) (hy : b = false → Yields y p) :
    Yields (if b then x else y) p := by
  cases b with
  | true => exact hx rfl
  | false => exact hy rfl

theorem expect (kind : TokenKind) :
    Yields (Read.expect kind) fun t => t.kind = kind ∧ t.IsSound := by
  intro c hc t c' ht
  obtain ⟨hkind, ht⟩ := advance_of_expect ht
  obtain ⟨hsound, hc'⟩ := advance hc ht
  exact ⟨⟨by rw [eq_current_of_advance ht, hkind], hsound⟩, hc'⟩

theorem expectMark (text : String) : Yields (Read.expectMark text) fun _ => True :=
  (expect _).bind fun _ _ => .pure trivial

theorem optionalMark (text : String) : Yields (Read.optionalMark text) fun _ => True :=
  (peekMark text).bind fun _ _ => .ite (fun _ => advance.bind fun _ _ => .pure trivial) fun _ =>
    .pure trivial

theorem expectWord (word : String) : Yields (Read.expectWord word) fun _ => True :=
  current.bind fun _ _ => (peekWord word).bind fun _ _ =>
    .ite (fun _ => advance.bind fun _ _ => .pure trivial) fun _ => fail _ _

theorem optionalWord (word : String) : Yields (Read.optionalWord word) fun _ => True :=
  (peekWord word).bind fun _ _ => .ite (fun _ => advance.bind fun _ _ => .pure trivial) fun _ =>
    .pure trivial

theorem name : Yields Read.name IsName :=
  (expect .name).bind fun t ⟨hkind, ht⟩ => .pure (by simpa [Token.IsSound, hkind] using ht)

/-! ### Several items -/

section Items

variable {item : Read α} (hitem : Yields item p)

include hitem

theorem itemsUntil (fuel : Nat) (close : TokenKind) :
    Yields (Read.itemsUntil fuel close item) fun vs => ∀ v ∈ vs, p v := by
  induction fuel with
  | zero => exact unexpected
  | succ fuel ih =>
    refine (peek close).bind fun _ _ =>
      .ite (fun _ => advance.bind fun _ _ => .pure nofun) fun _ => ?_
    exact hitem.bind fun v hv => ih.bind fun vs hvs => .pure (List.forall_mem_cons.mpr ⟨hv, hvs⟩)

theorem many (fuel : Nat) (opening close : String) :
    Yields (Read.many fuel opening close item) fun vs => vs ≠ [] ∧ ∀ v ∈ vs, p v :=
  (expectMark opening).bind fun _ _ => hitem.bind fun _ hv =>
    (itemsUntil hitem fuel _).bind fun _ hvs =>
    .pure ⟨by simp, List.forall_mem_cons.mpr ⟨hv, hvs⟩⟩

theorem optionalMany (fuel : Nat) (opening close : String) :
    Yields (Read.optionalMany fuel opening close item) fun vs => ∀ v ∈ vs, p v :=
  (peekMark opening).bind fun _ _ =>
    .ite (fun _ => (many hitem fuel opening close).imp fun _ h => h.2)
    fun _ => .pure nofun

theorem anyNumber (fuel : Nat) (opening close : String) :
    Yields (Read.anyNumber fuel opening close item) fun vs => ∀ v ∈ vs, p v :=
  (expectMark opening).bind fun _ _ => itemsUntil hitem fuel _

theorem moreAfter (fuel : Nat) (separator : String) :
    Yields (Read.moreAfter fuel separator item) fun vs => ∀ v ∈ vs, p v := by
  induction fuel with
  | zero => exact unexpected
  | succ fuel ih =>
    refine (optionalMark separator).bind fun _ _ => .ite (fun _ => ?_) fun _ => .pure nofun
    exact hitem.bind fun v hv => ih.bind fun vs hvs => .pure (List.forall_mem_cons.mpr ⟨hv, hvs⟩)

theorem delimited (fuel : Nat) (separator : String) :
    Yields (Read.delimited fuel separator item) fun vs => vs ≠ [] ∧ ∀ v ∈ vs, p v :=
  (optionalMark separator).bind fun _ _ => hitem.bind fun _ hv =>
    (moreAfter hitem fuel separator).bind fun _ hvs =>
    .pure ⟨by simp, List.forall_mem_cons.mpr ⟨hv, hvs⟩⟩

end Items

/-! ### Values and types -/

theorem value (constant : Bool) (fuel : Nat) :
    Yields (Read.value constant fuel) fun v => constant → v.IsConstant := by
  induction fuel with
  | zero => exact unexpected
  | succ fuel ih =>
    refine current.bind fun t ht => ?_
    split
    · exact (anyNumber ih fuel _ _).bind fun vs hvs => .pure fun h => .list fun v hv => hvs v hv h
    · have hfield : Yields (do
          let key ← Read.name
          Read.expectMark ":"
          return (key, ← Read.value constant fuel)) fun f => IsName f.1 ∧
          (constant → f.2.IsConstant) :=
        name.bind fun key hkey => (expectMark ":").bind fun _ _ => ih.bind fun v hv =>
          .pure ⟨hkey, hv⟩
      exact (anyNumber hfield fuel _ _).bind fun fs hfs =>
        .pure fun h => .object (fun f hf => (hfs f hf).1) fun f hf => (hfs f hf).2 h
    · rename_i hkind
      simp only [Token.IsSound, hkind] at ht
      exact advance.bind fun _ _ => .pure fun _ => .int ht
    · rename_i hkind
      simp only [Token.IsSound, hkind] at ht
      exact advance.bind fun _ _ => .pure fun _ => .float ht
    · exact advance.bind fun _ _ => .pure fun _ => .string _ _
    · exact advance.bind fun _ _ => .pure fun _ => .string _ _
    · rename_i hkind
      simp only [Token.IsSound, hkind] at ht
      refine advance.bind fun _ _ => .pure fun _ => ?_
      split
      · exact .boolean true
      · exact .boolean false
      · exact .null
      · exact .enum ht
    · refine advance.bind fun _ _ => .ite (fun _ => ?_) fun h => ?_
      · refine current.bind fun _ _ => .ite (fun _ => fail _ _) fun _ => unexpectedAt _
      · exact name.bind fun _ _ => .pure fun h' => by simp [h] at h'
    · exact unexpected

theorem typeRef (fuel : Nat) : Yields (Read.typeRef fuel) TypeRef.IsProper := by
  induction fuel with
  | zero => exact unexpected
  | succ fuel ih =>
    have hmark {inner : TypeRef} (hinner : inner.IsProper) (hnull : inner.isNonNull = false) :
        Yields (do
        if ← Read.optionalMark "!" then return .nonNull inner else return inner) TypeRef.IsProper :=
      (optionalMark "!").bind fun _ _ => .ite (fun _ => .pure (.nonNull hinner hnull)) fun _ =>
        .pure hinner
    refine (optionalMark "[").bind fun _ _ => .ite (fun _ => ?_) fun _ => ?_
    · exact ih.bind fun item hitem => (expectMark "]").bind fun _ _ => hmark (.list hitem) rfl
    · exact name.bind fun n hn => hmark (.named hn) rfl

theorem arguments (constant : Bool) (fuel : Nat) :
    Yields (Read.arguments constant fuel) fun _ => True :=
  (optionalMany (p := fun _ => True) (name.bind fun _ _ => (expectMark ":").bind fun _ _ =>
    (value constant fuel).bind fun _ _ => .pure trivial) fuel _ _).imp fun _ _ => trivial

theorem directives (constant : Bool) (fuel : Nat) :
    Yields (Read.directives constant fuel) fun _ => True := by
  induction fuel with
  | zero => exact unexpected
  | succ fuel ih =>
    exact (optionalMark "@").bind fun _ _ => .ite
      (fun _ => name.bind fun _ _ => (arguments constant fuel).bind fun _ _ => ih.bind fun _ _ =>
        .pure trivial)
      fun _ => .pure trivial

theorem default? (fuel : Nat) : Yields (Read.default? fuel) fun v? => ∀ v ∈ v?, v.IsConstant :=
  (optionalMark "=").bind fun _ _ => .ite
    (fun _ => (value true fuel).bind fun v hv => .pure (by simpa using hv)) fun _ => .pure nofun

theorem peekDescription : Yields Read.peekDescription fun _ => True :=
  (peek .string).bind fun _ _ => (peek .blockString).bind fun _ _ => .pure trivial

theorem description? : Yields Read.description? fun _ => True :=
  peekDescription.bind fun _ _ => .ite (fun _ => advance.bind fun _ _ => .pure trivial) fun _ =>
    .pure trivial

/-! ### Executable definitions -/

theorem fragmentName : Yields Read.fragmentName IsName :=
  current.bind fun _ _ => .ite (fun _ => unexpected) fun _ => name

theorem selections_and_selection (fuel : Nat) :
    Yields (Read.selections fuel) (fun ss => ∀ s ∈ ss, s.IsNamed) ∧
    Yields (Read.selection fuel) Selection.IsNamed := by
  induction fuel with
  | zero => exact ⟨unexpected, unexpected⟩
  | succ fuel ih =>
    obtain ⟨ihSelections, ihSelection⟩ := ih
    refine ⟨anyNumber ihSelection fuel _ _, ?_⟩
    refine (optionalMark "...").bind fun _ _ => .ite (fun _ => ?_) fun _ => ?_
    · refine (optionalWord "on").bind fun _ _ => (peek .name).bind fun _ _ =>
        .ite (fun _ => ?_) fun _ => ?_
      · exact fragmentName.bind fun _ _ => (directives false fuel).bind fun _ _ =>
          .pure (.spread _ _)
      · exact .branch name.optional (.pure nofun) fun _ _ =>
          (directives false fuel).bind fun _ _ => ihSelections.bind fun _ hss => .pure (.inline hss)
    · have hrest {alias? : Option String} {n : String} (halias : ∀ a ∈ alias?, IsName a)
          (hn : IsName n) : Yields (do
          let args ← Read.arguments false fuel
          let ds ← Read.directives false fuel
          let sub? ← if ← Read.peekMark "\x7b" then some <$> Read.selections fuel
            else Pure.pure none
          return Selection.field alias? n args ds sub?) Selection.IsNamed := by
        refine (arguments false fuel).bind fun _ _ => (directives false fuel).bind fun _ _ =>
          (peekMark _).bind fun _ _ => ?_
        exact .branch ihSelections.optional (.pure nofun) fun _ hsub =>
          .pure (.field halias hn hsub)
      refine name.bind fun first hfirst => (optionalMark ":").bind fun _ _ =>
        .ite (fun _ => ?_) fun _ => ?_
      · exact name.bind fun n hn => hrest (fun a ha => Option.some.inj ha ▸ hfirst) hn
      · exact hrest nofun hfirst

theorem selections (fuel : Nat) : Yields (Read.selections fuel) fun ss => ∀ s ∈ ss, s.IsNamed :=
  (selections_and_selection fuel).1

theorem operationKind : Keeps Read.operationKind := by
  refine (expect .name).bind fun t _ => ?_
  split
  · exact .pure trivial
  · exact unexpectedAt t

theorem variableDefinition (fuel : Nat) : Keeps (Read.variableDefinition fuel) :=
  description?.bind fun _ _ => (expectMark "$").bind fun _ _ => name.bind fun _ _ =>
    (expectMark ":").bind fun _ _ =>
    (typeRef fuel).bind fun _ _ => (default? fuel).bind fun _ _ =>
      (directives true fuel).bind fun _ _ => .pure trivial

theorem operation (fuel : Nat) : Yields (Read.operation fuel) Operation.IsNamed := by
  refine (peekMark _).bind fun _ _ =>
    .ite (fun _ => (selections fuel).bind fun _ hss => .pure ⟨nofun, hss⟩) fun _ => ?_
  refine description?.bind fun _ _ => operationKind.bind fun _ _ => (peek .name).bind fun _ _ => ?_
  refine .branch name.optional (.pure nofun) fun _ hname => ?_
  exact (optionalMany (variableDefinition fuel) fuel _ _).bind fun _ _ =>
    (directives false fuel).bind fun _ _ =>
    (selections fuel).bind fun _ hss => .pure ⟨hname, hss⟩

theorem fragment (fuel : Nat) : Yields (Read.fragment fuel) Fragment.IsNamed :=
  description?.bind fun _ _ => (expectWord "fragment").bind fun _ _ =>
    fragmentName.bind fun _ hname =>
    (expectWord "on").bind fun _ _ => name.bind fun _ _ => (directives false fuel).bind fun _ _ =>
    (selections fuel).bind fun _ hss => .pure ⟨hname, hss⟩

/-! ### Type system definitions -/

theorem inputValue (fuel : Nat) : Yields (Read.inputValue fuel) InputValue.IsProper :=
  description?.bind fun _ _ => name.bind fun _ hname => (expectMark ":").bind fun _ _ =>
    (typeRef fuel).bind fun _ htype => (default? fuel).bind fun _ hdefault =>
      (directives true fuel).bind fun _ _ =>
    .pure ⟨hname, htype, hdefault⟩

theorem fieldDefinition (fuel : Nat) :
    Yields (Read.fieldDefinition fuel) FieldDefinition.IsProper :=
  description?.bind fun _ _ => name.bind fun _ hname =>
    (optionalMany (inputValue fuel) fuel _ _).bind fun _ harguments =>
    (expectMark ":").bind fun _ _ => (typeRef fuel).bind fun _ htype =>
      (directives true fuel).bind fun _ _ =>
    .pure ⟨hname, harguments, htype⟩

/-- The word that is looked at before a value of an enum is the one that is taken for it. -/
theorem enumValue (fuel : Nat) : Yields (Read.enumValue fuel) EnumValue.IsProper := by
  refine description?.bind fun _ _ => ?_
  intro c hc v c' hv
  change StateT.run (if ["true", "false", "null"].contains c.current.value then _ else _)
    c = _ at hv
  split at hv
  · cases hv
  · rename_i hword
    rw [StateT.run_bind] at hv
    obtain ⟨⟨n, c₁⟩, hn, hv⟩ := bind_eq_ok.mp hv
    obtain ⟨hname, hc₁⟩ := name hc hn
    refine (directives true fuel).bind (q := EnumValue.IsProper)
      (fun _ _ => .pure ⟨hname, ?_⟩) hc₁ hv
    simpa [eq_current_of_name hn] using hword

theorem rootType : Yields Read.rootType fun r => IsName r.2 :=
  operationKind.bind fun _ _ => (expectMark ":").bind fun _ _ =>
    name.bind fun _ hname => .pure hname

theorem interfaces (fuel : Nat) : Yields (Read.interfaces fuel) fun ps => ∀ p ∈ ps, IsName p :=
  (optionalWord "implements").bind fun _ _ =>
    .ite (fun _ => (delimited name fuel "&").imp fun _ h => h.2)
    fun _ => .pure nofun

theorem fieldDefinitions (fuel : Nat) :
    Yields (Read.fieldDefinitions fuel) fun fs => ∀ f ∈ fs, f.IsProper :=
  optionalMany (fieldDefinition fuel) fuel _ _

theorem members (fuel : Nat) : Yields (Read.members fuel) fun ms => ∀ m ∈ ms, IsName m :=
  (optionalMark "=").bind fun _ _ =>
    .ite (fun _ => (delimited name fuel "|").imp fun _ h => h.2) fun _ => .pure nofun

theorem location : Keeps Read.location := by
  refine current.bind fun t _ => name.bind fun _ _ => ?_
  split
  · exact .pure trivial
  · exact unexpectedAt t

theorem typeContent (keyword : String) (fuel : Nat) :
    Yields (Read.typeContent keyword fuel) fun x => IsName x.1 ∧ x.2.2.IsProper := by
  refine name.bind fun n hn => ?_
  split
  · exact (directives true fuel).bind fun _ _ => .pure ⟨hn, trivial⟩
  · exact (directives true fuel).bind fun _ _ => (members fuel).bind fun _ h => .pure ⟨hn, h⟩
  · exact (directives true fuel).bind fun _ _ =>
      (optionalMany (enumValue fuel) fuel _ _).bind fun _ h => .pure ⟨hn, h⟩
  · exact (directives true fuel).bind fun _ _ =>
      (optionalMany (inputValue fuel) fuel _ _).bind fun _ h => .pure ⟨hn, h⟩
  · exact (interfaces fuel).bind fun _ hparents => (directives true fuel).bind fun _ _ =>
      (fieldDefinitions fuel).bind fun _ hfields => .pure ⟨hn, hparents, hfields⟩
  · exact (interfaces fuel).bind fun _ hparents => (directives true fuel).bind fun _ _ =>
      (fieldDefinitions fuel).bind fun _ hfields => .pure ⟨hn, hparents, hfields⟩

theorem typeDefinition (fuel : Nat) :
    Yields (Read.typeDefinition fuel) fun x => x.IsProper ∧ x.IsNamed :=
  description?.bind fun _ _ => name.bind fun keyword _ =>
    (typeContent keyword fuel).bind fun _ ⟨hname, hbody⟩ =>
    .pure ⟨⟨hname, hbody⟩, trivial⟩

theorem schemaDefinition (fuel : Nat) :
    Yields (Read.schemaDefinition fuel) fun x => x.IsProper ∧ x.IsNamed :=
  description?.bind fun _ _ => (expectWord "schema").bind fun _ _ =>
    (directives true fuel).bind fun _ _ =>
    (many rootType fuel _ _).bind fun _ ⟨_, hroots⟩ => .pure ⟨hroots, trivial⟩

theorem directiveDefinition (fuel : Nat) :
    Yields (Read.directiveDefinition fuel) fun x => x.IsProper ∧ x.IsNamed :=
  description?.bind fun _ _ => (expectWord "directive").bind fun _ _ =>
    (expectMark "@").bind fun _ _ =>
    name.bind fun _ hname => (optionalMany (inputValue fuel) fuel _ _).bind fun _ harguments =>
    (optionalWord "repeatable").bind fun _ _ => (expectWord "on").bind fun _ _ =>
    (delimited location fuel "|").bind fun _ ⟨hlocations, _⟩ =>
      .pure ⟨⟨hname, harguments, hlocations⟩, trivial⟩

theorem extension (fuel : Nat) : Yields (Read.extension fuel) fun x => x.IsProper ∧ x.IsNamed := by
  refine lookahead.bind fun keyword _ => .ite (fun _ => ?_) fun _ => .ite (fun _ => ?_) fun _ =>
    unexpectedAt keyword
  · exact (expectWord "extend").bind fun _ _ => (expectWord "schema").bind fun _ _ =>
      (directives true fuel).bind fun _ _ =>
      (optionalMany rootType fuel _ _).bind fun _ hroots => .ite (fun _ => unexpected) fun _ =>
        .pure ⟨hroots, trivial⟩
  · exact (expectWord "extend").bind fun _ _ => name.bind fun word _ =>
      (typeContent word fuel).bind fun _ ⟨hname, hbody⟩ =>
      .ite (fun _ => unexpected) fun _ => .pure ⟨⟨hname, hbody⟩, trivial⟩

theorem definition (fuel : Nat) :
    Yields (Read.definition fuel) fun x => x.IsProper ∧ x.IsNamed := by
  refine (peekMark _).bind fun _ _ =>
    .ite (fun _ => (operation fuel).bind fun _ h => .pure ⟨trivial, h⟩) fun _ => ?_
  refine peekDescription.bind fun described _ => .branch lookahead current fun keyword _ => ?_
  refine .ite (fun _ => current.bind fun _ _ => fail _ _) fun _ => .ite (fun _ => ?_) fun _ =>
    unexpectedAt keyword
  dsimp only
  split
  · exact schemaDefinition fuel
  split
  · exact typeDefinition fuel
  split
  · exact directiveDefinition fuel
  split
  · exact (operation fuel).bind fun _ h => .pure ⟨trivial, h⟩
  split
  · exact (fragment fuel).bind fun _ h => .pure ⟨trivial, h⟩
  refine .ite (fun _ => current.bind fun _ _ => fail _ _) fun _ => ?_
  split
  · exact extension fuel
  · exact unexpectedAt keyword

theorem document (fuel : Nat) :
    Yields (Read.document fuel) fun d => ∀ x ∈ d.definitions, x.IsProper ∧ x.IsNamed :=
  (definition fuel).bind fun _ hfirst => (itemsUntil (definition fuel) fuel _).bind fun _ hrest =>
    .pure (List.forall_mem_cons.mpr ⟨hfirst, hrest⟩)

end Yields

theorem isProper_and_isNamed_of_read {source : Source} {d : Document}
    (h : Document.read source = .ok d) : ∀ x ∈ d.definitions, x.IsProper ∧ x.IsNamed := by
  obtain ⟨⟨t, c⟩, hc, h⟩ := bind_eq_ok.mp h
  obtain ⟨⟨d', c'⟩, hd, h⟩ := bind_eq_ok.mp h
  have hstart : Cursor.IsSound ⟨source, ⟨.endOfFile, "", 0⟩, .scan source⟩ :=
    ⟨trivial, sound_scan source⟩
  cases h
  exact (Yields.document _ (Yields.advance hstart hc).2 hd).1

/-- **Documents are proper.** What is read from a text is made of what a text can spell. -/
theorem isProper_of_read {source : Source} {d : Document} (h : Document.read source = .ok d) :
    ∀ x ∈ d.definitions, x.IsProper :=
  fun x hx => (isProper_and_isNamed_of_read h x hx).1

/-- **Documents have names.** So do the executable definitions that are read from a text. -/
theorem isNamed_of_read {source : Source} {d : Document} (h : Document.read source = .ok d) :
    ∀ x ∈ d.definitions, x.IsNamed :=
  fun x hx => (isProper_and_isNamed_of_read h x hx).2

end Graphwright.Document
