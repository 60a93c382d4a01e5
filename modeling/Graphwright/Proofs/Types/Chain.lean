import Mathlib.Data.List.Chain
import Graphwright.Types.Reference
import Graphwright.Proofs.Document.Proper
import Graphwright.Proofs.Lists
import Graphwright.Proofs.Module.References

/-!
# Chains of wrappers

Lists and non-null marks stand around a named type, in a written type as well as in one that a
schema holds; seen from the outside to the inside they are a chain of wrappers. The mapper sees
nothing else of a reference but this chain and the name at its end (`resolveReference_eq`),
whichever form the reference has.

What the chain comes to is said by its positions, which are its lists and the named type
(`positions`). A position is nullable unless a non-null mark is directly around it. A list position
gives a list constructor and a nullable position gives a mark for optional values in front of it;
the expression has these constructors around the innermost one in the order of the chain, and needs
their imports.

No two non-null marks follow each other: a text cannot spell it (`marksApart_of_isProper`) and a
schema cannot hold it. From the expression of such a chain the chain can be read back
(`wrappers_layered`), so nothing of it is lost.
-/
namespace Graphwright.Types

open Document (TypeRef TypeDefinition)

/-! ## Wrappers -/

/-- What stands around a type. -/
inductive Wrapper where
  | list
  | nonNull
  deriving Repr, DecidableEq

/-- The wrappers of a written type, from the outside to the inside. -/
def wrappersOf : TypeRef → List Wrapper
  | .named _ => []
  | .list item => .list :: wrappersOf item
  | .nonNull inner => .nonNull :: wrappersOf inner

/-- The wrappers of a type of a schema, from the outside to the inside. -/
def SchemaType.wrappers : SchemaType → List Wrapper
  | named _ => []
  | list item => .list :: item.wrappers
  | nonNull inner => .nonNull :: inner.wrappers

/-- The wrappers of a reference, from the outside to the inside. -/
def Reference.wrappers : Reference → List Wrapper
  | written ref => wrappersOf ref
  | held type => type.wrappers

/-- No two non-null marks follow each other. -/
def MarksApart (chain : List Wrapper) : Prop :=
  chain.IsChain fun outer inner => ¬(outer = .nonNull ∧ inner = .nonNull)

instance (chain : List Wrapper) : Decidable (MarksApart chain) :=
  inferInstanceAs (Decidable (List.IsChain _ _))

theorem MarksApart.tail {w : Wrapper} {chain : List Wrapper} (h : MarksApart (w :: chain)) :
    MarksApart chain :=
  (List.isChain_cons.mp h).2

theorem MarksApart.head?_ne {chain : List Wrapper} (h : MarksApart (.nonNull :: chain)) :
    chain.head? ≠ some .nonNull :=
  fun hhead => (List.isChain_cons.mp h).1 .nonNull hhead ⟨rfl, rfl⟩

theorem head?_wrappersOf (ref : TypeRef) :
    (wrappersOf ref).head? = some .nonNull ↔ ref.isNonNull := by
  cases ref <;> simp [wrappersOf, TypeRef.isNonNull]

/-- What has been read from a text has its marks apart. -/
theorem marksApart_of_isProper {ref : TypeRef} (h : ref.IsProper) :
    MarksApart (wrappersOf ref) := by
  induction h with
  | named _ => exact .nil
  | list _ ih => exact List.isChain_cons.mpr ⟨fun _ _ hmarks => (nomatch hmarks.1), ih⟩
  | @nonNull inner _ hinner ih =>
    refine List.isChain_cons.mpr ⟨fun w hw hmarks => ?_, ih⟩
    rw [hmarks.2] at hw
    rw [(head?_wrappersOf inner).mp hw] at hinner
    cases hinner

/-! ## Positions -/

/-- A list or the named type of a chain. -/
structure Position where
  isList : Bool
  isNullable : Bool
  deriving Repr, DecidableEq

/-- The positions of a chain that has something around it: each wrapper and the named type at the
end, but for the non-null marks, with what is directly around them. -/
def positionsIn (around? : Option Wrapper) (chain : List Wrapper) : List Position :=
  ((around? :: chain.map some).zip (chain.map some ++ [none])).filterMap fun (around?, own?) =>
    if own? = some .nonNull then none else some ⟨own?.isSome, around? ≠ some .nonNull⟩

/-- The positions of a chain, from the outside to the inside. -/
def positions (chain : List Wrapper) : List Position := positionsIn none chain

@[simp]
theorem positionsIn_nil (around? : Option Wrapper) :
    positionsIn around? [] = [⟨false, around? ≠ some .nonNull⟩] :=
  rfl

@[simp]
theorem positionsIn_list (around? : Option Wrapper) (rest : List Wrapper) :
    positionsIn around? (.list :: rest) =
      ⟨true, around? ≠ some .nonNull⟩ :: positionsIn (some .list) rest :=
  rfl

@[simp]
theorem positionsIn_nonNull (around? : Option Wrapper) (rest : List Wrapper) :
    positionsIn around? (.nonNull :: rest) = positionsIn (some .nonNull) rest :=
  rfl

/-- The constructors of a position, from the outside to the inside. -/
def Position.constructors (p : Position) : List Symbol :=
  (if p.isNullable then [optionalSymbol] else []) ++ if p.isList then [listSymbol] else []

/-- The constructors of several positions. -/
def constructors (ps : List Position) : List Symbol := ps.flatMap (·.constructors)

theorem exists_isList_iff {around? : Option Wrapper} {chain : List Wrapper} :
    (∃ p ∈ positionsIn around? chain, p.isList) ↔ .list ∈ chain := by
  induction chain generalizing around? with
  | nil => simp
  | cons w rest ih =>
    cases w with
    | list => simp
    | nonNull => simp [ih]

theorem mem_constructors {ps : List Position} {symbol : Symbol} :
    symbol ∈ constructors ps ↔
      symbol = listSymbol ∧ (∃ p ∈ ps, p.isList) ∨
        symbol = optionalSymbol ∧ ∃ p ∈ ps, p.isNullable := by
  simp only [constructors, List.mem_flatMap, Position.constructors, List.mem_append,
    List.mem_ite_nil_right, List.mem_singleton]
  constructor
  · rintro ⟨p, hp, ⟨hnullable, rfl⟩ | ⟨hlist, rfl⟩⟩
    · exact .inr ⟨rfl, p, hp, hnullable⟩
    · exact .inl ⟨rfl, p, hp, hlist⟩
  · rintro (⟨rfl, p, hp, hlist⟩ | ⟨rfl, p, hp, hnullable⟩)
    · exact ⟨p, hp, .inr ⟨hlist, rfl⟩⟩
    · exact ⟨p, hp, .inl ⟨hnullable, rfl⟩⟩

/-! ## Wrapping along a chain -/

/-- The expression of a chain of wrappers around a named type. -/
def layered (base : NamedType) : (nullable : Bool) → List Wrapper → Expr × List Symbol
  | nullable, [] => marked nullable (.name base.text, base.imports)
  | nullable, .list :: rest =>
    let (e, used) := layered base true rest
    marked nullable (.list e, used ++ [listSymbol])
  | _, .nonNull :: rest => layered base false rest

mutual

theorem wrap_eq (base : NamedType) :
    ∀ ref : TypeRef, wrap base ref = layered base true (wrappersOf ref)
  | .named _ => rfl
  | .list item => by
    rw [wrap, wrappersOf, layered, wrap_eq base item]
    simp [marked]
  | .nonNull inner => by
    rw [wrap, wrappersOf, layered, wrapRequired_eq base inner]

theorem wrapRequired_eq (base : NamedType) :
    ∀ ref : TypeRef, wrapRequired base ref = layered base false (wrappersOf ref)
  | .named _ => rfl
  | .list item => by
    rw [wrapRequired, wrappersOf, layered, wrap_eq base item]
    rfl
  | .nonNull inner => by
    rw [wrapRequired, wrappersOf, layered, wrapRequired_eq base inner]

end

theorem wrapHeld_eq (base : NamedType) (nullable : Bool) (t : SchemaType) :
    wrapHeld base nullable t = layered base nullable t.wrappers := by
  induction t generalizing nullable with
  | named _ => rfl
  | list item ih => rw [wrapHeld, SchemaType.wrappers, layered, ih]
  | nonNull inner ih => rw [wrapHeld, SchemaType.wrappers, layered, ih]

/-- The named type that a reference resolves around. -/
def Mapper.innermost (m : Mapper) (ref : Reference) (base? : Option NamedType) : NamedType :=
  base?.getD (m.named ref.base)

/-- The mapper sees the chain of wrappers and the named type of a reference, and nothing else of
it. -/
theorem resolveReference_eq (m : Mapper) (ref : Reference) (base? : Option NamedType) :
    m.resolveReference ref base? =
      ⟨(layered (m.innermost ref base?) true ref.wrappers).1,
        (layered (m.innermost ref base?) true ref.wrappers).2.eraseDups⟩ := by
  cases ref with
  | written ref =>
    rw [Mapper.resolveReference, Mapper.resolve, wrap_eq]
    rfl
  | held t =>
    rw [Mapper.resolveReference, wrapHeld_eq]
    rfl

/-- The constructors around the innermost expression are those of the positions. -/
theorem names_layered (base : NamedType) (around? : Option Wrapper) (chain : List Wrapper) :
    (layered base (around? ≠ some .nonNull) chain).1.names =
      (constructors (positionsIn around? chain)).map (·.1) ++ [base.text] := by
  induction chain generalizing around? with
  | nil =>
    by_cases h : around? = some .nonNull <;>
      simp [layered, marked, h, constructors, Position.constructors, Expr.names]
  | cons w rest ih =>
    cases w with
    | list =>
      have ih := ih (some .list)
      simp only [ne_eq, reduceCtorEq, not_false_eq_true, decide_true, Option.some.injEq] at ih
      by_cases h : around? = some .nonNull <;>
        simp [layered, marked, h, constructors, Position.constructors, Expr.names, ih]
    | nonNull => simpa [layered] using ih (some .nonNull)

/-- The imports of an expression are those of the innermost expression and of the constructors, from
the inside to the outside. -/
theorem imports_layered (base : NamedType) (around? : Option Wrapper) (chain : List Wrapper) :
    (layered base (around? ≠ some .nonNull) chain).2 =
      base.imports ++ (constructors (positionsIn around? chain)).reverse := by
  induction chain generalizing around? with
  | nil =>
    by_cases h : around? = some .nonNull <;>
      simp [layered, marked, h, constructors, Position.constructors]
  | cons w rest ih =>
    cases w with
    | list =>
      have ih := ih (some .list)
      simp only [ne_eq, reduceCtorEq, not_false_eq_true, decide_true, Option.some.injEq] at ih
      by_cases h : around? = some .nonNull <;>
        simp [layered, marked, h, constructors, Position.constructors, ih]
    | nonNull => simpa [layered] using ih (some .nonNull)

/-! ## Reading a chain back -/

/-- The wrappers that an expression comes from. -/
def Expr.wrappers : Expr → List Wrapper
  | .optional (.list item) => .list :: item.wrappers
  | .optional _ => []
  | .list item => .nonNull :: .list :: item.wrappers
  | .name _ => [.nonNull]

/-- The chain can be read back from the expression. Directly inside a non-null mark, where no other
one follows, it is read with that mark. -/
theorem wrappers_layered (base : NamedType) {chain : List Wrapper} (h : MarksApart chain) :
    (layered base true chain).1.wrappers = chain ∧
      (chain.head? ≠ some .nonNull →
        (layered base false chain).1.wrappers = .nonNull :: chain) := by
  induction chain with
  | nil => exact ⟨rfl, fun _ => rfl⟩
  | cons w rest ih =>
    obtain ⟨hnullable, hrequired⟩ := ih h.tail
    cases w with
    | list => simp [layered, marked, Expr.wrappers, hnullable]
    | nonNull => exact ⟨hrequired h.head?_ne, fun hhead => (hhead rfl).elim⟩

/-- The name inside all constructors of an expression. -/
def Expr.innermost : Expr → String
  | .name text => text
  | .list item => item.innermost
  | .optional inner => inner.innermost

theorem innermost_layered (base : NamedType) (nullable : Bool) (chain : List Wrapper) :
    (layered base nullable chain).1.innermost = base.text := by
  induction chain generalizing nullable with
  | nil => cases nullable <;> rfl
  | cons w rest ih =>
    cases w with
    | list => cases nullable <;> exact ih true
    | nonNull => exact ih false

theorem ne_constructor {name constructor inside : String} (h : '[' ∉ name.toList)
    (hconstructor : '[' ∈ constructor.toList) :
    name ≠ constructor ++ inside ++ "]" := by
  rintro rfl
  refine h ?_
  rw [String.toList_append, String.toList_append]
  exact List.mem_append_left _ (List.mem_append_left _ hconstructor)

theorem Expr.text_list_ne_optional (item inner : Expr) :
    (list item).text ≠ (optional inner).text := by
  intro h
  have hfirst := congrArg (·.toList.head?) h
  simp [text] at hfirst

/-- Expressions around names without brackets have their own texts. -/
theorem Expr.text_injective {e e' : Expr} (he : '[' ∉ e.innermost.toList)
    (he' : '[' ∉ e'.innermost.toList) (h : e.text = e'.text) : e = e' := by
  have hlist : '[' ∈ "List[".toList := by decide
  have hoptional : '[' ∈ "Optional[".toList := by decide
  induction e generalizing e' with
  | name own =>
    cases e' with
    | name own' => exact congrArg name h
    | list item => exact (ne_constructor he hlist h).elim
    | optional inner => exact (ne_constructor he hoptional h).elim
  | list item ih =>
    cases e' with
    | name own' => exact (ne_constructor he' hlist h.symm).elim
    | list item' =>
      rw [text, text, String.append_left_inj, String.append_right_inj] at h
      exact congrArg list (ih he he' h)
    | optional inner' => exact (text_list_ne_optional item inner' h).elim
  | optional inner ih =>
    cases e' with
    | name own' => exact (ne_constructor he' hoptional h.symm).elim
    | list item' => exact (text_list_ne_optional item' inner h.symm).elim
    | optional inner' =>
      rw [text, text, String.append_left_inj, String.append_right_inj] at h
      exact congrArg optional (ih he he' h)

/-! ## What references resolve to -/

theorem text_resolveReference (m : Mapper) (ref : Reference) (base? : Option NamedType) :
    (m.resolveReference ref base?).text =
      nested ((constructors (positions ref.wrappers)).map (·.1) ++
        [(m.innermost ref base?).text]) := by
  rw [resolveReference_eq, Resolved.text, Expr.text_eq]
  exact congrArg nested (names_layered (m.innermost ref base?) none ref.wrappers)

/-- **Nullability.** The expression of a reference is its innermost expression inside the
constructors of its positions: a list constructor for each list, and a mark for optional values in
front of it, or of the innermost expression, exactly where no non-null mark is directly around the
position. So expressions around the same text are equal only for equal chains of wrappers, in
whatever form the references are. -/
theorem nullability_kept (m : Mapper) (base? : Option NamedType) :
    (∀ ref : Reference, (m.resolveReference ref base?).text =
      nested ((constructors (positions ref.wrappers)).map (·.1) ++
        [(m.innermost ref base?).text])) ∧
    ∀ a b : Reference, MarksApart a.wrappers → MarksApart b.wrappers →
      (m.innermost a base?).text = (m.innermost b base?).text →
      '[' ∉ (m.innermost a base?).text.toList →
      ((m.resolveReference a base?).text = (m.resolveReference b base?).text ↔
        a.wrappers = b.wrappers) := by
  refine ⟨fun ref => text_resolveReference m ref base?, fun a b ha hb hinner hplain => ?_⟩
  refine ⟨fun htext => ?_, fun hchain => ?_⟩
  · rw [resolveReference_eq, resolveReference_eq] at htext
    have hexpr := Expr.text_injective (by rwa [innermost_layered])
      (by rwa [innermost_layered, ← hinner]) htext
    rw [← (wrappers_layered _ ha).1, ← (wrappers_layered _ hb).1]
    exact congrArg Expr.wrappers hexpr
  · rw [text_resolveReference, text_resolveReference, hchain, hinner]

/-- `[[Int!]]` written and `[[Int]]!` held by a schema have expressions that differ. -/
theorem nullability_kept_nested :
    let written : Reference := .written (.list (.list (.nonNull (.named "Int"))))
    let held : Reference :=
      .held (.nonNull (.list (.list (.named { name := "Int", body := .scalar }))))
    let m : Mapper := { schema? := none }
    MarksApart written.wrappers ∧ MarksApart held.wrappers ∧
      (m.innermost written none).text = (m.innermost held none).text ∧
      '[' ∉ (m.innermost written none).text.toList ∧
      ((m.resolveReference written none).text = (m.resolveReference held none).text ↔
        written.wrappers = held.wrappers) := by
  intro written held m
  have hwritten : MarksApart written.wrappers := by decide
  have hheld : MarksApart held.wrappers := by decide
  have hinner : (m.innermost written none).text = (m.innermost held none).text := by decide
  have hplain : '[' ∉ (m.innermost written none).text.toList := by decide
  exact ⟨hwritten, hheld, hinner, hplain,
    (nullability_kept m none).2 written held hwritten hheld hinner hplain⟩

/-! ## Types that are denoted -/

theorem name_of_type? {s : Schema} {name : String} {t : TypeDefinition}
    (h : s.type? name = some t) : t.name = name := by
  unfold Schema.type? at h
  split at h
  · rename_i hfind
    obtain rfl := Option.some.inj h
    simpa using List.find?_some hfind
  · simpa using List.find?_some h

/-- A schema that has the named type of a reference has the type that it denotes. -/
theorem exists_denoted {s : Schema} {ref : TypeRef} (h : (s.type? ref.base).isSome) :
    ∃ t, denoted? s ref = some t := by
  induction ref with
  | named name =>
    obtain ⟨definition, hdefinition⟩ := Option.isSome_iff_exists.mp h
    exact ⟨.named definition, congrArg (Option.map SchemaType.named) hdefinition⟩
  | list item ih =>
    obtain ⟨t, ht⟩ := ih h
    exact ⟨.list t, by rw [denoted?, ht, Option.map_some]⟩
  | nonNull inner ih =>
    obtain ⟨t, ht⟩ := ih h
    exact ⟨.nonNull t, by rw [denoted?, ht, Option.map_some]⟩

/-- The type that is denoted has the wrappers and the named type of the reference. -/
theorem of_denoted {s : Schema} {ref : TypeRef} {t : SchemaType} (h : denoted? s ref = some t) :
    t.wrappers = wrappersOf ref ∧ t.base = ref.base := by
  induction ref generalizing t with
  | named name =>
    obtain ⟨definition, hdefinition, rfl⟩ := Option.map_eq_some_iff.mp h
    exact ⟨rfl, name_of_type? hdefinition⟩
  | list item ih =>
    obtain ⟨t, ht, rfl⟩ := Option.map_eq_some_iff.mp h
    exact ⟨by rw [SchemaType.wrappers, wrappersOf, (ih ht).1], (ih ht).2⟩
  | nonNull inner ih =>
    obtain ⟨t, ht, rfl⟩ := Option.map_eq_some_iff.mp h
    exact ⟨by rw [SchemaType.wrappers, wrappersOf, (ih ht).1], (ih ht).2⟩

theorem head?_wrappers (t : SchemaType) : t.wrappers.head? = some .nonNull ↔ t.isNonNull := by
  cases t <;> simp [SchemaType.wrappers, SchemaType.isNonNull]

theorem mem_imports_resolveReference {m : Mapper} {ref : Reference} {base? : Option NamedType}
    {symbol : Symbol} :
    symbol ∈ (m.resolveReference ref base?).imports ↔
      symbol ∈ (m.innermost ref base?).imports ∨ symbol = listSymbol ∧ .list ∈ ref.wrappers ∨
        symbol = optionalSymbol ∧ ∃ p ∈ positions ref.wrappers, p.isNullable := by
  have himports := imports_layered (m.innermost ref base?) none ref.wrappers
  rw [resolveReference_eq, List.mem_eraseDups]
  simp only [ne_eq, reduceCtorEq, not_false_eq_true, decide_true] at himports
  rw [himports, List.mem_append, List.mem_reverse, mem_constructors, exists_isList_iff]
  rfl

/-- **Both forms.** A written type whose named type is in a schema denotes a type of that schema,
and both resolve to the same expression with the same imports. The imports are those of the
innermost expression, of the list constructor if there is a list, and of the mark for optional
values if some position is nullable; none is there twice. -/
theorem resolves_alike (s : Schema) (m : Mapper) (base? : Option NamedType) (ref : TypeRef)
    (h : (s.type? ref.base).isSome) :
    ∃ t, denoted? s ref = some t ∧
      m.resolveReference (.written ref) base? = m.resolveReference (.held t) base? ∧
      t.isNonNull = ref.isNonNull ∧ t.base = ref.base ∧
      (m.resolveReference (.written ref) base?).imports.Nodup ∧
      ∀ symbol, symbol ∈ (m.resolveReference (.written ref) base?).imports ↔
        symbol ∈ (m.innermost (.written ref) base?).imports ∨
          symbol = listSymbol ∧ .list ∈ wrappersOf ref ∨
          symbol = optionalSymbol ∧ ∃ p ∈ positions (wrappersOf ref), p.isNullable := by
  obtain ⟨t, ht⟩ := exists_denoted h
  obtain ⟨hwrappers, hbase⟩ := of_denoted ht
  have hinner : m.innermost (.held t) base? = m.innermost (.written ref) base? :=
    congrArg (fun name => base?.getD (m.named name)) hbase
  refine ⟨t, ht, ?_, ?_, hbase, ?_, fun symbol => mem_imports_resolveReference⟩
  · rw [resolveReference_eq, resolveReference_eq, hinner, Reference.wrappers, Reference.wrappers,
      hwrappers]
  · rw [Bool.eq_iff_iff, ← head?_wrappers, ← head?_wrappersOf, hwrappers]
  · rw [resolveReference_eq]
    exact nodup_eraseDups _

/-- A list of users, with the mapper of a module that has its types from elsewhere. -/
theorem resolves_alike_users :
    let s : Schema := { types := [{ name := "User", body := .object [] [] }] }
    let ref : TypeRef := .list (.nonNull (.named "User"))
    let m : Mapper := { schema? := some s, qualifier := "Types." }
    (s.type? ref.base).isSome ∧
      ∃ t, denoted? s ref = some t ∧
        m.resolveReference (.written ref) = m.resolveReference (.held t) := by
  intro s ref m
  have hknown : (s.type? ref.base).isSome := by decide
  obtain ⟨t, ht, heq, -⟩ := resolves_alike s m none ref hknown
  exact ⟨hknown, t, ht, heq⟩

end Graphwright.Types
