import Mathlib.Logic.Relation
import Graphwright.Response.Shape

/-!
# What selections ask for

`Response.collect` is a walk with a memory: of the nodes it is in, of the fragments that are being
expanded and of those that have been. `Asks env parent? ss fields` says the same without any of
these: a derivation knows the type that selections are made on and expands every spread anew, by the
selections of its fragment.

A derivation is finite, so the spreads it expands lead to no fragment twice on one chain
(`Asks.terminates`), and it has one answer (`Asks.unique`). What a fragment stands for wherever it
is spread, `Expands`, is what its selections ask for on its own type.
-/
namespace Graphwright.Response

open Document Relation

/-! ## Spreads between fragments -/

/-- The fragment `a` spreads the fragment `b` somewhere in its selections. -/
def Spreads (fragments : List (String × Fragment)) (a b : String) : Prop :=
  ∃ f, fragments.lookup a = some f ∧ b ∈ spreadsIn f.selections

/-- Spreads lead from one fragment to another, in one step or more. -/
def Reaches (fragments : List (String × Fragment)) : String → String → Prop :=
  TransGen (Spreads fragments)

/-- No chain of spreads from a fragment is infinite. -/
def Terminates (fragments : List (String × Fragment)) : String → Prop :=
  Acc fun b a => Spreads fragments a b

/-- What spreads only fragments from which no chain is infinite begins no infinite chain. -/
theorem Terminates.of_spreads {fragments : List (String × Fragment)} {name : String}
    (h : ∀ f, fragments.lookup name = some f →
      ∀ m ∈ spreadsIn f.selections, Terminates fragments m) :
    Terminates fragments name :=
  Acc.intro _ fun m ⟨f, hf, hm⟩ => h f hf m hm

theorem Terminates.not_reaches {fragments : List (String × Fragment)} {name : String}
    (h : Terminates fragments name) : ¬ Reaches fragments name name := by
  induction h with
  | intro a _ ih =>
    intro hr
    obtain ⟨b, hab, hba⟩ := TransGen.head'_iff.mp hr
    exact ih b hab (TransGen.tail' hba hab)

/-! ## Types that selections are made on -/

/-- The type of a field, if the type that it is selected on is known. -/
def fieldTypeOn (s : Schema) (parent? : Option TypeDefinition) (name : String) : Option TypeRef :=
  parent?.bind fun p => s.fieldType? p name

/-- The type that the selections of an inline fragment are made on. -/
def inlineType (s : Schema) (parent? : Option TypeDefinition) :
    Option String → Option TypeDefinition
  | some name => s.composite? name
  | none => parent?

def rootOf (s : Schema) (kind : OperationKind) : Option TypeDefinition :=
  ((s.root? kind).bind s.type?).filter Schema.isObject

/-! ## What selections ask for -/

/-- `Asks env parent? ss fields`: on `parent?` the selections ask for the fields. -/
inductive Asks (env : Env) : Option TypeDefinition → List Selection → List Field → Prop
  | nil {parent?} : Asks env parent? [] []
  | typename {parent? alias? arguments ds rest more} :
      Asks env parent? rest more →
      Asks env parent? (.field alias? "__typename" arguments ds none :: rest)
        (.mk (alias?.getD "__typename") none none (hasCondition ds) :: more)
  | typenameOver {parent? alias? arguments ds sub below rest more} :
      Asks env (env.schema.compositeBase? (fieldTypeOn env.schema parent? "__typename")) sub below →
      Asks env parent? rest more →
      Asks env parent? (.field alias? "__typename" arguments ds (some sub) :: rest)
        (.mk (alias?.getD "__typename") none none (hasCondition ds) :: more)
  | leaf {parent? alias? name arguments ds type rest more} :
      name ≠ "__typename" → fieldTypeOn env.schema parent? name = some type →
      Asks env parent? rest more →
      Asks env parent? (.field alias? name arguments ds none :: rest)
        (.mk (alias?.getD name) (some type) none (hasCondition ds) :: more)
  | node {parent? alias? name arguments ds type sub below rest more} :
      name ≠ "__typename" → fieldTypeOn env.schema parent? name = some type →
      Asks env (env.schema.compositeBase? (some type)) sub below → Asks env parent? rest more →
      Asks env parent? (.field alias? name arguments ds (some sub) :: rest)
        (.mk (alias?.getD name) (some type) (some (merge below)) (hasCondition ds) :: more)
  | inline {parent? on? ds sub below rest more} :
      Asks env (inlineType env.schema parent? on?) sub below → Asks env parent? rest more →
      Asks env parent? (.inline on? ds sub :: rest)
        (markConditional (hasCondition ds || isElsewhere on? parent?) (merge below) ++ more)
  | spread {parent? name ds f below rest more} :
      env.fragments.lookup name = some f → (env.schema.type? f.on).isSome →
      Asks env (env.schema.composite? f.on) f.selections below → Asks env parent? rest more →
      Asks env parent? (.spread name ds :: rest)
        (markConditional (hasCondition ds || isElsewhere (some f.on) parent?) (merge below) ++ more)

variable {env : Env} {parent? : Option TypeDefinition} {ss : List Selection} {fields : List Field}

/-! ### One selection at a time -/

theorem asks_cons {s : Selection} {rest : List Selection} {first more : List Field}
    (h : Asks env parent? [s] first) (hr : Asks env parent? rest more) :
    Asks env parent? (s :: rest) (first ++ more) := by
  cases h with
  | typename h => cases h; exact .typename hr
  | typenameOver hs h => cases h; exact .typenameOver hs hr
  | leaf hn ht h => cases h; exact .leaf hn ht hr
  | node hn ht hs h => cases h; exact .node hn ht hs hr
  | inline hs h => cases h; simpa using Asks.inline hs hr
  | spread hf ht hs h => cases h; simpa using Asks.spread hf ht hs hr

theorem asks_cons_iff {s : Selection} {rest : List Selection} :
    Asks env parent? (s :: rest) fields ↔
      ∃ first more, fields = first ++ more ∧ Asks env parent? [s] first ∧
      Asks env parent? rest more := by
  constructor
  · intro h
    cases h with
    | typename hr => exact ⟨[_], _, rfl, .typename .nil, hr⟩
    | typenameOver hs hr => exact ⟨[_], _, rfl, .typenameOver hs .nil, hr⟩
    | leaf hn ht hr => exact ⟨[_], _, rfl, .leaf hn ht .nil, hr⟩
    | node hn ht hs hr => exact ⟨[_], _, rfl, .node hn ht hs .nil, hr⟩
    | inline hs hr => exact ⟨_, _, rfl, by simpa using Asks.inline hs .nil, hr⟩
    | spread hf ht hs hr => exact ⟨_, _, rfl, by simpa using Asks.spread hf ht hs .nil, hr⟩
  · rintro ⟨first, more, rfl, hs, hr⟩
    exact asks_cons hs hr

/-- What the selections below a field ask for, unless the field is a leaf. -/
def AsksBelow (env : Env) (type? : Option TypeRef) (sub? : Option (List Selection))
    (children? : Option (List Field)) : Prop :=
  match sub? with
  | none => children? = none
  | some sub => ∃ below, Asks env (env.schema.compositeBase? type?) sub below ∧
      children? = some (merge below)

theorem asks_field_iff {alias? : Option String} {name : String} {arguments : List (String × Value)}
    {ds : List Directive} {sub? : Option (List Selection)} :
    Asks env parent? [.field alias? name arguments ds sub?] fields ↔
      ∃ children?, AsksBelow env (fieldTypeOn env.schema parent? name) sub? children? ∧
        if name = "__typename" then fields = [.mk (alias?.getD name) none none (hasCondition ds)]
        else ∃ type, fieldTypeOn env.schema parent? name = some type ∧
          fields = [.mk (alias?.getD name) (some type) children? (hasCondition ds)] := by
  constructor
  · intro h
    cases h with
    | typename h => cases h; exact ⟨none, rfl, by rw [if_pos rfl]⟩
    | typenameOver hs h => cases h; exact ⟨_, ⟨_, hs, rfl⟩, by rw [if_pos rfl]⟩
    | leaf hn ht h => cases h; exact ⟨none, rfl, by rw [if_neg hn]; exact ⟨_, ht, rfl⟩⟩
    | node hn ht hs h =>
      cases h
      exact ⟨_, ⟨_, ht ▸ hs, rfl⟩, by rw [if_neg hn]; exact ⟨_, ht, rfl⟩⟩
  · rintro ⟨children?, hbelow, hfields⟩
    cases sub? with
    | none =>
      obtain rfl := hbelow
      split at hfields
      · rename_i hn
        obtain rfl := hfields
        subst hn
        exact .typename .nil
      · rename_i hn
        obtain ⟨type, ht, rfl⟩ := hfields
        exact .leaf hn ht .nil
    | some sub =>
      obtain ⟨below, hs, rfl⟩ := hbelow
      split at hfields
      · rename_i hn
        obtain rfl := hfields
        subst hn
        exact .typenameOver hs .nil
      · rename_i hn
        obtain ⟨type, ht, rfl⟩ := hfields
        exact .node hn ht (ht ▸ hs) .nil

theorem asks_inline_iff {on? : Option String} {ds : List Directive} {sub : List Selection} :
    Asks env parent? [.inline on? ds sub] fields ↔
      ∃ below, Asks env (inlineType env.schema parent? on?) sub below ∧
        fields = markConditional (hasCondition ds || isElsewhere on? parent?) (merge below) := by
  constructor
  · intro h
    cases h with
    | inline hs h => cases h; exact ⟨_, hs, List.append_nil _⟩
  · rintro ⟨below, hs, rfl⟩
    simpa using Asks.inline hs .nil

/-- Selections ask for one list of fields. -/
theorem Asks.unique (h : Asks env parent? ss fields) :
    ∀ fields', Asks env parent? ss fields' → fields = fields' := by
  induction h with
  | nil => intro _ h'; cases h'; rfl
  | typename _ ih =>
    intro _ h'
    cases h' with
    | typename h => rw [ih _ h]
    | leaf hn => exact absurd rfl hn
  | typenameOver _ _ _ ih =>
    intro _ h'
    cases h' with
    | typenameOver _ h => rw [ih _ h]
    | node hn => exact absurd rfl hn
  | leaf hn ht _ ih =>
    intro _ h'
    cases h' with
    | typename => exact absurd rfl hn
    | leaf _ ht' h => rw [ih _ h, Option.some.inj (ht.symm.trans ht')]
  | node hn ht _ _ ihs ih =>
    intro _ h'
    cases h' with
    | typenameOver => exact absurd rfl hn
    | node _ ht' hs h =>
      obtain rfl := Option.some.inj (ht.symm.trans ht')
      rw [ihs _ hs, ih _ h]
  | inline _ _ ihs ih =>
    intro _ h'
    cases h' with
    | inline hs h => rw [ihs _ hs, ih _ h]
  | spread hf _ _ _ ihs ih =>
    intro _ h'
    cases h' with
    | spread hf' _ hs h =>
      obtain rfl := Option.some.inj (hf.symm.trans hf')
      rw [ihs _ hs, ih _ h]

/-- Selections that ask for fields at all expand finitely many fragments. -/
theorem Asks.terminates (h : Asks env parent? ss fields) :
    ∀ name ∈ spreadsIn ss, Terminates env.fragments name := by
  induction h with
  | nil => simp [spreadsIn]
  | typename _ ih => simpa [spreadsIn, Selection.spreads, spreadsBelow] using ih
  | leaf _ _ _ ih => simpa [spreadsIn, Selection.spreads, spreadsBelow] using ih
  | typenameOver _ _ ihs ih =>
    intro name hname
    simp only [spreadsIn, Selection.spreads, spreadsBelow, List.mem_append] at hname
    exact hname.elim (ihs name) (ih name)
  | node _ _ _ _ ihs ih =>
    intro name hname
    simp only [spreadsIn, Selection.spreads, spreadsBelow, List.mem_append] at hname
    exact hname.elim (ihs name) (ih name)
  | inline _ _ ihs ih =>
    intro name hname
    simp only [spreadsIn, Selection.spreads, List.mem_append] at hname
    exact hname.elim (ihs name) (ih name)
  | @spread _ n _ f _ _ _ hf _ _ _ ihs ih =>
    intro name hname
    simp only [spreadsIn, Selection.spreads, List.cons_append, List.nil_append,
      List.mem_cons] at hname
    rcases hname with rfl | hname
    · refine .of_spreads fun g hg m hm => ?_
      obtain rfl := Option.some.inj (hf.symm.trans hg)
      exact ihs m hm
    · exact ih name hname

/-! ## What fragments stand for -/

/-- The fields that a fragment stands for wherever it is spread. -/
def Expands (env : Env) (name : String) (fields : List Field) : Prop :=
  ∃ f below, env.fragments.lookup name = some f ∧ (env.schema.type? f.on).isSome ∧
    Asks env (env.schema.composite? f.on) f.selections below ∧ fields = merge below

theorem asks_spread_iff {name : String} {ds : List Directive} {f : Fragment}
    (hf : env.fragments.lookup name = some f) :
    Asks env parent? [.spread name ds] fields ↔
      ∃ below, Expands env name below ∧
        fields = markConditional (hasCondition ds || isElsewhere (some f.on) parent?) below := by
  constructor
  · intro h
    cases h with
    | spread hg ht hs h =>
      cases h
      obtain rfl := Option.some.inj (hf.symm.trans hg)
      exact ⟨_, ⟨f, _, hf, ht, hs, rfl⟩, List.append_nil _⟩
  · rintro ⟨_, ⟨g, below, hg, ht, hs, rfl⟩, rfl⟩
    obtain rfl := Option.some.inj (hf.symm.trans hg)
    simpa using Asks.spread hf ht hs .nil

/-- A fragment that reaches itself stands for nothing. -/
theorem Expands.not_reaches {name : String} (h : Expands env name fields) :
    ¬ Reaches env.fragments name name := by
  obtain ⟨f, below, hf, -, hs, -⟩ := h
  refine Terminates.not_reaches (.of_spreads fun g hg m hm => ?_)
  obtain rfl := Option.some.inj (hf.symm.trans hg)
  exact hs.terminates m hm

theorem Expands.unique {name : String} {fields' : List Field} (h : Expands env name fields)
    (h' : Expands env name fields') : fields = fields' := by
  obtain ⟨f, below, hf, -, hbelow, rfl⟩ := h
  obtain ⟨g, below', hg, -, hbelow', rfl⟩ := h'
  obtain rfl := Option.some.inj (hf.symm.trans hg)
  rw [hbelow.unique _ hbelow']

end Graphwright.Response
