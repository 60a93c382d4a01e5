import Graphwright.Proofs.Module.Execution
import Graphwright.Proofs.Module.Spans

/-!
# Registries that are given

A module can be made with a registry that holds entries already. The run then adds to it: what was
there stays in front, and no symbol gets another name (`Registry.Extends`). An empty registry is not
taken up, but left as it is (`Registry.afterwards`).

A span of the text agrees with a registry if its name is the local name of the entry for its symbol
(`Span.Agrees`). Of the symbols that a run records, those that it asks the registry about agree by
themselves. A name that is the symbol's own does so just if the registry has no other name for it
(`Span.Keeps`); that is all there is to it, unless the registry was empty when it was given
(`takesUp`).
-/
namespace Graphwright.Module

open Graphwright.Types (Symbol)

/-! ## Names of entries -/

namespace Registry

/-- The registry has an entry for the symbol, with this local name. -/
def Calls (r : Registry) (symbol : Symbol) (name : String) : Prop :=
  ∃ i, r.get? symbol.1 symbol.2 = some i ∧ i.localName = name

/-- A symbol that is recorded is called by its local name, and by no other. -/
theorem calls_iff {r : Registry} {symbol : Symbol} (h : symbol ∈ r.imports.map (·.key))
    {name : String} : r.Calls symbol name ↔ r.local symbol = name := by
  have hsome : (r.get? symbol.1 symbol.2).isSome := by
    obtain ⟨i, hi, hkey⟩ := List.mem_map.mp h
    exact List.find?_isSome.mpr ⟨i, hi, decide_eq_true hkey⟩
  obtain ⟨i, hget⟩ := Option.isSome_iff_exists.mp hsome
  simp [Calls, Registry.local, nameOf, hget]

theorem not_calls_of_empty {r : Registry} (h : r.imports = []) (symbol : Symbol) (name : String) :
    ¬ r.Calls symbol name := by
  rintro ⟨i, hget, -⟩
  simp [get?, h] at hget

/-- What is recorded is called by the answer. -/
theorem calls_record (r : Registry) (i : Import) : (r.record i).2.Calls i.key (r.record i).1 := by
  obtain ⟨e, hget, hname⟩ := get?_record r i
  exact ⟨e, hget, hname.symm⟩

/-- The registry holds what the other one does, in front, and calls every symbol that is no module
by the same name. -/
structure Extends (r r' : Registry) : Prop where
  imports : r.imports <+: r'.imports
  flag : r'.separateTyping = r.separateTyping
  names : ∀ symbol : Symbol, symbol.1 ≠ wholeModule → r'.local symbol = r.local symbol

namespace Extends

variable {r r' r'' : Registry}

theorem refl (r : Registry) : r.Extends r := ⟨List.prefix_rfl, rfl, fun _ _ => rfl⟩

theorem trans (h : r.Extends r') (h' : r'.Extends r'') : r.Extends r'' where
  imports := h.imports.trans h'.imports
  flag := h'.flag.trans h.flag
  names symbol hsymbol := (h'.names symbol hsymbol).trans (h.names symbol hsymbol)

theorem calls (h : r.Extends r') {symbol : Symbol} {name : String} (hcalls : r.Calls symbol name) :
    r'.Calls symbol name :=
  hcalls.imp fun _ hi => hi.imp_left h.imports.find?_eq_some

theorem keys_subset (h : r.Extends r') : r.imports.map (·.key) ⊆ r'.imports.map (·.key) :=
  List.map_subset _ h.imports.subset

end Extends

/-- Recording adds an entry at the end, if any; only modules are recorded under other names. -/
theorem extends_record (r : Registry) {i : Import}
    (hi : i.symbol ≠ wholeModule → i.asName? = none) : r.Extends (r.record i).2 := by
  cases hget : r.get? i.symbol i.source with
  | some old =>
    rw [record_of_mem hget]
    exact .refl r
  | none =>
    have hnew : ¬ r.imports.any (·.key = i.key) := by
      simpa [Import.key] using List.find?_eq_none.mp hget
    have hinsert : (r.record i).2 = { r with imports := r.imports ++ [i] } := by
      rw [record, hget]
      exact if_neg hnew
    rw [hinsert]
    refine ⟨List.prefix_append _ _, rfl, fun symbol hsymbol => ?_⟩
    unfold Registry.local nameOf Registry.get?
    dsimp only
    rw [List.find?_append]
    cases r.imports.find? fun j => j.key = (symbol.1, symbol.2) with
    | some old => rfl
    | none =>
      by_cases hkey : i.key = (symbol.1, symbol.2)
      · have hname : i.symbol = symbol.1 := congrArg Prod.fst hkey
        have hplain : i.asName? = none := hi (hname ▸ hsymbol)
        simp [hkey, Import.localName, Import.rename?, hplain, hname, hsymbol]
      · simp [hkey]

/-- Several imports, none of which has another name, are recorded one after the other. -/
theorem extends_foldl_record (r : Registry) {is : List Import} (h : ∀ i ∈ is, i.asName? = none) :
    r.Extends (is.foldl (fun r i => (r.record i).2) r) ∧
      is.map (·.key) ⊆ (is.foldl (fun r i => (r.record i).2) r).imports.map (·.key) := by
  induction is generalizing r with
  | nil => exact ⟨.refl r, List.nil_subset _⟩
  | cons i rest ih =>
    obtain ⟨hi, hrest⟩ := List.forall_mem_cons.mp h
    obtain ⟨hextends, hkeys⟩ := ih (r.record i).2 hrest
    obtain ⟨j, hj, hkey⟩ := exists_mem_record r i
    refine ⟨(extends_record r fun _ => hi).trans hextends, List.cons_subset.mpr ⟨?_, hkeys⟩⟩
    exact hextends.keys_subset (List.mem_map.mpr ⟨j, hj, hkey⟩)

theorem extends_recordAll (r : Registry) (pairs : List Symbol) (kind : ImportKind) :
    r.Extends (r.recordAll pairs kind) := by
  have hplain : ∀ i ∈ pairs.map fun p => Import.mk p.1 p.2 kind none, i.asName? = none :=
    List.forall_mem_map.mpr fun _ _ => rfl
  have h := (extends_foldl_record r hplain).1
  rwa [List.foldl_map] at h

theorem extends_qualify (r : Registry) (source? : Option String) (asName : String)
    (kind : ImportKind) : r.Extends (r.qualify source? asName kind).2 := by
  unfold qualify
  split
  · exact extends_record r fun h => (h rfl).elim
  · exact .refl r

/-- What a given registry holds after a run that has ended with another one: an empty one is not
taken up. -/
def afterwards (given result : Registry) : Registry :=
  if given.imports.isEmpty then given else result

theorem orFresh_of_empty {given : Registry} (h : given.imports = []) (separateTyping : Bool) :
    orFresh (some given) separateTyping = orFresh none separateTyping := by
  simp [orFresh, Option.filter, h]

theorem orFresh_of_ne {given : Registry} (h : given.imports ≠ []) (separateTyping : Bool) :
    orFresh (some given) separateTyping = given := by
  simp [orFresh, Option.filter, h]

/-- The module that names are looked up in, if there is one, with the text that they then begin
with. -/
def lookedUp? (r : Registry) (source? : Option String) (kind : ImportKind) :
    Option (Symbol × String) :=
  (source?.filter (· ≠ "")).map fun source =>
    ((wholeModule, source), (r.qualify source? typesName kind).1)

/-- Names that are looked up in a module begin with its local name. -/
theorem calls_of_lookedUp? {r : Registry} {source? : Option String} {kind : ImportKind}
    {symbol : Symbol} {start : String} (h : r.lookedUp? source? kind = some (symbol, start)) :
    ∃ name, (r.qualify source? typesName kind).2.Calls symbol name ∧ start = name ++ "." := by
  unfold lookedUp? qualify at h
  unfold qualify
  cases hsource : source?.filter (· ≠ "") with
  | none =>
    rw [hsource] at h
    cases h
  | some source =>
    rw [hsource] at h
    obtain ⟨rfl, rfl⟩ := Prod.mk.inj (Option.some.inj h)
    exact ⟨_, calls_record r ⟨wholeModule, source, kind, some typesName⟩, rfl⟩

end Registry

/-! ## Spans that agree -/

namespace Span

/-- The name in a span is the local name of the entry for its symbol, or begins with that of its
module. -/
def Agrees (r : Registry) : Span → Prop
  | plain _ => True
  | called symbol => r.Calls symbol (r.local symbol)
  | own name symbols => ∀ symbol ∈ symbols, r.Calls symbol name
  | behind source name => ∃ start, r.Calls source start ∧ (start ++ ".").toList <+: name.toList

/-- The registry has no other name for a symbol that is called by its own. -/
def Keeps (r : Registry) : Span → Prop
  | own name symbols => ∀ symbol ∈ symbols, r.local symbol = name
  | _ => True

instance (r : Registry) : DecidablePred (Keeps r)
  | own name symbols => inferInstanceAs (Decidable (∀ symbol ∈ symbols, r.local symbol = name))
  | plain _ | called _ | behind _ _ => .isTrue trivial

/-- Nothing agrees with an empty registry but text without imported names. -/
theorem agrees_iff_of_empty {r : Registry} (h : r.imports = []) (x : Span) :
    x.Agrees r ↔ x.symbols = [] := by
  cases x with
  | plain text => exact iff_of_true trivial rfl
  | called symbol => simp [Agrees, symbols, Registry.not_calls_of_empty h]
  | own name symbols =>
    simp [Agrees, Span.symbols, Registry.not_calls_of_empty h, List.eq_nil_iff_forall_not_mem]
  | behind source name => simp [Agrees, symbols, Registry.not_calls_of_empty h]

/-- **Agreement.** Where the symbols of a span are recorded, and its module is under the name that
it begins with, it agrees with a registry just if that one has no other names for the symbols that
are called by their own. -/
theorem agrees_iff {r : Registry} {o : Origins} {known : List Symbol} {x : Span}
    (hx : x.Within o known) (hknown : known ⊆ r.imports.map (·.key))
    (hsymbols : o.symbols ⊆ r.imports.map (·.key))
    (hmodule : ∀ source start, o.module? = some (source, start) →
      ∃ name, r.Calls source name ∧ start = name ++ ".") :
    x.Agrees r ↔ x.Keeps r := by
  cases x with
  | plain text => exact .rfl
  | called symbol => exact iff_of_true ((Registry.calls_iff (hknown hx)).mpr rfl) trivial
  | own name symbols =>
    refine forall₂_congr fun symbol hsymbol => Registry.calls_iff ?_
    exact (hx symbol hsymbol).2.elim (fun h => hknown h) (fun h => hsymbols h)
  | behind source name =>
    obtain ⟨start, hstart, hbegins⟩ := hx
    obtain ⟨localName, hcalls, rfl⟩ := hmodule source start hstart
    exact iff_of_true ⟨localName, hcalls, hbegins⟩ trivial

end Span

/-! ## Runs with a given registry -/

/-- How a run that ends with a registry and a text has taken up the one that it was given. -/
structure TakesUp (given result : Registry) (body : List String) (spans : List (List Span)) :
    Prop where
  body : body = spans.map (render result)
  extended : given.imports ≠ [] → given.Extends result
  agrees : ∀ line ∈ spans, ∀ x ∈ line,
    x.Agrees (given.afterwards result) ↔ (given.imports = [] → x.symbols = []) ∧ x.Keeps result

/-- **Given registries.** A run that records what its text names, in the given registry or in a
fresh one, agrees with what the given one holds afterwards wherever it names no symbol by its own
name that has another; and it never does where it names a symbol at all, if the given registry was
empty. -/
theorem takesUp {given result : Registry} {separateTyping : Bool} {body : List String}
    {spans : List (List Span)} {o : Origins} {known : List Symbol}
    (hbody : body = spans.map (render result))
    (hextends : (Registry.orFresh (some given) separateTyping).Extends result)
    (hwithin : ∀ line ∈ spans, Within o known line) (hknown : known ⊆ result.imports.map (·.key))
    (hsymbols : o.symbols ⊆ result.imports.map (·.key))
    (hmodule : ∀ source start, o.module? = some (source, start) →
      ∃ name, result.Calls source name ∧ start = name ++ ".") :
      TakesUp given result body spans where
  body := hbody
  extended h := Registry.orFresh_of_ne h separateTyping ▸ hextends
  agrees line hline x hx := by
    unfold Registry.afterwards
    cases hgiven : given.imports with
    | nil =>
      rw [List.isEmpty_nil, if_pos rfl, Span.agrees_iff_of_empty hgiven]
      refine ⟨fun h => ⟨fun _ => h, ?_⟩, fun h => h.1 rfl⟩
      cases x <;> simp_all [Span.Keeps, Span.symbols]
    | cons i rest =>
      rw [if_neg (by simp), Span.agrees_iff (hwithin line hline x hx) hknown hsymbols hmodule]
      simp

end Graphwright.Module
