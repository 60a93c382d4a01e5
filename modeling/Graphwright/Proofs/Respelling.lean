import Mathlib.Data.List.Basic
import Graphwright.Options

/-!
# Options under either spelling

The key of an option is written in snake case or in camel case. Different options share no spelling
(`spellings_disjoint`), so as long as no option is named twice the member that gives it is the only
one with one of its spellings (`member?_eq_find?`). A mapping is accepted if its keys are all of
options and their values can be read (`ofMembers_eq_ok_iff`, `unknownKeys_eq_nil_iff`); neither
depends on how a key is spelled.

* `decode_respelled`: options that are written back, each key in either spelling, are read as they
  were; and a mapping that names no option twice may be spelled anew without changing whether it is
  accepted or what it is read as.
-/
namespace Graphwright.Options

/-! ## Spellings -/

/-- The ways to write the key of an option. -/
def spellings (key : String) : List String := [key, camelKey key]

/-- A member gives an option if its key is a spelling of the option's. -/
def gives (key : String) (m : String × Json) : Bool := decide (m.1 ∈ spellings key)

/-- A key in the spelling that is chosen for its option; keys of no option stay as they are. -/
def spelled (camel : String → Bool) (written : String) : String :=
  match keys.find? (decide <| written ∈ spellings ·) with
  | some key => if camel key then camelKey key else key
  | none => written

/-- Members with their keys in the chosen spellings. -/
def respell (camel : String → Bool) (members : List (String × Json)) : List (String × Json) :=
  members.map fun m => (spelled camel m.1, m.2)

/-- No two members give one option. -/
def NamesOnce (members : List (String × Json)) : Prop :=
  members.Pairwise fun m n => ∀ key ∈ keys, gives key m → ¬ gives key n

theorem spellings_disjoint :
    ∀ key ∈ keys, ∀ other ∈ keys, ∀ written ∈ spellings key, written ∈ spellings other →
    key = other := by
  decide +kernel

theorem spelled_mem_spellings_iff (camel : String → Bool) {key written : String}
    (hkey : key ∈ keys) : spelled camel written ∈ spellings key ↔ written ∈ spellings key := by
  unfold spelled
  split
  · rename_i other hfind
    have hother := List.mem_of_find?_eq_some hfind
    have hwritten : written ∈ spellings other := by simpa using List.find?_some hfind
    have hchosen : (if camel other then camelKey other else other) ∈ spellings other := by
      split <;> simp [spellings]
    constructor
    · intro h
      rwa [spellings_disjoint key hkey other hother _ h hchosen]
    · intro h
      rwa [spellings_disjoint key hkey other hother _ h hwritten]
  · rfl

theorem gives_spelled (camel : String → Bool) {key : String} (hkey : key ∈ keys)
    (m : String × Json) : gives key (spelled camel m.1, m.2) = gives key m :=
  decide_eq_decide.mpr (spelled_mem_spellings_iff camel hkey)

theorem NamesOnce.respell {members : List (String × Json)} (h : NamesOnce members)
    (camel : String → Bool) : NamesOnce (respell camel members) := by
  refine List.pairwise_map.mpr (h.imp fun hmn key hkey => ?_)
  simpa only [gives_spelled camel hkey] using hmn key hkey

/-! ## Members of a mapping that names no option twice -/

section

variable {members : List (String × Json)} {key : String}

theorem lookup_cons_of_not_gives {written : String} (hwritten : written ∈ spellings key)
    {m : String × Json} (hm : ¬ gives key m) (rest : List (String × Json)) :
    (m :: rest).lookup written = rest.lookup written := by
  have hne : (written == m.1) = false := by
    refine beq_false_of_ne fun he => hm ?_
    exact decide_eq_true (he ▸ hwritten)
  rw [List.lookup_cons, hne]

/-- The member of an option is the one with one of its spellings. -/
theorem member?_eq_find? (h : NamesOnce members) (hkey : key ∈ keys) :
    member? members key = members.find? (gives key) := by
  induction members with
  | nil => rfl
  | cons m rest ih =>
    obtain ⟨hfirst, hrest⟩ := List.pairwise_cons.mp h
    unfold member?
    by_cases hm : gives key m
    · have hnone (written : String) (hwritten : written ∈ spellings key) :
          rest.lookup written = none := by
        refine List.lookup_eq_none_iff.mpr fun n hn => bne_iff_ne.mpr fun he => ?_
        exact hfirst n hn key hkey hm (decide_eq_true (he ▸ hwritten))
      rw [List.find?_cons_of_pos hm, List.lookup_cons, List.lookup_cons]
      by_cases hcamel : camelKey key = m.1
      · simp [hcamel]
      · have hsnake : key = m.1 := by simpa [gives, spellings, Ne.symm hcamel, eq_comm] using hm
        rw [beq_false_of_ne hcamel, hnone (camelKey key) (by simp [spellings]), hsnake]
        simp
    · have hsnake : key ∈ spellings key := by simp [spellings]
      have hcamel : camelKey key ∈ spellings key := by simp [spellings]
      rw [lookup_cons_of_not_gives hcamel hm, lookup_cons_of_not_gives hsnake hm,
        List.find?_cons_of_neg hm, ← ih hrest]
      rfl

theorem member?_respell (h : NamesOnce members) (hkey : key ∈ keys) (camel : String → Bool) :
    (member? (respell camel members) key).map (·.2) = (member? members key).map (·.2) := by
  have hsame : gives key ∘ (fun m : String × Json => (spelled camel m.1, m.2)) = gives key :=
    funext fun m => gives_spelled camel hkey m
  rw [member?_eq_find? h hkey, member?_eq_find? (h.respell camel) hkey, respell,
    List.find?_map, hsame, Option.map_map]
  rfl

theorem find?_gives (h : NamesOnce members) (hkey : key ∈ keys) {m : String × Json}
    (hm : m ∈ members) (hgives : gives key m) : members.find? (gives key) = some m := by
  induction members with
  | nil => cases hm
  | cons n rest ih =>
    obtain ⟨hfirst, hrest⟩ := List.pairwise_cons.mp h
    rcases List.mem_cons.mp hm with rfl | hm
    · exact List.find?_cons_of_pos hgives
    · rw [List.find?_cons_of_neg fun hn => hfirst m hm key hkey hn hgives]
      exact ih hrest hm

theorem unknownKeys_eq_nil_iff (h : NamesOnce members) :
    unknownKeys members = [] ↔ ∀ m ∈ members, ∃ key ∈ keys, gives key m := by
  simp only [unknownKeys, List.filter_eq_nil_iff, List.mem_map, forall_exists_index, and_imp,
    forall_apply_eq_imp_iff₂, Bool.not_eq_true', Bool.not_eq_false, List.contains_iff_mem,
    List.mem_filterMap, Option.map_eq_some_iff]
  refine forall₂_congr fun m hm => exists_congr fun key => and_congr_right fun hkey => ?_
  rw [member?_eq_find? h hkey]
  constructor
  · rintro ⟨n, hn, he⟩
    have hgives := List.find?_some hn
    rwa [gives, he] at hgives
  · exact fun hgives => ⟨m, find?_gives h hkey hm hgives, rfl⟩

theorem unknownKeys_respell (h : NamesOnce members) (camel : String → Bool) :
    unknownKeys (respell camel members) = [] ↔ unknownKeys members = [] := by
  rw [unknownKeys_eq_nil_iff h, unknownKeys_eq_nil_iff (h.respell camel), respell,
    List.forall_mem_map]
  refine forall₂_congr fun m _ => exists_congr fun key => and_congr_right fun hkey => ?_
  rw [gives_spelled camel hkey]

end

/-! ## Values -/

/-- What a value is read as does not depend on the key that it is written under. -/
def IgnoresKey {α : Type} (decode : String → Json → Decoded α) : Prop :=
  ∀ key other v a, decode key v = .ok a → decode other v = .ok a

theorem ignoresKey_bool : IgnoresKey bool := by
  intro key other v b h
  cases v with
  | bool c => exact h
  | int n =>
    simp only [bool] at h ⊢
    split_ifs at h ⊢ with h0 h1
    · exact h
    · exact h
    · split at h <;> cases h
  | float x =>
    simp only [bool] at h ⊢
    split_ifs at h ⊢ <;> exact h
  | str s =>
    simp only [bool] at h ⊢
    cases hword : boolWords.lookup (s.map Char.toLower) with
    | some c => simpa only [hword] using h
    | none =>
      simp only [hword] at h
      cases h
  | null | arr | obj => cases h

theorem ignoresKey_string : IgnoresKey string := by
  intro key other v s h
  cases v with
  | str s => exact h
  | _ => cases h

theorem ignoresKey_string? : IgnoresKey string? := by
  intro key other v s h
  cases v with
  | null => exact h
  | str s => exact h
  | _ => cases h

theorem ignoresKey_mode : IgnoresKey mode := by
  intro key other v m h
  cases v with
  | str s =>
    unfold mode at h ⊢
    cases hmode : DocumentMode.ofKeyword? s with
    | some m => simpa only [hmode] using h
    | none =>
      simp only [hmode] at h
      cases h
  | _ => cases h

theorem ignoresKey_mapping : IgnoresKey mapping := by
  intro key other v m h
  cases v with
  | obj members =>
    unfold mapping at h ⊢
    simp only [List.isEmpty_iff, List.filterMap_eq_nil_iff] at h ⊢
    split at h
    · rename_i hnone
      rw [if_pos]
      · exact h
      · intro n hn
        have := hnone n hn
        split at this <;> simp_all
    · cases h
  | _ => cases h

/-! ## Mappings that are accepted -/

theorem except_bind_eq_ok {ε α β : Type} {x : Except ε α} {f : α → Except ε β} {b : β} :
    x >>= f = .ok b ↔ ∃ a, x = .ok a ∧ f a = .ok b := by
  cases x with
  | ok a => simp [bind, Except.bind]
  | error e => simp [bind, Except.bind]

/-- A mapping is accepted if every option can be read and no key is left over. -/
theorem ofMembers_eq_ok_iff {members : List (String × Json)} {o : Options} :
    ofMembers members = .ok o ↔
      (decodeKey members "scalars" [] mapping = .ok o.scalars ∧
      decodeKey members "use_type_imports" false bool = .ok o.typeImports ∧
      decodeKey members "import_operation_types_from" none string? = .ok o.operationTypesFrom? ∧
      decodeKey members "import_types_from" none string? = .ok o.typesFrom? ∧
      decodeKey members "document_mode" .text mode = .ok o.documentMode ∧
      decodeKey members "import_documents_from" none string? = .ok o.documentsFrom? ∧
      decodeKey members "package" none string? = .ok o.package? ∧
      decodeKey members "class_name" "Resolvers" string = .ok o.className ∧
      decodeKey members "mappers" [] mapping = .ok o.mappers ∧
      decodeKey members "async_resolvers" false bool = .ok o.asyncResolvers ∧
      decodeKey members "skip_typename" false bool = .ok o.skipTypename ∧
      decodeKey members "dedupe_operation_suffix" false bool = .ok o.dedupeSuffix) ∧
      unknownKeys members = [] := by
  constructor
  · intro h
    unfold ofMembers at h
    simp only [List.isEmpty_iff] at h
    split at h
    · rename_i hfound
      simp only [except_bind_eq_ok] at h
      obtain ⟨_, h1, _, h2, _, h3, _, h4, _, h5, _, h6, _, h7, _, h8, _, h9, _, h10, _, h11, _,
          h12, h⟩ := h
      cases h
      refine ⟨⟨h1, h2, h3, h4, h5, h6, h7, h8, h9, h10, h11, h12⟩, ?_⟩
      simp only [List.append_eq_nil_iff, List.map_eq_nil_iff] at hfound
      exact hfound.2
    · cases h
  · rintro ⟨⟨h1, h2, h3, h4, h5, h6, h7, h8, h9, h10, h11, h12⟩, hunknown⟩
    unfold ofMembers
    simp only [h1, h2, h3, h4, h5, h6, h7, h8, h9, h10, h11, h12, hunknown, faultsOf]
    rfl

theorem decodeKey_respell {members : List (String × Json)} (h : NamesOnce members) {key : String}
    (hkey : key ∈ keys) (camel : String → Bool) {α : Type} {decode : String → Json → Decoded α}
    (hdecode : IgnoresKey decode) (default a : α) :
    decodeKey (respell camel members) key default decode = .ok a ↔
      decodeKey members key default decode = .ok a := by
  have hvalue := member?_respell h hkey camel
  unfold decodeKey
  cases hm : member? members key with
  | none =>
    rw [hm, Option.map_none, Option.map_eq_none_iff] at hvalue
    rw [hvalue]
  | some m =>
    rw [hm, Option.map_some, Option.map_eq_some_iff] at hvalue
    obtain ⟨m', hm', hsame⟩ := hvalue
    simp only [hm', hsame]
    exact ⟨hdecode _ _ _ _, hdecode _ _ _ _⟩

theorem ofMembers_respell {members : List (String × Json)} (h : NamesOnce members)
    (camel : String → Bool) (o : Options) :
    ofMembers (respell camel members) = .ok o ↔ ofMembers members = .ok o := by
  have hmember (key : String) (hkey : key ∈ keys) {α : Type} {decode : String → Json → Decoded α}
      (hdecode : IgnoresKey decode) (default a : α) :=
    decodeKey_respell h hkey camel hdecode default a
  rw [ofMembers_eq_ok_iff, ofMembers_eq_ok_iff, unknownKeys_respell h camel,
    hmember "scalars" (by decide) ignoresKey_mapping,
    hmember "use_type_imports" (by decide) ignoresKey_bool,
    hmember "import_operation_types_from" (by decide) ignoresKey_string?,
    hmember "import_types_from" (by decide) ignoresKey_string?,
    hmember "document_mode" (by decide) ignoresKey_mode,
    hmember "import_documents_from" (by decide) ignoresKey_string?,
    hmember "package" (by decide) ignoresKey_string?,
    hmember "class_name" (by decide) ignoresKey_string,
    hmember "mappers" (by decide) ignoresKey_mapping,
    hmember "async_resolvers" (by decide) ignoresKey_bool,
    hmember "skip_typename" (by decide) ignoresKey_bool,
    hmember "dedupe_operation_suffix" (by decide) ignoresKey_bool]

/-! ## Options that are written back -/

theorem mapping_texts (key : String) (ts : List (String × String)) :
    mapping key (.obj (ts.map fun t => (t.1, .str t.2))) = .ok ts := by
  simp [mapping, List.filterMap_map]

def members (o : Options) : List (String × Json) :=
  match o.encode with
  | .obj members => members
  | _ => []

theorem keys_members (o : Options) : o.members.map (·.1) = keys := rfl

theorem namesOnce_members (o : Options) : NamesOnce o.members := by
  have hkeys : keys.Pairwise fun a b => ∀ key ∈ keys, a ∈ spellings key → b ∉ spellings key := by
    decide +kernel
  rw [← keys_members o, List.pairwise_map] at hkeys
  refine hkeys.imp fun h key hkey hm hn => ?_
  exact h key (keys_members o ▸ hkey) (of_decide_eq_true hm) (of_decide_eq_true hn)

theorem unknownKeys_members (o : Options) : unknownKeys o.members = [] := by
  refine (unknownKeys_eq_nil_iff (namesOnce_members o)).mpr fun m hm => ⟨m.1, ?_, ?_⟩
  · rw [← keys_members o]
    exact List.mem_map_of_mem hm
  · simp [gives, spellings]

theorem ofMembers_members (o : Options) : ofMembers o.members = .ok o := by
  refine ofMembers_eq_ok_iff.mpr
    ⟨⟨mapping_texts _ _, rfl, ?_, ?_, ?_, ?_, ?_, rfl, mapping_texts _ _, rfl, rfl,
    rfl⟩, unknownKeys_members o⟩
  · cases h : o.operationTypesFrom? <;> simp only [members, encode, h] <;> rfl
  · cases h : o.typesFrom? <;> simp only [members, encode, h] <;> rfl
  · cases h : o.documentMode <;> simp only [members, encode, h] <;> rfl
  · cases h : o.documentsFrom? <;> simp only [members, encode, h] <;> rfl
  · cases h : o.package? <;> simp only [members, encode, h] <;> rfl

theorem decode_eq_ok_iff {members : List (String × Json)} {o : Options} :
    decode (.obj members) = .ok o ↔ ofMembers members = .ok o := by
  simp only [decode]
  cases ofMembers members <;> simp

/-- **Spelling.** Options that were accepted from any value may be written back, each key in snake
case or in camel case as one likes, and are read as they were. And any mapping that names no option
twice, be it accepted or not, may have the keys of options spelled anew without a change to whether
it is accepted and to the options that it is read as. -/
theorem decode_respelled :
    (∀ (v : Json) (o : Options), decode v = .ok o → ∀ camel : String → Bool,
      ∃ members, o.encode = .obj members ∧ decode (.obj (respell camel members)) = .ok o) ∧
    ∀ members, NamesOnce members → ∀ (camel : String → Bool) (o : Options),
      decode (.obj (respell camel members)) = .ok o ↔ decode (.obj members) = .ok o := by
  constructor
  · intro v o _ camel
    refine ⟨o.members, rfl, decode_eq_ok_iff.mpr ?_⟩
    exact (ofMembers_respell (namesOnce_members o) camel o).mpr (ofMembers_members o)
  · intro members honce camel o
    rw [decode_eq_ok_iff, decode_eq_ok_iff, ofMembers_respell honce camel o]

/-- A mapping with keys in both spellings, a switch given as a number and an option that is not
set. -/
def mixedMembers : List (String × Json) :=
  [("useTypeImports", .int 1), ("scalars", .obj [("Money", .str "decimal.Decimal")]),
    ("import_types_from", .null), ("documentMode", .str "external"),
    ("import_documents_from", .str "app.docs"), ("skipTypename", .bool true)]

theorem decode_respelled_mixed :
    NamesOnce mixedMembers ∧ ∃ o, decode (.obj mixedMembers) = .ok o ∧
      decode (.obj (respell
        (fun key => key == "scalars" || key == "import_types_from") mixedMembers)) = .ok o ∧
      ∃ members, o.encode = .obj members ∧
        decode (.obj (respell (fun _ => true) members)) = .ok o := by
  have honce : NamesOnce mixedMembers := by
    unfold NamesOnce
    decide +kernel
  have hdecode : decode (.obj mixedMembers) = .ok {
      scalars := [("Money", "decimal.Decimal")]
      typeImports := true
      documentMode := .external
      documentsFrom? := some "app.docs"
      skipTypename := true } := by rfl
  exact ⟨honce, _, hdecode, (decode_respelled.2 mixedMembers honce _ _).mpr hdecode,
    decode_respelled.1 _ _ hdecode fun _ => true⟩

/-- An option that is named twice is read from the member in camel case; the other one is left
over. -/
example : decode (.obj [("class_name", .str "A"), ("className", .str "B")]) =
    .error (.faults [⟨["class_name"], .unknownKey⟩]) := by rfl

end Graphwright.Options
