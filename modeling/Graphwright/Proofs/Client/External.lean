import Graphwright.Proofs.Client.Helpers
import Graphwright.Proofs.Module.References

/-!
# Documents of another module

Where documents are in another module a helper refers to them by a fixed formula: the name of that
module, and the constant that is usual for its operation. A client that holds its documents itself
gives them the same constants as long as these are free.

* `reference_eq_constant_iff`: a constant of the client itself has its usual name exactly if neither
  the reserved names nor the names of earlier helpers and constants take it.
* `external_constants`: so references into another module are the constants of such a client exactly
  where these have their usual names, and two operations share one exactly if their usual constants
  are the same.
* `external_constant_shared`: two operations whose names differ in case and underscores do.
-/
namespace Graphwright.Client

open Graphwright.Document Graphwright.Module
open Naming (Allocator)
open Naming.Allocator (Hands)

variable {env : Env} {a : Allocator} {o : NamedOperation} {os : List NamedOperation}
    {hs : List Helper}

/-! ## References -/

/-- Documents of another module are referred to by their usual constants. -/
theorem reference_external (hmode : env.mode = .external) (h : helpersFrom env a os = .ok hs) :
    ∀ x ∈ hs, x.reference = env.context.documentsQualifier ++ x.operation.constant := by
  induction os generalizing a hs with
  | nil =>
    cases h
    simp
  | cons o os ih =>
    obtain ⟨document?, more, hd, hmore, rfl⟩ := helpersFrom_cons_ok.mp h
    obtain rfl : document? = none := by
      have hsome := isSome_documentOf hd
      simpa [hmode] using hsome
    intro x hx
    rcases List.mem_cons.mp hx with rfl | hx
    · rfl
    · exact ih hmore x hx

/-- A name stays as it is exactly if it is free. -/
theorem fresh_eq_self_iff {name : String} : a.fresh name = name ↔ name ∉ a.used := by
  constructor
  · intro h
    have hfree := Allocator.fresh_not_mem_used a name
    rwa [h] at hfree
  · intro hfree
    exact if_neg hfree

/-- The names in use after a helper are its own, and those that were in use before. -/
theorem mem_used_helperOf {document? : Option String} (h : documentOf env o = .ok document?)
    {n : String} :
    n ∈ (helperOf env a o document?).2.used ↔
      n ∈ (helperOf env a o document?).1.names ∨ n ∈ a.used := by
  have hrequests := allocateAll_requests (a := a) h []
  have hands := Hands.allocateAll a (requests env.mode o ++ [])
  rw [hrequests] at hands
  simpa [Allocator.allocateAll] using hands.used n

/-- A constant has its usual name exactly if that is free: it is not in use from the start, and no
earlier helper has taken it. -/
theorem reference_eq_constant_iff (hmode : env.mode ≠ .external) (h : helpersFrom env a os = .ok hs)
    {i : Nat} {x : Helper} (hi : hs[i]? = some x) : x.reference = x.operation.constant ↔
      x.operation.constant ∉ a.used ∧ x.operation.constant ∉ (hs.take i).flatMap (·.names) := by
  induction os generalizing a hs i with
  | nil =>
    cases h
    cases hi
  | cons o os ih =>
    obtain ⟨document?, more, hd, hmore, rfl⟩ := helpersFrom_cons_ok.mp h
    cases i with
    | zero =>
      obtain rfl : (helperOf env a o document?).1 = x := by simpa using hi
      obtain ⟨text, rfl⟩ := Option.isSome_iff_exists.mp ((isSome_documentOf hd).mpr hmode)
      have hfirst : a.fresh o.constant = o.constant ↔ o.constant ∉ a.used := fresh_eq_self_iff
      simpa [helperOf, referenceOf, Allocator.allocate] using hfirst
    | succ i =>
      rw [ih hmore (by simpa using hi), mem_used_helperOf hd, List.take_succ_cons,
        List.flatMap_cons, List.mem_append]
      tauto

/-- No helper is called like a constant unless its operation is: the digits of a new name would be
at the end. -/
theorem ne_constant_of_extends {name helper : String}
    (h : Allocator.Extends (Naming.safeIdentifier name) helper) (hne : name ≠ o.constant) :
    helper ≠ o.constant := by
  rintro rfl
  obtain ⟨digits, hdigits, h⟩ := h
  have hlast : o.constant.toList.getLast? = some 'T' := by
    rw [NamedOperation.constant, Naming.documentConstant, String.toList_append,
      List.getLast?_append]
    rfl
  rcases List.eq_nil_or_concat' digits with rfl | ⟨init, d, rfl⟩
  · have hsafe : o.constant = Naming.safeIdentifier name :=
      String.toList_injective (by simpa using h)
    unfold Naming.safeIdentifier at hsafe
    split at hsafe
    · rw [hsafe, String.toList_append, List.getLast?_append] at hlast
      cases hlast
    · exact hne hsafe.symm
  · rw [h, ← List.append_assoc, List.getLast?_concat] at hlast
    have hd := hdigits d (by simp)
    rw [Option.some.inj hlast] at hd
    exact absurd hd (by decide)

/-- If the usual constants of operations differ, and neither names in use nor operations are called
so, all constants have their usual names. -/
theorem reference_eq_constant (hmode : env.mode ≠ .external) (h : helpersFrom env a os = .ok hs)
    (hnodup : (os.map (·.constant)).Nodup)
    (hfree : ∀ o ∈ os, o.constant ∉ a.used ∧ ∀ other ∈ os, other.name ≠ o.constant) :
    ∀ x ∈ hs, x.reference = x.operation.constant := by
  induction os generalizing a hs with
  | nil =>
    cases h
    simp
  | cons o os ih =>
    obtain ⟨document?, more, hd, hmore, rfl⟩ := helpersFrom_cons_ok.mp h
    obtain ⟨text, rfl⟩ := Option.isSome_iff_exists.mp ((isSome_documentOf hd).mpr hmode)
    obtain ⟨hne, hnodup⟩ := List.nodup_cons.mp (List.map_cons ▸ hnodup)
    have hfirst : (helperOf env a o (some text)).1.reference = o.constant :=
      fresh_eq_self_iff.mpr (hfree o List.mem_cons_self).1
    intro x hx
    rcases List.mem_cons.mp hx with rfl | hx
    · exact hfirst
    · refine ih hmore hnodup (fun p hp => ⟨fun hused => ?_, fun other hother => ?_⟩) x hx
      · -- what came into use since is the first constant and the first helper
        rcases (mem_used_helperOf hd).mp hused with hused | hused
        · have hnames : p.constant = o.constant ∨
              p.constant = (helperOf env a o (some text)).1.name := by
            rw [← hfirst]
            simpa [Helper.names, helperOf] using hused
          rcases hnames with heq | heq
          · exact hne (heq ▸ List.mem_map_of_mem hp)
          · have hextends : Allocator.Extends (Naming.safeIdentifier o.name)
                (helperOf env a o (some text)).1.name := Allocator.extends_fresh _ _
            exact ne_constant_of_extends hextends
              ((hfree p (List.mem_cons_of_mem _ hp)).2 o List.mem_cons_self) heq.symm
        · exact (hfree p (List.mem_cons_of_mem _ hp)).1 hused
      · exact (hfree p (List.mem_cons_of_mem _ hp)).2 other (List.mem_cons_of_mem _ hother)

/-- Constants of the client itself are handed out by one allocator, so they differ. -/
theorem nodup_reference (hmode : env.mode ≠ .external) (h : helpersFrom env a os = .ok hs) :
    (hs.map (·.reference)).Nodup := by
  obtain ⟨b, hands⟩ := hands_helpersFrom h
  have hmem : ∀ x ∈ hs, x.reference ∈ x.names := fun x hx => by
    simp [Helper.names, (isSome_helpersFrom h x hx).mpr hmode]
  refine List.pairwise_map.mpr
    ((List.nodup_flatMap.mp hands.nodup).2.imp_of_mem fun hx hy hdisjoint heq => ?_)
  exact hdisjoint (hmem _ hx) (heq ▸ hmem _ hy)

/-! ## The module of the documents -/

/-- What is recorded is referred to by the name of an import of its symbol and module. -/
theorem exists_localName_record (r : Registry) (i : Import) :
    ∃ j ∈ (r.record i).2.imports, j.key = i.key ∧ (r.record i).1 = j.localName := by
  unfold Registry.record
  split
  · rename_i old hget
    obtain ⟨hold, hkey⟩ := Registry.of_find?_key hget
    exact ⟨old, hold, hkey, rfl⟩
  · rename_i hnone
    have hnew : r.imports.any (·.key = i.key) = false := by
      simpa [Registry.get?, Import.key] using hnone
    refine ⟨i, ?_, rfl, rfl⟩
    simp [Registry.insert, hnew]

theorem exists_module_of_qualify {r : Registry} {source? : Option String} {asName : String}
    {kind : ImportKind} (h : (r.qualify source? asName kind).1 ≠ "") :
    ∃ source, source? = some source ∧
      ∃ i ∈ (r.qualify source? asName kind).2.imports, i.key = (wholeModule, source) ∧
        (r.qualify source? asName kind).1 = i.localName ++ "." := by
  unfold Registry.qualify at h ⊢
  cases hsource : source?.filter (· ≠ "") with
  | none => exact absurd (by rw [hsource]) h
  | some source =>
    obtain ⟨hfrom, -⟩ := Option.filter_eq_some_iff.mp hsource
    obtain ⟨i, hi, hkey, hname⟩ :=
      exists_localName_record r ⟨wholeModule, source, kind, some asName⟩
    exact ⟨source, hfrom, i, hi, hkey, congrArg (· ++ ".") hname⟩

/-- The documents of an external client are in a module that it imports. -/
theorem exists_documentsModule (o : Options) {context : Context}
    (hmode : o.documentMode = .external) (h : contextOf o none = .ok context) :
    ∃ source, o.documentsFrom? = some source ∧ ∃ i ∈ context.imports.imports,
      i.key = (wholeModule, source) ∧ context.documentsQualifier = i.localName ++ "." := by
  rw [contextOf_eq] at h
  dsimp only at h
  rw [if_pos hmode] at h
  split at h
  · cases h
  · rename_i hne
    cases h
    exact exists_module_of_qualify (by simpa using hne)

section Context

variable {o : Options} (hlocal : o.operationTypesFrom? = none)

include hlocal

theorem qualify_headRegistry : (headRegistry o none).qualify o.operationTypesFrom? typesName =
    ("", headRegistry o none) := by
  rw [Registry.qualify, hlocal]
  rfl

/-- The context of a client with all it refers to at hand. -/
theorem contextOf_of_own (hmode : o.documentMode ≠ .external) :
    contextOf o none = .ok ⟨headRegistry o none, "", ""⟩ := by
  rw [contextOf_eq]
  dsimp only
  rw [if_neg hmode, qualify_headRegistry hlocal]

/-- The context of a client with its documents in a module. -/
theorem contextOf_of_external (hmode : o.documentMode = .external) {r : String × Registry}
    (hr : (headRegistry o none).qualify o.documentsFrom? documentsName = r) (hne : r.1 ≠ "") :
    contextOf o none = .ok ⟨r.2, "", r.1⟩ := by
  rw [contextOf_eq]
  dsimp only
  rw [qualify_headRegistry hlocal, if_pos hmode, hr, if_neg (by simpa using hne)]

end Context

/-! ## Both modes -/

/-- A helper that refers into another module, and the one for the same operation that has its
document at hand while some names are taken: their constants are the same exactly if the usual one
is free. -/
structure Corresponds (qualifier : String) (taken : List String) (x y : Helper) : Prop where
  operation : x.operation = y.operation
  reference : x.reference = qualifier ++ x.operation.constant
  same_iff : x.reference = qualifier ++ y.reference ↔ x.operation.constant ∉ taken

theorem operation_eq_of_getElem? {ks : List Helper}
    (h : hs.map (·.operation) = ks.map (·.operation)) {i : Nat} {x y : Helper}
    (hx : hs[i]? = some x) (hy : ks[i]? = some y) : x.operation = y.operation := by
  have heq := congrArg (·[i]?) h
  simpa [hx, hy] using heq

/-- Helpers in both modes for the same operations correspond at each place. -/
theorem corresponds_helpersFrom {env' : Env} {b : Allocator} {ks : List Helper}
    {taken : List String} (hmode : env.mode = .external) (hmode' : env'.mode ≠ .external)
    (h : helpersFrom env a os = .ok hs) (h' : helpersFrom env' b os = .ok ks)
    (htaken : ∀ n, n ∈ b.used ↔ n ∈ taken) {i : Nat} {x y : Helper} (hx : hs[i]? = some x)
    (hy : ks[i]? = some y) :
    Corresponds env.context.documentsQualifier (taken ++ (ks.take i).flatMap (·.names)) x y := by
  have hop : x.operation = y.operation :=
    operation_eq_of_getElem?
      ((operations_helpersFrom h).trans (operations_helpersFrom h').symm) hx hy
  have hx' := reference_external hmode h x (List.mem_of_getElem? hx)
  have hy' := reference_eq_constant_iff hmode' h' hy
  refine ⟨hop, hx', ?_⟩
  calc x.reference = env.context.documentsQualifier ++ y.reference
    _ ↔ y.reference = y.operation.constant := by
      rw [hx', hop]
      exact (String.append_right_inj _).trans eq_comm
    _ ↔ _ := by
      rw [hy', hop, List.mem_append, not_or]
      exact and_congr_left' (not_congr (htaken _))

/-- **External documents.** Let a client be generated with its documents in another module, and once
more with the documents in the client. The first one imports the module, and its helper for an
operation refers to the usual constant of the operation there. That is the constant of the second
client exactly if it is free there: neither reserved, nor taken by the constant or helper of an
earlier operation; in particular if the usual constants differ, and neither reserved names nor
operations are called so. The constants of the second client always differ; those of the first do
exactly if the usual ones do. -/
theorem external_constants (s : Schema) (ds : List Document) (o : Options) (path : String)
    (v v₁ w w₁ : List Warning) (p q : Part)
    (hp : (part s (Document.concat ds) { o with documentMode := .external } path).run v = .ok p v₁)
    (hq : (part s (Document.concat ds) { o with documentMode := .text } path).run w = .ok q w₁) :
    let os := namedOperations (Document.concat ds)
    ∃ context own hs ks, contextOf { o with documentMode := .external } none = .ok context ∧
      contextOf { o with documentMode := .text } none = .ok own ∧
      (planOf s (Document.concat ds) { o with documentMode := .external } context).helpers =
        .ok hs ∧
      (planOf s (Document.concat ds) { o with documentMode := .text } own).helpers = .ok ks ∧
      p.extras = [textOf .external hs] ∧ q.extras = [textOf .text ks] ∧
      hs.map (·.operation) = os ∧ ks.map (·.operation) = os ∧
      (∃ source, o.documentsFrom? = some source ∧ ∃ i ∈ p.imports.imports,
        i.key = (wholeModule, source) ∧ context.documentsQualifier = i.localName ++ ".") ∧
      (∀ i x y, hs[i]? = some x → ks[i]? = some y → Corresponds context.documentsQualifier
        (reservedNames s own o.dedupeSuffix os ++ (ks.take i).flatMap (·.names)) x y) ∧
      ((os.map (·.constant)).Nodup →
        (∀ op ∈ os, op.constant ∉ reservedNames s own o.dedupeSuffix os ∧
          ∀ other ∈ os, other.name ≠ op.constant) →
        hs.map (·.reference) = ks.map (context.documentsQualifier ++ ·.reference)) ∧
      (ks.map (·.reference)).Nodup ∧
      ((hs.map (·.reference)).Nodup ↔ (os.map (·.constant)).Nodup) := by
  intro os
  obtain ⟨-, context, hs, -, hcontext, hhs, rfl, -⟩ := part_ok.mp hp
  obtain ⟨-, own, ks, -, hown, hks, rfl, -⟩ := part_ok.mp hq
  have hoperations : hs.map (·.operation) = os := operations_helpersFrom hhs
  have hoperations' : ks.map (·.operation) = os := operations_helpersFrom hks
  have hreference :
      hs.map (·.reference) = (os.map (·.constant)).map (context.documentsQualifier ++ ·) := by
    rw [← hoperations, List.map_map, List.map_map]
    exact List.map_congr_left (reference_external rfl hhs)
  have hmode : DocumentMode.text ≠ .external := by
    decide
  have hused (n : String) :
      n ∈ (Allocator.reserveAll {} (reservedNames s own o.dedupeSuffix os)).used ↔
      n ∈ reservedNames s own o.dedupeSuffix os := by
    simp [Allocator.mem_used_reserveAll]
  refine ⟨context, own, hs, ks, hcontext, hown, hhs, hks, rfl, rfl, hoperations, hoperations',
    exists_documentsModule { o with documentMode := .external } rfl hcontext,
    fun i x y => corresponds_helpersFrom rfl hmode hhs hks hused, fun hnodup hfree => ?_,
      nodup_reference hmode hks, ?_⟩
  · have hplain : ∀ y ∈ ks, y.reference = y.operation.constant :=
      reference_eq_constant hmode hks hnodup fun op hop =>
        ⟨fun hn => (hfree op hop).1 ((hused _).mp hn), (hfree op hop).2⟩
    rw [hreference, ← hoperations', List.map_map, List.map_map]
    exact List.map_congr_left fun y hy => congrArg _ (hplain y hy).symm
  · have hinjective : Function.Injective (context.documentsQualifier ++ ·) :=
      fun _ _ => (String.append_right_inj _).mp
    rw [hreference]
    exact List.nodup_map_iff hinjective

/-- A schema with a type that is called like the constant of an operation `item`. -/
def constantSchema : Schema where
  roots := [(.query, "Query")]
  types := [{ name := "Query", body := .object [] [{ name := "x", type := .named "Int" }] },
    { name := "ITEM_DOCUMENT", body := .scalar }]

/-- Two queries whose names differ in underscores and case, one that meets the type, and one that
meets nothing. -/
def nearlyNamesakes : List Document :=
  [⟨["getUser", "get_user", "item", "other"].map fun name =>
    .operation { name? := some name, selections := [.field none "x" [] [] none] }⟩]

/-- The options of a client whose documents are in a module. -/
def externalOptions : Options where
  documentMode := .external
  documentsFrom? := some "app.documents"

theorem parts_nearlyNamesakes :
    let d := Document.concat nearlyNamesakes
    let own : Options := { externalOptions with documentMode := .text }
    ∃ p q context context' hs ks,
      (part constantSchema d externalOptions "sdk.py").run [] = .ok p [] ∧
      (part constantSchema d own "sdk.py").run [] = .ok q [] ∧
      contextOf externalOptions none = .ok context ∧ contextOf own none = .ok context' ∧
      context.documentsQualifier = "Operations." ∧
      (planOf constantSchema d externalOptions context).helpers = .ok hs ∧
      (planOf constantSchema d own context').helpers = .ok ks ∧
      hs.map (·.reference) = ["Operations.GET_USER_DOCUMENT", "Operations.GET_USER_DOCUMENT",
        "Operations.ITEM_DOCUMENT", "Operations.OTHER_DOCUMENT"] ∧
      ks.flatMap (·.names) =
        ["GET_USER_DOCUMENT", "getUser", "GET_USER_DOCUMENT2", "get_user", "ITEM_DOCUMENT2",
        "item", "OTHER_DOCUMENT", "other"] := by
  intro d own
  have hspreads : ∀ op ∈ namedOperations d, spreads op.operation.selections = [] := by
    decide
  obtain ⟨r, hr⟩ : ∃ r, (headRegistry externalOptions none).qualify
      externalOptions.documentsFrom? documentsName = r :=
    ⟨_, rfl⟩
  obtain ⟨hs, hhs⟩ := exists_helpers_of_spreads_nil constantSchema externalOptions
    ⟨r.2, "", r.1⟩ hspreads
  obtain ⟨ks, hks⟩ := exists_helpers_of_spreads_nil constantSchema own
    ⟨headRegistry own none, "", ""⟩ hspreads
  have hqualifier : r.1 = "Operations." := by
    rw [← hr]
    decide
  have hcontext : contextOf externalOptions none = .ok ⟨r.2, "", r.1⟩ :=
    contextOf_of_external rfl rfl hr (by rw [hqualifier]; decide)
  have hown : contextOf own none = .ok ⟨headRegistry own none, "", ""⟩ :=
    contextOf_of_own rfl (by decide)
  have hpackage : Naming.packageOf "sdk.py" = .ok "generated" := by rfl
  have hquiet : ([] : List Warning) = [] ++ (anonymousOperations d).map (⟨.client, ·⟩) := by rfl
  have hp : (part constantSchema d externalOptions "sdk.py").run [] =
      .ok (partOf "generated" .external ⟨r.2, "", r.1⟩ hs) [] :=
    part_ok.mpr ⟨_, _, hs, hpackage, hcontext, hhs, rfl, hquiet⟩
  have hq : (part constantSchema d own "sdk.py").run [] =
      .ok (partOf "generated" .text ⟨headRegistry own none, "", ""⟩ ks) [] :=
    part_ok.mpr ⟨_, _, ks, hpackage, hown, hks, rfl, hquiet⟩
  refine ⟨_, _, _, _, hs, ks, hp, hq, hcontext, hown, hqualifier, hhs, hks, ?_, ?_⟩
  · have hoperations : hs.map (·.operation) = namedOperations d := operations_helpersFrom hhs
    calc hs.map (·.reference)
      _ = hs.map (r.1 ++ ·.operation.constant) := List.map_congr_left (reference_external rfl hhs)
      _ = (namedOperations d).map (r.1 ++ ·.constant) := by rw [← hoperations, List.map_map]; rfl
      _ = _ := by
        rw [hqualifier]
        decide +kernel
  · rw [names_helpersFrom hks]
    decide +kernel

theorem external_constants_nearlyNamesakes :
    let d := Document.concat nearlyNamesakes
    let own : Options := { externalOptions with documentMode := .text }
    ∃ p q context hs ks, (part constantSchema d externalOptions "sdk.py").run [] = .ok p [] ∧
      (part constantSchema d own "sdk.py").run [] = .ok q [] ∧ contextOf own none = .ok context ∧
      p.extras = [textOf .external hs] ∧ q.extras = [textOf .text ks] ∧
      ks.flatMap (·.names) =
        ["GET_USER_DOCUMENT", "getUser", "GET_USER_DOCUMENT2", "get_user", "ITEM_DOCUMENT2",
        "item", "OTHER_DOCUMENT", "other"] ∧
      (∀ i x y, hs[i]? = some x → ks[i]? = some y → Corresponds "Operations."
        (reservedNames constantSchema context false (namedOperations d) ++
          (ks.take i).flatMap (·.names)) x y) ∧
      (ks.map (·.reference)).Nodup ∧ ¬ (hs.map (·.reference)).Nodup := by
  intro d own
  obtain ⟨p, q, context, context', hs, ks, hp, hq, hcontext, hown, hqualifier, hhs, hks,
      hreferences, hnames⟩ :=
    parts_nearlyNamesakes
  obtain ⟨_, _, hs', ks', hcontext', hown', hhs', hks', hpextras, hqextras, -, -, -,
      hcorresponds, -, hnodup, -⟩ :=
    external_constants constantSchema nearlyNamesakes externalOptions "sdk.py" [] [] [] [] p q hp hq
  obtain rfl := Except.ok.inj (hcontext.symm.trans hcontext')
  obtain rfl := Except.ok.inj (hown.symm.trans hown')
  obtain rfl := Except.ok.inj (hhs.symm.trans hhs')
  obtain rfl := Except.ok.inj (hks.symm.trans hks')
  refine ⟨p, q, context', hs, ks, hp, hq, hown, hpextras, hqextras, hnames, ?_, hnodup, ?_⟩
  · rw [← hqualifier]
    exact hcorresponds
  · rw [hreferences]
    decide

/-- Two operations may share a constant of another module, and then only one of them has the
constant that a client with its own documents gives it. -/
theorem external_constant_shared :
    let d := Document.concat nearlyNamesakes
    let own : Options := { externalOptions with documentMode := .text }
    ∃ p q context context' x x' hs y y' ks,
      (part constantSchema d externalOptions "sdk.py").run [] = .ok p [] ∧
      (part constantSchema d own "sdk.py").run [] = .ok q [] ∧
      contextOf externalOptions none = .ok context ∧ contextOf own none = .ok context' ∧
      (planOf constantSchema d externalOptions context).helpers = .ok (x :: x' :: hs) ∧
      (planOf constantSchema d own context').helpers = .ok (y :: y' :: ks) ∧
      x.operation.name = "getUser" ∧ x'.operation.name = "get_user" ∧ x.reference = x'.reference ∧
      x'.reference ≠ context.documentsQualifier ++ y'.reference := by
  intro d own
  obtain ⟨p, q, context, context', hs, ks, hp, hq, hcontext, hown, hqualifier, hhs, hks,
      hreferences, hnames⟩ :=
    parts_nearlyNamesakes
  have hoperations : hs.map (·.operation.name) = ["getUser", "get_user", "item", "other"] := by
    have h := congrArg (List.map (·.name)) (operations_helpersFrom hhs)
    rw [List.map_map] at h
    exact h
  have hown' : ∀ y ∈ ks, y.names = [y.reference, y.name] := fun y hy => by
    simp [Helper.names, (isSome_helpersFrom hks y hy).mpr
      (show DocumentMode.text ≠ .external by decide)]
  obtain _ | ⟨x, _ | ⟨x', hs⟩⟩ := hs
  · simp at hreferences
  · simp at hreferences
  obtain _ | ⟨y, _ | ⟨y', ks⟩⟩ := ks
  · simp at hnames
  · simp [hown' y List.mem_cons_self] at hnames
  rw [List.flatMap_cons, List.flatMap_cons, hown' y List.mem_cons_self,
    hown' y' (List.mem_cons_of_mem _ List.mem_cons_self)] at hnames
  simp only [List.map_cons, List.cons_append, List.nil_append, List.cons.injEq]
    at hoperations hreferences hnames
  refine ⟨p, q, context, context', x, x', hs, y, y', ks, hp, hq, hcontext, hown, hhs, hks,
    hoperations.1, hoperations.2.1, hreferences.1.trans hreferences.2.1.symm, ?_⟩
  rw [hreferences.2.1, hqualifier, hnames.2.2.1]
  decide

end Graphwright.Client
