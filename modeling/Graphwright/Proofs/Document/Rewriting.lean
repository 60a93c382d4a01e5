import Mathlib.Data.List.Basic
import Graphwright.Document.Walk

/-!
# A walk rewrites a document from the bottom

`Walk.visit` notes the edits of a list by position and makes them once the list has been walked
over, where every deletion moves what is behind it. `Handlers.rewrite` says the same without
positions: it is a fold over the tree, in which the members of a list are replaced one by one and
each stands for the list of what is left of it.

* `applyEdits_cons` is the step: what has been settled in front of a position stays, whatever has
  been deleted by then.
* `run_eq_rewrite`: a walk over any tree leaves the fold of it, and calls what `Node.postorder`
  lists.
* `run_rewrites`: the same for documents, and what it means for the texts of their definitions.

The callbacks are functions of the node that they are given. `Handlers.recording` notes each call
with the kind that the callback is for.
-/
namespace Graphwright.Document

variable {α β γ : Type}

/-! ## Nodes after their children -/

mutual

/-- All nodes of a tree, each after those below it, in the order in which they are written. -/
def Node.postorder : Node α → List (Node α)
  | .value _ => []
  | .branch kind text parts => postorderParts parts ++ [.branch kind text parts]

def postorderParts : List (Part α) → List (Node α)
  | [] => []
  | p :: rest => Part.postorder p ++ postorderParts rest

def Part.postorder : Part α → List (Node α)
  | .one _ n => n.postorder
  | .many _ ns => postorderMembers ns

def postorderMembers : List (Node α) → List (Node α)
  | [] => []
  | n :: rest => n.postorder ++ postorderMembers rest

end

/-! ## Rewriting as a fold -/

/-- A node whose children have been replaced, and what the callback gives for it, if there is
one. -/
structure Rewritten (α : Type) where
  node : Node α
  reply? : Option (Option (Node α))

namespace Rewritten

/-- What stands in the place of a node that is no member of a list. -/
def alone (r : Rewritten α) : Node α := r.reply?.join.getD r.node

/-- What is left of a member of a list. -/
def listed (r : Rewritten α) : List (Node α) :=
  match r.reply? with
  | none => [r.node]
  | some reply => reply.toList

/-- The text that took the place of a node. -/
def text? (r : Rewritten (String ⊕ β)) : Option String :=
  (r.reply?.join.bind Node.value?).bind Sum.getLeft?

end Rewritten

namespace Handlers

mutual

/-- A tree after its nodes have been rewritten from the bottom. -/
def rewrite (h : Handlers (Node α → Option (Node α))) : Node α → Rewritten α
  | .value v => ⟨.value v, none⟩
  | .branch kind text parts =>
    let now := .branch kind text (rewriteParts h parts)
    ⟨now, (h.get? kind).map (· now)⟩

/-- The parts of a node after their nodes have been rewritten. -/
def rewriteParts (h : Handlers (Node α → Option (Node α))) : List (Part α) → List (Part α)
  | [] => []
  | p :: rest => rewritePart h p :: rewriteParts h rest

/-- A part of a node after its nodes have been rewritten. -/
def rewritePart (h : Handlers (Node α → Option (Node α))) : Part α → Part α
  | .one role n => .one role (rewrite h n).alone
  | .many role ns => .many role (rewriteMembers h ns)

def rewriteMembers (h : Handlers (Node α → Option (Node α))) : List (Node α) → List (Node α)
  | [] => []
  | n :: rest => (rewrite h n).listed ++ rewriteMembers h rest

end

/-- The call for a node: the kind of its callback, and the node with its children replaced. -/
def call? (h : Handlers (Node α → Option (Node α))) (n : Node α) : Option (NodeKind × Node α) :=
  n.kind?.bind fun kind => (h.get? kind).map fun _ => (kind, (h.rewrite n).node)

theorem lookup_map_snd (f : NodeKind → β → γ) (kind : NodeKind) (entries : List (NodeKind × β)) :
    (entries.map fun p => (p.1, f p.1 p.2)).lookup kind = (entries.lookup kind).map (f kind) := by
  induction entries with
  | nil => rfl
  | cons p rest ih =>
    rw [List.map_cons, List.lookup_cons, List.lookup_cons, ih]
    by_cases hp : kind = p.1
    · simp [hp]
    · simp [beq_false_of_ne hp]

/-- Other handlers in the place of those of a table. -/
def mapWithKind (h : Handlers β) (f : NodeKind → β → γ) : Handlers γ where
  handlers := h.handlers.map fun p => (p.1, f p.1 p.2)
  passed := h.passed
  not_passed k hk := by rw [lookup_map_snd, h.not_passed k hk, Option.map_none]
  covered k hk hnone := by
    rw [lookup_map_snd, Option.map_eq_none_iff] at hnone
    exact h.covered k hk hnone

theorem get?_mapWithKind (h : Handlers β) (f : NodeKind → β → γ) (kind : NodeKind) :
    (h.mapWithKind f).get? kind = (h.get? kind).map (f kind) :=
  lookup_map_snd f kind h.handlers

/-- The calls that have been made, first one first: the kind of the callback, and the node it was
given. -/
abbrev Recorded (α : Type) := StateM (List (NodeKind × Node α))

/-- Callbacks that note their calls, wherever in the document they are made. -/
def recording (h : Handlers (Node α → Option (Node α))) :
    Handlers (γ → Node α → Recorded α (Option (Node α))) :=
  h.mapWithKind fun kind callback _ n => do
    modify (· ++ [(kind, n)])
    return callback n

/-- The walk that calls callbacks and notes the calls, and knows `inside` of each place. -/
def walk (h : Handlers (Node α → Option (Node α))) (inside : γ → Node α → γ) :
    Walk (Recorded α) γ α :=
  ⟨inside, h.recording⟩

end Handlers

/-! ## Edits of a list -/

/-- What an edit leaves of a node. -/
def Edit.left : Option (Edit α) → Node α → List (Node α)
  | none, n => [n]
  | some (.put m), _ => [m]
  | some .delete, _ => []

@[simp] theorem Edit.left_none (n : Node α) : Edit.left none n = [n] := rfl

@[simp] theorem Edit.left_put (m n : Node α) : Edit.left (some (.put m)) n = [m] := rfl

@[simp] theorem Edit.left_delete (n : Node α) : Edit.left (some .delete) n = [] := rfl

/-- An edit at the position of a node acts on that node and on no other, where `gone` nodes have
been deleted in front of it. -/
theorem applyEdits_cons (e? : Option (Edit α)) (settled rest : List (Node α)) (n : Node α)
    (gone : Nat) (later : List (Nat × Edit α)) :
    ∃ gone', (settled ++ Edit.left e? n).length + gone' = settled.length + gone + 1 ∧
      applyEdits gone ((e?.map (settled.length + gone, ·)).toList ++ later) (settled ++ n :: rest) =
        applyEdits gone' later (settled ++ Edit.left e? n ++ rest) := by
  cases e? with
  | none => exact ⟨gone, by simp; omega, by simp⟩
  | some e =>
    cases e with
    | put m => exact ⟨gone, by simp; omega, by simp [applyEdits]⟩
    | delete =>
      exact ⟨gone + 1, by simp; omega, by simp [applyEdits, List.eraseIdx_append_of_length_le]⟩

namespace Handlers

variable (h : Handlers (Node α → Option (Node α))) (inside : γ → Node α → γ)

/-! ## The walk and the fold -/

/-- The change that a walk notes for a node leaves what rewriting leaves of it, as a member of a
list or by itself. -/
def Fits (listed : Bool) (n : Node α) (e? : Option (Edit α)) : Prop :=
  Edit.left e? n = if listed then (h.rewrite n).listed else [(h.rewrite n).alone]

/-- Once the parts of a node have been walked over, its callback is called with them replaced. -/
theorem run_settle (known : γ) (listed : Bool) (kind : NodeKind) (text : String)
    (parts : List (Part α)) (changed? : Option (List (Part α)))
    (hchanged : changed?.getD parts = h.rewriteParts parts) (calls : List (NodeKind × Node α)) :
    ∃ e?, ((h.walk inside).settle known listed kind text parts changed?).run calls =
        pure (e?, calls ++ (h.call? (.branch kind text parts)).toList) ∧
      h.Fits listed (.branch kind text parts) e? := by
  have hget : (h.walk inside).handlers.get? kind = _ := h.get?_mapWithKind _ kind
  -- what becomes of the node if its callback has nothing to say
  have hbelow : Edit.left (changed?.map fun _ => .put (.branch kind text (h.rewriteParts parts)))
      (.branch kind text parts) = [.branch kind text (h.rewriteParts parts)] := by
    cases changed? with
    | none => rw [← hchanged]; rfl
    | some parts' => rfl
  unfold Walk.settle
  rw [hchanged, hget]
  cases hk : h.get? kind with
  | none =>
    refine ⟨changed?.map fun _ => .put (.branch kind text (h.rewriteParts parts)), ?_, ?_⟩
    · simp [call?, Node.kind?, hk]
    · cases listed <;> simp [Fits, hbelow, rewrite, Rewritten.listed, Rewritten.alone, hk]
  | some callback =>
    cases hreply : callback (.branch kind text (h.rewriteParts parts)) with
    | some m =>
      refine ⟨some (.put m), ?_, ?_⟩
      · simp [call?, Node.kind?, hk, hreply, rewrite]
      · cases listed <;> simp [Fits, rewrite, Rewritten.listed, Rewritten.alone, hk, hreply]
    | none =>
      refine ⟨if listed then some .delete
        else changed?.map fun _ => .put (.branch kind text (h.rewriteParts parts)), ?_, ?_⟩
      · simp [call?, Node.kind?, hk, hreply, rewrite]
      · cases listed <;> simp [Fits, hbelow, rewrite, Rewritten.listed, Rewritten.alone, hk, hreply]

mutual

/-- A walk notes for a node the change that rewriting makes, and calls what is at it and below
it. -/
theorem run_visit (known : γ) (listed : Bool) (calls : List (NodeKind × Node α)) : ∀ n : Node α,
    ∃ e?, ((h.walk inside).visit known listed n).run calls =
      pure (e?, calls ++ n.postorder.filterMap h.call?) ∧
      h.Fits listed n e?
  | .value v => by
    refine ⟨none, by simp [Walk.visit, Node.postorder], ?_⟩
    cases listed <;> rfl
  | .branch kind text parts => by
    obtain ⟨changed?, hparts, hchanged⟩ :=
      run_visitParts (inside known (.branch kind text parts)) calls parts
    obtain ⟨e?, hsettle, hfits⟩ :=
      h.run_settle inside (inside known (.branch kind text parts)) listed kind text
      parts changed? hchanged (calls ++ (postorderParts parts).filterMap h.call?)
    refine ⟨e?, ?_, hfits⟩
    have hinside : (h.walk inside).inside = inside := rfl
    have hlast : [.branch kind text parts].filterMap h.call? =
        (h.call? (.branch kind text parts)).toList := by
      cases hcall : h.call? (.branch kind text parts) <;> simp [hcall]
    rw [Walk.visit, hinside, StateT.run_bind, hparts, pure_bind, hsettle, Node.postorder,
      List.filterMap_append, hlast, List.append_assoc]

theorem run_visitParts (known : γ) (calls : List (NodeKind × Node α)) : ∀ parts : List (Part α),
    ∃ changed?, ((h.walk inside).visitParts known parts).run calls =
        pure (changed?, calls ++ (postorderParts parts).filterMap h.call?) ∧
      changed?.getD parts = h.rewriteParts parts
  | [] => ⟨none, by simp [Walk.visitParts, postorderParts], rfl⟩
  | p :: rest => by
    obtain ⟨first?, hfirst, hp⟩ := run_visitPart known calls p
    obtain ⟨rest?, hrest, hr⟩ := run_visitParts known (calls ++ p.postorder.filterMap h.call?) rest
    refine ⟨if first?.isNone && rest?.isNone then none
      else some (first?.getD p :: rest?.getD rest), ?_, ?_⟩
    · simp [Walk.visitParts, postorderParts, hfirst, hrest]
    · rw [rewriteParts, ← hp, ← hr]
      cases first? <;> cases rest? <;> rfl

theorem run_visitPart (known : γ) (calls : List (NodeKind × Node α)) : ∀ p : Part α,
    ∃ changed?, ((h.walk inside).visitPart known p).run calls =
        pure (changed?, calls ++ p.postorder.filterMap h.call?) ∧
      changed?.getD p = h.rewritePart p
  | .one role n => by
    obtain ⟨e?, hvisit, hfits⟩ := run_visit known false calls n
    have halone : Edit.left e? n = [(h.rewrite n).alone] := hfits
    rw [rewritePart]
    cases e? with
    | none =>
      refine ⟨none, by simp [Walk.visitPart, Part.postorder, hvisit], ?_⟩
      rw [← List.singleton_inj.mp halone]
      rfl
    | some e =>
      cases e with
      | put m =>
        refine ⟨some (.one role m), by simp [Walk.visitPart, Part.postorder, hvisit], ?_⟩
        rw [← List.singleton_inj.mp halone]
        rfl
      | delete => cases halone
  | .many role ns => by
    obtain ⟨edits, hmembers, hedits⟩ := run_visitMembers known 0 calls ns
    have happly : applyEdits 0 edits ns = h.rewriteMembers ns := by simpa using hedits [] 0 rfl
    refine ⟨if edits.isEmpty then none else some (.many role (applyEdits 0 edits ns)), ?_, ?_⟩
    · simp [Walk.visitPart, Part.postorder, hmembers]
    · rw [rewritePart, ← happly]
      cases edits <;> rfl

/-- The edits of the members of a list, which are made behind what has been settled of it before. -/
theorem run_visitMembers (known : γ) (i : Nat) (calls : List (NodeKind × Node α)) :
    ∀ ns : List (Node α), ∃ edits, ((h.walk inside).visitMembers known i ns).run calls =
        pure (edits, calls ++ (postorderMembers ns).filterMap h.call?) ∧
      ∀ settled gone, settled.length + gone = i →
        applyEdits gone edits (settled ++ ns) = settled ++ h.rewriteMembers ns
  | [] => ⟨[], by simp [Walk.visitMembers, postorderMembers], by simp [applyEdits, rewriteMembers]⟩
  | n :: rest => by
    obtain ⟨e?, hvisit, hfits⟩ := run_visit known true calls n
    obtain ⟨edits, hrest, hedits⟩ :=
      run_visitMembers known (i + 1) (calls ++ n.postorder.filterMap h.call?) rest
    refine ⟨(e?.map (i, ·)).toList ++ edits, ?_, ?_⟩
    · simp [Walk.visitMembers, postorderMembers, hvisit, hrest]
    · rintro settled gone rfl
      obtain ⟨gone', hlength, happly⟩ := applyEdits_cons e? settled rest n gone edits
      rw [happly, hedits _ gone' hlength, hfits, rewriteMembers, if_pos rfl, List.append_assoc]

end

/-- A walk over a tree leaves what rewriting leaves of it. It calls the callback of every node of a
handled kind once, after those of the nodes below it, in the order of the document and with the
children replaced. -/
theorem run_eq_rewrite (known : γ) (n : Node α) (calls : List (NodeKind × Node α)) :
    ((h.walk inside).run known n).run calls =
      pure ((h.rewrite n).alone, calls ++ n.postorder.filterMap h.call?) := by
  obtain ⟨e?, hvisit, hfits⟩ := h.run_visit inside known false calls n
  have halone : Edit.left e? n = [(h.rewrite n).alone] := hfits
  rw [Walk.run, StateT.run_bind, hvisit, pure_bind]
  cases e? with
  | none =>
    rw [← List.singleton_inj.mp halone]
    rfl
  | some e =>
    cases e with
    | put m =>
      rw [← List.singleton_inj.mp halone]
      rfl
    | delete => cases halone

/-! ## Trees that keep their nodes -/

mutual

theorem rewrite_of_passed : ∀ n : Node α, (∀ m ∈ n.postorder, m.kind?.bind h.get? = none) →
    h.rewrite n = ⟨n, none⟩
  | .value v, _ => rfl
  | .branch kind text parts, hpassed => by
    have hparts := rewriteParts_of_passed parts fun m hm => hpassed m (by simp [Node.postorder, hm])
    have hkind : h.get? kind = none := hpassed (.branch kind text parts) (by simp [Node.postorder])
    simp [rewrite, hparts, hkind]

theorem rewriteParts_of_passed : ∀ parts : List (Part α),
    (∀ m ∈ postorderParts parts, m.kind?.bind h.get? = none) → h.rewriteParts parts = parts
  | [], _ => rfl
  | p :: rest, hpassed => by
    rw [rewriteParts, rewritePart_of_passed p fun m hm => hpassed m (by simp [postorderParts, hm]),
      rewriteParts_of_passed rest fun m hm => hpassed m (by simp [postorderParts, hm])]

theorem rewritePart_of_passed : ∀ p : Part α,
    (∀ m ∈ p.postorder, m.kind?.bind h.get? = none) → h.rewritePart p = p
  | .one role n, hpassed => by
    rw [rewritePart, rewrite_of_passed n hpassed]
    rfl
  | .many role ns, hpassed => by rw [rewritePart, rewriteMembers_of_passed ns hpassed]

theorem rewriteMembers_of_passed : ∀ ns : List (Node α),
    (∀ m ∈ postorderMembers ns, m.kind?.bind h.get? = none) → h.rewriteMembers ns = ns
  | [], _ => rfl
  | n :: rest, hpassed => by
    rw [rewriteMembers, rewrite_of_passed n fun m hm => hpassed m (by simp [postorderMembers, hm]),
      rewriteMembers_of_passed rest fun m hm => hpassed m (by simp [postorderMembers, hm])]
    rfl

end

end Handlers

/-! ## Texts of definitions -/

/-- The texts that have taken the place of definitions, in the order of the document. Other values
may have taken the place of nodes as well. -/
def Node.definitionTexts (n : Node (String ⊕ β)) : List String :=
  n.definitionValues.filterMap Sum.getLeft?

namespace Handlers

variable (h : Handlers (Node (String ⊕ β) → Option (Node (String ⊕ β))))

theorem texts_listed {n : Node (String ⊕ β)} (hn : n.value? = none) :
    ((h.rewrite n).listed.filterMap Node.value?).filterMap Sum.getLeft? =
      (h.rewrite n).text?.toList := by
  cases n with
  | value v => cases hn
  | branch kind text parts =>
    cases hk : h.get? kind with
    | none => simp [rewrite, Rewritten.listed, Rewritten.text?, hk, Node.value?]
    | some callback =>
      cases hreply : callback (.branch kind text (h.rewriteParts parts)) with
      | none => simp [rewrite, Rewritten.listed, Rewritten.text?, hk, hreply]
      | some m =>
        cases hm : m.value? with
        | none => simp [rewrite, Rewritten.listed, Rewritten.text?, hk, hreply, hm]
        | some v => cases v <;> simp [rewrite, Rewritten.listed, Rewritten.text?, hk, hreply, hm]

/-- The texts in the place of the members of a list are those that their callbacks give. -/
theorem texts_rewriteMembers {ns : List (Node (String ⊕ β))} (hns : ∀ n ∈ ns, n.value? = none) :
    ((h.rewriteMembers ns).filterMap Node.value?).filterMap Sum.getLeft? =
      ns.filterMap fun n => (h.rewrite n).text? := by
  induction ns with
  | nil => rfl
  | cons n rest ih =>
    obtain ⟨hn, hrest⟩ := List.forall_mem_cons.mp hns
    rw [rewriteMembers, List.filterMap_append, List.filterMap_append, h.texts_listed hn, ih hrest,
      List.filterMap_cons]
    cases (h.rewrite n).text? <;> rfl

theorem value?_ofDefinition (x : Definition) : (Node.ofDefinition x : Node α).value? = none := by
  cases x <;> rfl

/-- **Rewriting from the bottom.** For every table of callbacks and every document, a walk leaves
what `rewrite` leaves: what a callback gives takes the place of its node; where it gives nothing,
the member of a list is gone and any other node stays, with its children replaced. Every node of a
handled kind is called for once, after those below it and in the order of the document, with its
children replaced, and a tree without such nodes is as it was. So unless something takes the place
of the document itself, the texts in it are what the callbacks of its definitions give, in order. -/
theorem run_rewrites (inside : γ → Node (String ⊕ β) → γ) (known : γ) (d : Document) :
    let n := Node.ofDocument d
    let (result, calls) := ((h.walk inside).run known n).run []
    result = (h.rewrite n).alone ∧
    calls = n.postorder.filterMap h.call? ∧
    (∀ m : Node (String ⊕ β), (∀ x ∈ m.postorder, x.kind?.bind h.get? = none) →
      h.rewrite m = ⟨m, none⟩) ∧
    ((h.rewrite n).reply?.join = none →
      result.definitionTexts = d.definitions.filterMap fun x =>
        (h.rewrite (.ofDefinition x)).text?) := by
  intro n
  have hrun : ((h.walk inside).run known n).run [] =
      ((h.rewrite n).alone, [] ++ n.postorder.filterMap h.call?) :=
    h.run_eq_rewrite inside known n []
  rw [hrun]
  refine ⟨rfl, rfl, h.rewrite_of_passed, fun hkept => ?_⟩
  have halone : (h.rewrite n).alone = .branch .document ""
      [.many .definitions (h.rewriteMembers (d.definitions.map .ofDefinition))] := by
    rw [Rewritten.alone, hkept]
    rfl
  have hdefinitions : (h.rewrite n).alone.definitionValues =
      (h.rewriteMembers (d.definitions.map .ofDefinition)).filterMap Node.value? := by
    rw [halone]
    simp [Node.definitionValues, Node.all, Node.parts, Part.role, Part.nodes]
  have hvalues : ∀ m ∈ d.definitions.map Node.ofDefinition, (m : Node (String ⊕ β)).value? = none :=
    List.forall_mem_map.mpr fun x _ => value?_ofDefinition x
  rw [Node.definitionTexts, hdefinitions, h.texts_rewriteMembers hvalues, List.filterMap_map]
  rfl

/-- A callback that gives the name of a node, if it has one. -/
def nameOnly (n : Node (String ⊕ Unit)) : Option (Node (String ⊕ Unit)) :=
  n.name?.map fun name => .value (.inl name)

/-- Several members of a list are deleted around one that stays. -/
example :
    let h : Handlers (Node (String ⊕ Unit) → Option (Node (String ⊕ Unit))) :=
      { handlers := [(.operation, nameOnly)]
        passed := NodeKind.definitions.erase .operation
        not_passed := by decide
        covered := by decide }
    let operation (name? : Option String) : Definition := .operation { name?, selections := [] }
    let d : Document := ⟨[operation none, operation none, operation "A", operation none,
      operation "B"]⟩
    (((h.walk fun known _ => known).run () (Node.ofDocument d)).run []).1.definitionTexts =
      ["A", "B"] := by
  rfl

end Handlers

end Graphwright.Document
