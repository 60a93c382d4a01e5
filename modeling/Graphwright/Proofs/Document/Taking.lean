import Graphwright.Proofs.Document.Proper

/-!
# Readers and the pieces they take

`Takes` says that a reader takes exactly some pieces and leaves what comes after them, provided that
the next piece does not continue what is read. Readers in a row take their pieces in a row.
-/
namespace Graphwright.Document

/-! ## Pieces ahead -/

def mark (text : String) : Piece := (.mark text, "")

def word (name : String) : Piece := (.name, name)

theorem value_of_piece {t : Token} {n : String} (h : t.piece = word n) : t.value = n := by
  obtain ⟨kind, value, start⟩ := t
  obtain ⟨rfl, hvalue⟩ := Prod.mk.inj h
  exact hvalue

def endPiece : Piece := (.endOfFile, "")

/-- Tokens that begin with some pieces, the last token being repeated. -/
inductive Begins : List Piece → Tokens → Prop
  | nil (ts : Tokens) : Begins [] ts
  | done {ps : List Piece} {last : Token} : Begins ps (.done last) →
      Begins (last.piece :: ps) (.done last)
  | next {ps : List Piece} {t : Token} {rest : Tokens} : Begins ps rest →
      Begins (t.piece :: ps) (.next t rest)

theorem Spells.begins {ps qs : List Piece} {ts rest : Tokens} (h : Spells ps ts rest)
    (hrest : Begins qs rest) : Begins (ps ++ qs) ts := by
  induction h with
  | nil => exact hrest
  | cons _ ih => exact .next (ih hrest)

/-- The tokens from the current one on begin with some pieces. -/
def Cursor.Ahead (c : Cursor) : List Piece → Prop
  | [] => True
  | p :: ps => c.current.piece = p ∧ Begins ps c.later

/-! ## Taking pieces -/

def Any (_ : Piece) : Prop := True

/-- In front of a certain next piece a reader takes some pieces, and what it gives has a
property. -/
def Takes {α : Type} (r : Read α) (ps : List Piece) (next : Piece → Prop)
    (post : α → Prop) : Prop :=
  ∀ ⦃c a rest⦄, next a → c.Ahead (ps ++ a :: rest) → ∃ v c', r.run c = .ok (v, c') ∧ post v ∧
    c'.Ahead (a :: rest)

/-- The first of some pieces has a property, or the next one if there are none. -/
def First : List Piece → (next first : Piece → Prop) → Prop
  | [], next, first => ∀ a, next a → first a
  | p :: _, _, first => first p

theorem First.any {ps : List Piece} {next : Piece → Prop} : First ps next Any := by
  cases ps with
  | nil => exact fun _ _ => trivial
  | cons => trivial

namespace Takes

variable {α β : Type} {x : Read α} {f : α → Read β} {ps qs : List Piece}
    {mid next next' : Piece → Prop} {p p' : α → Prop}
  {q : β → Prop}

theorem pure {v : α} (h : p v) : Takes (pure v) [] next p := fun c _ _ _ hc => ⟨v, c, rfl, h, hc⟩

theorem imp (h : Takes x ps mid p) (hnext : ∀ a, next a → mid a) (hp : ∀ v, p v → p' v) :
    Takes x ps next p' := by
  intro c a rest ha hc
  obtain ⟨v, c', hrun, hv, hc'⟩ := h (hnext a ha) hc
  exact ⟨v, c', hrun, hp v hv, hc'⟩

theorem append (hx : Takes x ps mid p) (hf : ∀ v, p v → Takes (f v) qs next q)
    (hfirst : First qs next mid) : Takes (x >>= f) (ps ++ qs) next q := by
  intro c a rest ha hc
  rw [List.append_assoc] at hc
  have hx : ∃ v c₁, x.run c = .ok (v, c₁) ∧ p v ∧ c₁.Ahead (qs ++ a :: rest) := by
    cases qs with
    | nil => exact hx (hfirst a ha) hc
    | cons b qs => exact hx hfirst hc
  obtain ⟨v, c₁, hrun, hv, hc₁⟩ := hx
  obtain ⟨w, c', hrun', hw, hc'⟩ := hf v hv ha hc₁
  exact ⟨w, c', by rw [StateT.run_bind, hrun]; exact hrun', hw, hc'⟩

theorem look (hx : Takes x [] mid p) (hf : ∀ v, p v → Takes (f v) qs next q)
    (hfirst : First qs next mid) :
    Takes (x >>= f) qs next q := hx.append hf hfirst

theorem cons {a : Piece} (hx : Takes x [a] Any p) (hf : ∀ v, p v → Takes (f v) qs next q) :
    Takes (x >>= f) (a :: qs) next q :=
  hx.append hf .any

theorem last (hx : Takes x ps next p) (hf : ∀ v, p v → Takes (f v) [] next q) :
    Takes (x >>= f) ps next q := by
  have h : Takes (x >>= f) (ps ++ []) next q := hx.append hf fun _ h => h
  rwa [List.append_nil] at h

/-! ### Single tokens -/

theorem current (next : Piece → Prop) : Takes Read.current [] next fun t => next t.piece := by
  intro c a rest ha hc
  obtain ⟨rfl, hlater⟩ := hc
  exact ⟨c.current, c, rfl, ha, rfl, hlater⟩

theorem onCurrent {a : Piece} {as : List Piece} {f : Token → Read β}
    (hf : ∀ t : Token, t.piece = a → Takes (f t) (a :: as) next q) :
    Takes (Read.current >>= f) (a :: as) next q :=
  (current (· = a)).look hf rfl

theorem advance {a : Piece} : Takes Read.advance [a] Any fun t => t.piece = a := by
  rintro ⟨source, current, later⟩ b rest - ⟨hcurrent, hlater⟩
  cases hlater with
  | done h => exact ⟨current, _, rfl, hcurrent, rfl, h⟩
  | next h => exact ⟨current, _, rfl, hcurrent, rfl, h⟩

theorem lookahead {a b : Piece} {as : List Piece} {f : Token → Read β}
    (hf : ∀ t : Token, t.piece = b → Takes (f t) (a :: b :: as) next q) :
    Takes (Read.lookahead >>= f) (a :: b :: as) next q := by
  rintro ⟨source, current, later⟩ a' rest ha ⟨hcurrent, hlater⟩
  cases hlater with
  | done h => exact hf _ rfl ha ⟨hcurrent, .done h⟩
  | next h => exact hf _ rfl ha ⟨hcurrent, .next h⟩

theorem peek_eq (kind : TokenKind) : Takes (Read.peek kind) [] (·.1 = kind) (· = true) :=
  (current (·.1 = kind)).look (fun t (ht : t.kind = kind) => .pure (by simp [ht])) fun _ h => h

theorem peek_ne (kind : TokenKind) : Takes (Read.peek kind) [] (·.1 ≠ kind) (· = false) :=
  (current (·.1 ≠ kind)).look (fun t (ht : t.kind ≠ kind) => .pure (by simp [ht])) fun _ h => h

theorem expect {a : Piece} {kind : TokenKind} (h : a.1 = kind) :
    Takes (Read.expect kind) [a] Any fun t => t.piece = a := by
  refine onCurrent fun t ht => ?_
  have hkind : t.kind = kind := (congrArg Prod.fst ht).trans h
  rw [if_pos (by simp [hkind])]
  exact advance

theorem expectMark (text : String) : Takes (Read.expectMark text) [mark text] Any fun _ => True :=
  (expect rfl).last fun _ _ => .pure trivial

theorem name (n : String) : Takes Read.name [word n] Any (· = n) :=
  (expect (a := word n) rfl).last fun _ ht => .pure (value_of_piece ht)

theorem optionalMark (text : String) :
    Takes (Read.optionalMark text) [mark text] Any (· = true) := by
  refine (peek_eq (.mark text)).look (fun b hb => ?_) rfl
  rw [if_pos hb]
  exact advance.last fun _ _ => .pure rfl

theorem noMark (text : String) :
    Takes (Read.optionalMark text) [] (·.1 ≠ .mark text) (· = false) := by
  refine (peek_ne (.mark text)).look (fun b hb => ?_) fun _ h => h
  rw [if_neg (by simp [hb])]
  exact .pure rfl

/-- Whether a token is a given word can be told from its piece. -/
theorem peekWord (w : String) (next : Piece → Prop) :
    Takes (Read.peekWord w) [] next fun b => ∃ a, next a ∧ (b = true ↔ a = word w) := by
  refine (current next).look (fun t ht => .pure ⟨t.piece, ht, ?_⟩) fun _ h => h
  obtain ⟨kind, value, start⟩ := t
  cases kind <;> simp [Token.piece, word]

theorem expectWord (w : String) : Takes (Read.expectWord w) [word w] Any fun _ => True := by
  refine onCurrent fun t _ => ?_
  refine (peekWord w (· = word w)).look (fun b hb => ?_) rfl
  obtain ⟨_, rfl, hb⟩ := hb
  rw [if_pos (hb.mpr rfl)]
  exact advance.last fun _ _ => .pure trivial

theorem optionalWord (w : String) : Takes (Read.optionalWord w) [word w] Any (· = true) := by
  refine (peekWord w (· = word w)).look (fun b hb => ?_) rfl
  obtain ⟨_, rfl, hb⟩ := hb
  rw [if_pos (hb.mpr rfl)]
  exact advance.last fun _ _ => .pure rfl

theorem noWord (w : String) : Takes (Read.optionalWord w) [] (· ≠ word w) (· = false) := by
  refine (peekWord w (· ≠ word w)).look (fun b hb => ?_) fun _ h => h
  obtain ⟨a, ha, hb⟩ := hb
  rw [if_neg fun h => ha (hb.mp h)]
  exact .pure rfl

end Takes

/-! ## Several items -/

theorem length_le_of_mem {γ : Type} (pieces : γ → List Piece) {y : γ} {ys : List γ} (hy : y ∈ ys) :
    (pieces y).length ≤ (ys.flatMap pieces).length := by
  obtain ⟨before, after, rfl⟩ := List.append_of_mem hy
  simp
  omega

/-- Items that a reader can take one after another: each begins with a piece that may follow another
item and is not the closing one. -/
structure Items {α γ : Type} (item : Read α) (pieces : γ → List Piece) (next : Piece → Prop)
    (close : Piece) (ys : List γ) :
    Prop where
  takes : ∀ y ∈ ys, Takes item (pieces y) next fun _ => True
  starts : ∀ y ∈ ys, ∃ a as, pieces y = a :: as ∧ a.1 ≠ close.1 ∧ next a
  close : next close

namespace Items

variable {α γ : Type} {item : Read α} {pieces : γ → List Piece} {next : Piece → Prop}
  {close : Piece} {y : γ} {ys : List γ}

theorem tail (h : Items item pieces next close (y :: ys)) : Items item pieces next close ys where
  takes z hz := h.takes z (List.mem_cons_of_mem _ hz)
  starts z hz := h.starts z (List.mem_cons_of_mem _ hz)
  close := h.close

theorem first (h : Items item pieces next close ys) :
    First (ys.flatMap pieces ++ [close]) Any next := by
  cases ys with
  | nil => exact h.close
  | cons y ys =>
    obtain ⟨a, as, hy, -, ha⟩ := h.starts y List.mem_cons_self
    rw [List.flatMap_cons, hy]
    exact ha

theorem length_le (h : Items item pieces next close ys) :
    ys.length ≤ (ys.flatMap pieces).length := by
  induction ys with
  | nil => exact Nat.le_refl _
  | cons y ys ih =>
    obtain ⟨a, as, hy, -⟩ := h.starts y List.mem_cons_self
    have hys := ih h.tail
    rw [List.flatMap_cons, List.length_append, List.length_cons, hy, List.length_cons]
    omega

theorem takes_itemsUntil (h : Items item pieces next close ys) {fuel : Nat}
    (hfuel : ys.length < fuel) :
    Takes (Read.itemsUntil fuel close.1 item) (ys.flatMap pieces ++ [close]) Any fun _ => True := by
  induction ys generalizing fuel with
  | nil =>
    obtain ⟨fuel, rfl⟩ := Nat.exists_eq_add_one_of_ne_zero (Nat.ne_zero_of_lt hfuel)
    refine (Takes.peek_eq close.1).look (fun b hb => ?_) rfl
    rw [if_pos hb]
    exact Takes.advance.last fun _ _ => .pure trivial
  | cons y ys ih =>
    obtain ⟨fuel, rfl⟩ := Nat.exists_eq_add_one_of_ne_zero (Nat.ne_zero_of_lt hfuel)
    obtain ⟨a, as, hy, ha, -⟩ := h.starts y List.mem_cons_self
    refine (Takes.peek_ne close.1).look (fun b hb => ?_) (by rw [List.flatMap_cons, hy]; exact ha)
    rw [if_neg (by simp [hb]), List.flatMap_cons, List.append_assoc]
    have ih := @ih h.tail fuel (by simpa using hfuel)
    exact (h.takes y List.mem_cons_self).append
      (fun _ _ => ih.last fun _ _ => .pure trivial) h.tail.first

theorem takes_anyNumber {opening closing : String} (h : Items item pieces next (mark closing) ys)
    {fuel : Nat} (hfuel : (ys.flatMap pieces).length < fuel) :
    Takes (Read.anyNumber fuel opening closing item)
      (mark opening :: (ys.flatMap pieces ++ [mark closing])) Any
      fun _ => True :=
  (Takes.expectMark opening).cons fun _ _ =>
    h.takes_itemsUntil (Nat.lt_of_le_of_lt h.length_le hfuel)

theorem takes_many {opening closing : String} (h : Items item pieces next (mark closing) ys)
    (hys : ys ≠ []) {fuel : Nat}
    (hfuel : (ys.flatMap pieces).length ≤ fuel) :
    Takes (Read.many fuel opening closing item)
      (mark opening :: (ys.flatMap pieces ++ [mark closing])) Any
      fun _ => True := by
  have hlength := Nat.le_trans h.length_le hfuel
  obtain ⟨y, ys, rfl⟩ := List.exists_cons_of_ne_nil hys
  rw [List.flatMap_cons, List.append_assoc]
  refine (Takes.expectMark opening).cons fun _ _ =>
    (h.takes y List.mem_cons_self).append (fun _ _ => ?_) h.tail.first
  exact (h.tail.takes_itemsUntil (Nat.lt_of_succ_le hlength)).last fun _ _ => .pure trivial

/-- The pieces of items between two marks, if there are any. -/
def optional (opening closing : String) (pieces : γ → List Piece) (ys : List γ) : List Piece :=
  if ys.isEmpty then [] else mark opening :: (ys.flatMap pieces ++ [mark closing])

theorem length_lt_optional (opening closing : String) (pieces : γ → List Piece) (hy : y ∈ ys) :
    (pieces y).length < (optional opening closing pieces ys).length := by
  have h := length_le_of_mem pieces hy
  rw [optional, if_neg (by simpa using List.ne_nil_of_mem hy), List.length_cons, List.length_append]
  omega

theorem takes_optionalMany {opening closing : String} (h : Items item pieces next (mark closing) ys)
    {fuel : Nat} (hfuel : (optional opening closing pieces ys).length ≤ fuel) :
    Takes (Read.optionalMany fuel opening closing item) (optional opening closing pieces ys)
      (·.1 ≠ .mark opening)
      fun _ => True := by
  cases ys with
  | nil =>
    refine (Takes.peek_ne (.mark opening)).look (fun b hb => ?_) fun _ h => h
    rw [if_neg (by simp [hb])]
    exact .pure trivial
  | cons y ys =>
    refine (Takes.peek_eq (.mark opening)).look (fun b hb => ?_) rfl
    rw [if_pos hb]
    exact (h.takes_many (by simp) (by simp [optional] at hfuel ⊢; omega)).imp
      (fun _ _ => trivial) fun _ h => h

end Items

def separated (separator : String) : List String → List Piece
  | [] => []
  | n :: rest => word n :: rest.flatMap fun m => [mark separator, word m]

theorem length_le_separated (separator : String) (names : List String) :
    names.length ≤ (separated separator names).length := by
  cases names with
  | nil => exact Nat.le_refl _
  | cons n rest =>
    have hrest : rest.length ≤ (rest.flatMap fun m => [mark separator, word m]).length := by
      induction rest with
      | nil => exact Nat.le_refl _
      | cons m ms ih =>
        rw [List.flatMap_cons, List.length_append, List.length_cons, List.length_cons]
        omega
    exact Nat.succ_le_succ hrest

theorem takes_delimited {α : Type} {item : Read α} {separator : String} {names : List String}
    (h : ∀ n ∈ names, Takes item [word n] Any fun _ => True) (hnames : names ≠ [])
    {fuel : Nat} (hfuel : names.length ≤ fuel) :
    Takes (Read.delimited fuel separator item) (separated separator names)
      (·.1 ≠ .mark separator) fun _ => True := by
  have hmore (names : List String)
      (h : ∀ n ∈ names, Takes item [word n] Any fun _ => True) {fuel : Nat}
      (hfuel : names.length < fuel) : Takes (Read.moreAfter fuel separator item)
        (names.flatMap fun m => [mark separator, word m])
          (·.1 ≠ .mark separator) fun _ => True := by
    induction names generalizing fuel with
    | nil =>
      obtain ⟨fuel, rfl⟩ := Nat.exists_eq_add_one_of_ne_zero (Nat.ne_zero_of_lt hfuel)
      refine (Takes.noMark separator).look (fun b hb => ?_) fun _ h => h
      rw [if_neg (by simp [hb])]
      exact .pure trivial
    | cons n rest ih =>
      obtain ⟨fuel, rfl⟩ := Nat.exists_eq_add_one_of_ne_zero (Nat.ne_zero_of_lt hfuel)
      obtain ⟨hn, hrest⟩ := List.forall_mem_cons.mp h
      refine (Takes.optionalMark separator).cons fun b hb => ?_
      rw [if_pos hb]
      exact hn.cons fun _ _ => (ih hrest (by simpa using hfuel)).last fun _ _ => .pure trivial
  obtain ⟨n, rest, rfl⟩ := List.exists_cons_of_ne_nil hnames
  obtain ⟨hn, hrest⟩ := List.forall_mem_cons.mp h
  refine (Takes.noMark separator).look (fun _ _ => ?_) (by simp [separated, First, word])
  exact hn.cons fun _ _ => (hmore rest hrest (Nat.lt_of_succ_le hfuel)).last fun _ _ =>
    .pure trivial

/-! ## Types -/

def TypeRef.pieces : TypeRef → List Piece
  | .named n => [word n]
  | .list item => mark "[" :: (item.pieces ++ [mark "]"])
  | .nonNull inner => inner.pieces ++ [mark "!"]

section TypeRef

def IsNonNullMark (qs : List Piece) : Prop := qs = [] ∨ qs = [mark "!"]

variable {qs : List Piece} {fuel : Nat}

theorem takes_nonNullMark (hqs : IsNonNullMark qs) (v : TypeRef) :
    Takes (do if ← Read.optionalMark "!" then return .nonNull v else return v) qs
      (·.1 ≠ .mark "!") fun _ => True := by
  rcases hqs with rfl | rfl
  · refine (Takes.noMark "!").look (fun b hb => ?_) fun _ h => h
    rw [if_neg (by simp [hb])]
    exact .pure trivial
  · refine (Takes.optionalMark "!").cons fun b hb => ?_
    rw [if_pos hb]
    exact .pure trivial

theorem takes_namedType (n : String) (hqs : IsNonNullMark qs) :
    Takes (Read.typeRef (fuel + 1)) (word n :: qs) (·.1 ≠ .mark "!") fun _ => True := by
  refine (Takes.noMark "[").look (fun b hb => ?_) (by simp [First, word])
  rw [if_neg (by simp [hb])]
  exact (Takes.name n).cons fun _ _ => takes_nonNullMark hqs _

theorem takes_listType {ps : List Piece}
    (hps : Takes (Read.typeRef fuel) ps (·.1 ≠ .mark "!") fun _ => True) (hqs : IsNonNullMark qs) :
    Takes (Read.typeRef (fuel + 1)) (mark "[" :: (ps ++ mark "]" :: qs))
      (·.1 ≠ .mark "!") fun _ => True := by
  refine (Takes.optionalMark "[").cons fun b hb => ?_
  rw [if_pos hb]
  refine hps.append (fun _ _ => ?_) (by simp [First, mark])
  exact (Takes.expectMark "]").cons fun _ _ => takes_nonNullMark hqs _

/-- A type reference, in front of anything but a non-null mark. -/
theorem takes_typeRef {t : TypeRef} (h : t.IsProper) {fuel : Nat} (hfuel : t.pieces.length < fuel) :
    Takes (Read.typeRef fuel) t.pieces (·.1 ≠ .mark "!") fun _ => True := by
  obtain ⟨fuel, rfl⟩ := Nat.exists_eq_add_one_of_ne_zero (Nat.ne_zero_of_lt hfuel)
  -- A non-null mark is taken together with the type in front of it, so the two are one case.
  match t, h with
  | .named n, _ => exact takes_namedType n (.inl rfl)
  | .list item, .list h =>
    exact takes_listType (takes_typeRef h (by simp [TypeRef.pieces] at hfuel; omega)) (.inl rfl)
  | .nonNull (.named n), _ => exact takes_namedType n (.inr rfl)
  | .nonNull (.list item), .nonNull (.list h) _ =>
    have hitem := @takes_typeRef item h fuel (by simp [TypeRef.pieces] at hfuel; omega)
    simpa [TypeRef.pieces] using takes_listType hitem (.inr rfl)

end TypeRef

/-! ## Values -/

mutual

def Value.pieces : Value → List Piece
  | .variable n => [mark "$", word n]
  | .int text => [(.int, text)]
  | .float text => [(.float, text)]
  | .string _ isBlock => [(if isBlock then .blockString else .string, "")]
  | .boolean b => [word (if b then "true" else "false")]
  | .null => [word "null"]
  | .enum n => [word n]
  | .list items => mark "[" :: (itemPieces items ++ [mark "]"])
  | .object fields => mark "\x7b" :: (fieldPieces fields ++ [mark "\x7d"])

def itemPieces : List Value → List Piece
  | [] => []
  | v :: rest => v.pieces ++ itemPieces rest

def fieldPieces : List (String × Value) → List Piece
  | [] => []
  | (n, v) :: rest => word n :: mark ":" :: (v.pieces ++ fieldPieces rest)

end

theorem itemPieces_eq (items : List Value) : itemPieces items = items.flatMap Value.pieces := by
  induction items with
  | nil => rfl
  | cons v rest ih => rw [itemPieces, ih, List.flatMap_cons]

/-- The pieces of an argument, or of a field of an object. -/
def argumentPieces (a : String × Value) : List Piece := word a.1 :: mark ":" :: a.2.pieces

theorem fieldPieces_eq (fields : List (String × Value)) :
    fieldPieces fields = fields.flatMap argumentPieces := by
  induction fields with
  | nil => rfl
  | cons f rest ih =>
    rw [fieldPieces, ih, List.flatMap_cons]
    rfl

theorem Value.exists_pieces (v : Value) : ∃ a as, v.pieces = a :: as ∧ a.1 ≠ .mark "]" := by
  cases v with
  | string text isBlock => cases isBlock <;> exact ⟨_, _, rfl, by simp⟩
  | _ => exact ⟨_, _, rfl, by simp [mark, word]⟩

/-- Arguments, or the fields of an object, if their values can be taken. -/
theorem items_argument {fuel : Nat} {args : List (String × Value)} {closing : String}
    (h : ∀ a ∈ args, Takes (Read.value true fuel) a.2.pieces Any fun _ => True) :
    Items (do
      let key ← Read.name
      Read.expectMark ":"
      return (key, ← Read.value true fuel)) argumentPieces Any (mark closing) args where
  takes a ha := (Takes.name a.1).cons fun _ _ => (Takes.expectMark ":").cons fun _ _ =>
    (h a ha).last fun _ _ => .pure trivial
  starts _ _ := ⟨_, _, rfl, by simp [word, mark], trivial⟩
  close := trivial

theorem items_item {fuel : Nat} {items : List Value}
    (h : ∀ v ∈ items, Takes (Read.value true fuel) v.pieces Any fun _ => True) :
    Items (Read.value true fuel) Value.pieces Any (mark "]") items where
  takes := h
  starts v _ := by
    obtain ⟨a, as, hv, ha⟩ := v.exists_pieces
    exact ⟨a, as, hv, ha, trivial⟩
  close := trivial

/-- A literal that is read by advancing over its one piece. -/
theorem takes_advanced {a : Piece} {f : Token → Read Value}
    (hf : ∀ t : Token, t.kind = a.1 → ∃ v, f t = (Read.advance >>= fun _ => pure v)) :
    Takes (Read.current >>= f) [a] Any fun _ => True := by
  refine Takes.onCurrent fun t ht => ?_
  obtain ⟨v, hv⟩ := hf t (congrArg Prod.fst ht)
  rw [hv]
  exact Takes.advance.last fun _ _ => .pure trivial

theorem takes_listValue {fuel : Nat} {items : List Value}
    (hfuel : (Value.list items).pieces.length ≤ fuel)
    (h : ∀ v ∈ items, Takes (Read.value true fuel) v.pieces Any fun _ => True) :
    Takes (Read.value true (fuel + 1)) (Value.list items).pieces Any fun _ => True := by
  rw [Value.pieces, itemPieces_eq] at hfuel ⊢
  simp only [List.length_cons, List.length_append] at hfuel
  refine Takes.onCurrent fun t ht => ?_
  have hkind : t.kind = .mark "[" := congrArg Prod.fst ht
  simp only [hkind]
  exact ((items_item h).takes_anyNumber (by omega)).last fun _ _ => .pure trivial

theorem takes_objectValue {fuel : Nat} {fields : List (String × Value)}
    (hfuel : (Value.object fields).pieces.length ≤ fuel)
    (h : ∀ f ∈ fields, Takes (Read.value true fuel) f.2.pieces Any fun _ => True) :
    Takes (Read.value true (fuel + 1)) (Value.object fields).pieces Any fun _ => True := by
  rw [Value.pieces, fieldPieces_eq] at hfuel ⊢
  simp only [List.length_cons, List.length_append] at hfuel
  refine Takes.onCurrent fun t ht => ?_
  have hkind : t.kind = .mark "\x7b" := congrArg Prod.fst ht
  simp only [hkind]
  exact ((items_argument h).takes_anyNumber (by omega)).last fun _ _ => .pure trivial

theorem Value.length_lt_list {v : Value} {items : List Value} (hv : v ∈ items) :
    v.pieces.length < (Value.list items).pieces.length := by
  have := length_le_of_mem Value.pieces hv
  rw [Value.pieces, itemPieces_eq, List.length_cons, List.length_append]
  omega

theorem Value.length_lt_object {f : String × Value} {fields : List (String × Value)}
    (hf : f ∈ fields) : f.2.pieces.length < (Value.object fields).pieces.length := by
  have := length_le_of_mem argumentPieces hf
  simp only [argumentPieces, List.length_cons] at this
  rw [Value.pieces, fieldPieces_eq, List.length_cons, List.length_append]
  omega

/-- A literal, whatever follows. -/
theorem takes_value {v : Value} (h : v.IsConstant) {fuel : Nat} (hfuel : v.pieces.length < fuel) :
    Takes (Read.value true fuel) v.pieces Any fun _ => True := by
  -- The fuel bounds the depth: a literal inside another one has fewer pieces.
  induction fuel generalizing v with
  | zero => exact absurd hfuel (Nat.not_lt_zero _)
  | succ fuel ih =>
    have hfuel : v.pieces.length ≤ fuel := Nat.le_of_lt_succ hfuel
    cases h with
    | int _ | float _ | boolean _ | null | enum _ => exact takes_advanced fun t ht =>
      ⟨_, by simp only [ht]; rfl⟩
    | string text isBlock =>
      cases isBlock <;> exact takes_advanced fun t ht => ⟨_, by simp only [ht]; rfl⟩
    | list hitems =>
      exact takes_listValue hfuel fun v hv =>
        ih (hitems v hv) (Nat.lt_of_lt_of_le (Value.length_lt_list hv) hfuel)
    | object _ hvalues =>
      exact takes_objectValue hfuel fun f hf =>
        ih (hvalues f hf) (Nat.lt_of_lt_of_le (Value.length_lt_object hf) hfuel)

/-! ## Directives, defaults and descriptions -/

def Directive.pieces (d : Directive) : List Piece :=
  mark "@" :: word d.name :: Items.optional "(" ")" argumentPieces d.arguments

/-- What does not go on with a directive. -/
def NoDirective (a : Piece) : Prop := a.1 ≠ .mark "@" ∧ a.1 ≠ .mark "("

theorem takes_directives {ds : List Directive} (h : ∀ d ∈ ds, ∀ a ∈ d.arguments, a.2.IsConstant)
    {fuel : Nat} (hfuel : (ds.flatMap Directive.pieces).length < fuel) :
    Takes (Read.directives true fuel) (ds.flatMap Directive.pieces) NoDirective fun _ => True := by
  induction ds generalizing fuel with
  | nil =>
    obtain ⟨fuel, rfl⟩ := Nat.exists_eq_add_one_of_ne_zero (Nat.ne_zero_of_lt hfuel)
    refine (Takes.noMark "@").look (fun b hb => ?_) fun _ h => h.1
    rw [if_neg (by simp [hb])]
    exact .pure trivial
  | cons d ds ih =>
    obtain ⟨fuel, rfl⟩ := Nat.exists_eq_add_one_of_ne_zero (Nat.ne_zero_of_lt hfuel)
    obtain ⟨hd, hds⟩ := List.forall_mem_cons.mp h
    simp only [List.flatMap_cons, Directive.pieces, List.cons_append, List.length_cons,
      List.length_append] at hfuel ⊢
    refine (Takes.optionalMark "@").cons fun b hb => ?_
    rw [if_pos hb]
    have hvalue : ∀ a ∈ d.arguments,
        Takes (Read.value true fuel) a.2.pieces Any fun _ => True := fun a ha => by
      have := Items.length_lt_optional "(" ")" argumentPieces ha
      simp only [argumentPieces, List.length_cons] at this
      exact takes_value (hd a ha) (by omega)
    have hnext : First (ds.flatMap Directive.pieces) NoDirective (·.1 ≠ .mark "(") := by
      cases ds with
      | nil => exact fun _ h => h.2
      | cons => simp [Directive.pieces, First, mark]
    refine (Takes.name d.name).cons fun _ _ => ?_
    exact ((items_argument hvalue).takes_optionalMany (by omega)).append
      (fun _ _ => (ih hds (by omega)).last fun _ _ =>
      .pure trivial) hnext

/-- The pieces of a default value, if there is one. -/
def defaultPieces : Option Value → List Piece
  | none => []
  | some v => mark "=" :: v.pieces

theorem takes_default {v? : Option Value} (h : ∀ v ∈ v?, v.IsConstant) {fuel : Nat}
    (hfuel : (defaultPieces v?).length < fuel) :
    Takes (Read.default? fuel) (defaultPieces v?) (·.1 ≠ .mark "=") fun _ => True := by
  cases v? with
  | none =>
    refine (Takes.noMark "=").look (fun b hb => ?_) fun _ h => h
    rw [if_neg (by simp [hb])]
    exact .pure trivial
  | some v =>
    refine (Takes.optionalMark "=").cons fun b hb => ?_
    rw [if_pos hb]
    have hv := @takes_value v (h v rfl) fuel (by simp [defaultPieces] at hfuel; omega)
    exact (hv.last fun _ _ => .pure trivial).imp (fun _ _ => trivial) fun _ h => h

def NoString (a : Piece) : Prop := a.1 ≠ .string ∧ a.1 ≠ .blockString

/-- The piece of a string, as a block or on one line. -/
def stringPiece (isBlock : Bool) : Piece := (if isBlock then .blockString else .string, "")

theorem peekDescription_eq (isBlock : Bool) :
    Takes Read.peekDescription [] (· = stringPiece isBlock) (· = true) := by
  have hpeek (kind : TokenKind) : Takes (Read.peek kind) [] (· = stringPiece isBlock)
      (· = ((stringPiece isBlock).1 == kind)) :=
    (Takes.current (· = stringPiece isBlock)).look
      (fun t (ht : t.piece = _) => .pure (by rw [← ht]; rfl)) fun _ h => h
  refine (hpeek .string).look
    (fun a ha => (hpeek .blockString).look (fun b hb => .pure ?_) fun _ h => h) fun _ h => h
  cases isBlock <;> simp [ha, hb, stringPiece]

theorem noPeekDescription : Takes Read.peekDescription [] NoString (· = false) := by
  refine (Takes.peek_ne .string).look (fun a ha => ?_) fun _ h => h.1
  exact (Takes.peek_ne .blockString).look (fun b hb => .pure (by simp [ha, hb])) fun _ h => h.2

theorem noDescription : Takes Read.description? [] NoString fun _ => True := by
  refine noPeekDescription.look (fun b hb => ?_) fun _ h => h
  rw [if_neg (by simp [hb])]
  exact .pure trivial

theorem takes_description (isBlock : Bool) :
    Takes Read.description? [stringPiece isBlock] Any fun _ => True := by
  refine (peekDescription_eq isBlock).look (fun b hb => ?_) rfl
  rw [if_pos hb]
  exact Takes.advance.last fun _ _ => .pure trivial

end Graphwright.Document
