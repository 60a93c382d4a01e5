import Graphwright.Document.Printer
import Graphwright.Document.Token
import Graphwright.Proofs.Naming.Letters
import Graphwright.Proofs.Outcome
import Mathlib.Data.List.TakeWhile

/-!
# Cutting printed texts

How the pieces of a printed text are cut into tokens again. A piece is followed by others: `Cuts`
says which tokens a text is cut into in front of anything that does not continue its last token, and
`CutsFreely` in front of anything at all. Names (`cuts_name`) and numbers (`cuts_number`) are cut
into themselves. Conversely every token that is cut from a text is what it claims to be
(`sound_scan`): its name is a name, its number is a number.
-/
namespace Graphwright.Document

/-! ## Tokens without their places -/

/-- The kind of a token, and the text of a name or a number. -/
abbrev Piece := TokenKind × String

/-- What readers tell tokens apart by: not the places, and not the contents of strings. -/
def Token.piece (t : Token) : Piece :=
  (t.kind, match t.kind with
    | .string | .blockString => ""
    | _ => t.value)

/-- Tokens that begin with some pieces and go on with others. -/
inductive Spells : List Piece → Tokens → Tokens → Prop
  | nil (rest : Tokens) : Spells [] rest rest
  | cons {ps : List Piece} {t : Token} {later rest : Tokens} :
      Spells ps later rest → Spells (t.piece :: ps) (.next t later) rest

theorem Spells.append {ps qs : List Piece} {first middle last : Tokens} (h : Spells ps first middle)
    (h' : Spells qs middle last) : Spells (ps ++ qs) first last := by
  induction h with
  | nil => exact h'
  | cons _ ih => exact .cons (ih h')

theorem Spells.length_le {ps : List Piece} {fuel position : Nat} {cs : List Char} {rest : Tokens}
    (h : Spells ps (scanFrom fuel position cs) rest) : ps.length ≤ fuel := by
  induction fuel generalizing ps position cs with
  | zero =>
    cases h with
    | nil => exact Nat.le_refl 0
  | succ fuel ih =>
    unfold scanFrom at h
    split at h
    · exact Nat.le_succ_of_le (ih h)
    · split at h
      · exact Nat.le_succ_of_le (ih h)
      · split at h
        · cases h with
          | nil => exact Nat.zero_le _
        · cases h with
          | nil => exact Nat.zero_le _
          | cons h => exact Nat.succ_le_succ (ih h)
    · cases h with
      | nil => exact Nat.zero_le _

/-! ## Texts and their tokens -/

/-- A character that continues no name, number or string. -/
def breaks (c : Char) : Bool := !isNameRest c && c != '.' && c != '"'

/-- A text that does not continue a token in front of it. -/
def Breaks (rest : List Char) : Prop := ∀ c ∈ rest.head?, breaks c

/-- Characters that are cut into some tokens in front of certain texts. -/
def CutsBefore (before : List Char → Prop) (cs : List Char) (ps : List Piece) : Prop :=
  ∀ rest, before rest → ∀ fuel position, (cs ++ rest).length < fuel →
    ∃ fuel' position', rest.length < fuel' ∧
    Spells ps (scanFrom fuel position (cs ++ rest)) (scanFrom fuel' position' rest)

/-- Characters that are cut into some tokens unless their last one goes on. -/
def Cuts (cs : List Char) (ps : List Piece) : Prop := CutsBefore Breaks cs ps

/-- Characters that are cut into some tokens, whatever follows. -/
def CutsFreely (cs : List Char) (ps : List Piece) : Prop := CutsBefore (fun _ => True) cs ps

/-- Characters that keep apart what is around them. -/
def Parts (cs : List Char) : Prop := ∀ rest, Breaks rest → Breaks (cs ++ rest)

theorem parts_nil : Parts [] := fun _ h => h

theorem parts_cons {c : Char} (h : breaks c) (cs : List Char) :
    Parts (c :: cs) := fun _ _ d hd => by
  obtain rfl := Option.some.inj hd
  exact h

theorem CutsBefore.append {before before' : List Char → Prop} {cs ds : List Char}
    {ps qs : List Piece} (h : CutsBefore before cs ps) (h' : CutsBefore before' ds qs)
    (hbefore : ∀ rest, before' rest → before (ds ++ rest)) :
    CutsBefore before' (cs ++ ds) (ps ++ qs) := by
  intro rest hrest fuel position hfuel
  rw [List.append_assoc] at hfuel ⊢
  obtain ⟨fuel', position', hfuel', hps⟩ := h (ds ++ rest) (hbefore rest hrest) fuel position hfuel
  obtain ⟨fuel'', position'', hfuel'', hqs⟩ := h' rest hrest fuel' position' hfuel'
  exact ⟨fuel'', position'', hfuel'', hps.append hqs⟩

theorem CutsFreely.cuts {cs : List Char} {ps : List Piece} (h : CutsFreely cs ps) : Cuts cs ps :=
  fun _ _ => h _ trivial

theorem CutsFreely.append {cs ds : List Char} {ps qs : List Piece} (h : CutsFreely cs ps)
    (h' : CutsFreely ds qs) : CutsFreely (cs ++ ds) (ps ++ qs) :=
  CutsBefore.append h h' fun _ _ => trivial

theorem CutsFreely.append_cuts {cs ds : List Char} {ps qs : List Piece} (h : CutsFreely cs ps)
    (h' : Cuts ds qs) : Cuts (cs ++ ds) (ps ++ qs) :=
  CutsBefore.append h h' fun _ _ => trivial

theorem Cuts.append {cs ds : List Char} {ps qs : List Piece} (h : Cuts cs ps) (h' : Cuts ds qs)
    (hds : Parts ds) : Cuts (cs ++ ds) (ps ++ qs) :=
  CutsBefore.append h h' hds

theorem cutsFreely_nil : CutsFreely [] [] :=
  fun _ _ fuel position hfuel => ⟨fuel, position, hfuel, .nil _⟩

/-- Blanks are dropped. -/
theorem cutsFreely_blank {cs : List Char} (h : ∀ c ∈ cs, isIgnored c) : CutsFreely cs [] := by
  induction cs with
  | nil => exact cutsFreely_nil
  | cons c cs ih =>
    intro rest _ fuel position hfuel
    obtain ⟨fuel, rfl⟩ := Nat.exists_eq_add_one_of_ne_zero (Nat.ne_zero_of_lt hfuel)
    have hc : isIgnored c := h c List.mem_cons_self
    have hcomment : c ≠ '#' := by
      rintro rfl
      exact absurd hc (by decide)
    have hstep : scanFrom (fuel + 1) position (c :: (cs ++ rest)) =
        scanFrom fuel (position + 1) (cs ++ rest) := by
      rw [scanFrom]
      · simp [hc]
      · exact hcomment
    rw [List.cons_append, hstep]
    exact ih (fun d hd => h d (List.mem_cons_of_mem _ hd)) rest trivial fuel (position + 1)
      (by simp at hfuel ⊢; omega)

theorem cutsBefore_lexeme {before : List Char → Prop} {c : Char} {cs : List Char} {p : Piece}
    (hc : isIgnored c = false) (hcomment : c ≠ '#')
    (h : ∀ rest, before rest → ∀ position, ∃ kind value length,
      lexeme position (c :: (cs ++ rest)) = .ok ⟨kind, value, length, rest⟩ ∧
      Token.piece ⟨kind, value, position⟩ = p) :
    CutsBefore before (c :: cs) [p] := by
  intro rest hrest fuel position hfuel
  obtain ⟨fuel, rfl⟩ := Nat.exists_eq_add_one_of_ne_zero (Nat.ne_zero_of_lt hfuel)
  obtain ⟨kind, value, length, hlexeme, rfl⟩ := h rest hrest position
  have hstep : scanFrom (fuel + 1) position (c :: (cs ++ rest)) =
      .next ⟨kind, value, position⟩ (scanFrom fuel (position + length) rest) := by
    rw [scanFrom]
    · simp [hc, hlexeme]
    · exact hcomment
  rw [List.cons_append, hstep]
  exact ⟨fuel, position + length, by simp at hfuel; omega,
    @Spells.cons [] ⟨kind, value, position⟩ _ _ (.nil _)⟩

/-! ## Marks and names -/

theorem cutsFreely_mark {c : Char} (h : c ∈ marks) : CutsFreely [c] [(.mark c.toString, "")] := by
  have hmarks : marks.all fun c => !isIgnored c && c != '#' && c != '"' && c != '.' := by decide
  have hc := List.all_eq_true.mp hmarks c h
  simp only [Bool.and_eq_true, Bool.not_eq_true', bne_iff_ne] at hc
  obtain ⟨⟨⟨hignored, hcomment⟩, hquote⟩, hdot⟩ := hc
  refine cutsBefore_lexeme hignored hcomment fun rest _ position =>
    ⟨.mark c.toString, "", 1, ?_, rfl⟩
  rw [lexeme]
  · simp [h]
  · exact fun _ hc => absurd hc hquote
  · exact fun hc => absurd hc hquote
  · exact fun _ hc => absurd hc hdot

theorem not_isNameStart_of_isDigit {c : Char} (h : c.isDigit) : isNameStart c = false := by
  have hc : c.toNat < 128 := by
    rw [Char.isDigit_iff_toNat] at h
    exact Nat.lt_of_le_of_lt h.2 (by decide)
  exact Naming.forall_ascii (P := fun c => c.isDigit → isNameStart c = false) (by decide) hc h

def IsName (name : String) : Prop :=
  ∃ c cs, name.toList = c :: cs ∧ isNameStart c ∧ ∀ d ∈ cs, isNameRest d

theorem isName_iff {name : String} :
    IsName name ↔ name.toList.head?.any isNameStart ∧ name.toList.tail.all isNameRest := by
  unfold IsName
  cases name.toList with
  | nil => simp
  | cons c cs => simp [and_assoc]

instance (name : String) : Decidable (IsName name) := decidable_of_iff _ isName_iff.symm

theorem not_isNameRest_of_breaks {rest : List Char} (h : Breaks rest) :
    ∀ c ∈ rest.head?, isNameRest c = false := by
  intro c hc
  have hbreaks := h c hc
  simp only [breaks, Bool.and_eq_true, Bool.not_eq_true'] at hbreaks
  exact hbreaks.1.1

/-- A run of characters of one kind is taken to its end. -/
theorem takeWhile_append {p : Char → Bool} {cs rest : List Char} (h : ∀ c ∈ cs, p c)
    (hrest : ∀ c ∈ rest.head?, p c = false) : (cs ++ rest).takeWhile p = cs := by
  rw [List.takeWhile_append_of_pos h]
  cases rest with
  | nil => simp
  | cons c rest => simp [hrest c rfl]

theorem dropWhile_append {p : Char → Bool} {cs rest : List Char} (h : ∀ c ∈ cs, p c)
    (hrest : ∀ c ∈ rest.head?, p c = false) : (cs ++ rest).dropWhile p = rest := by
  rw [List.dropWhile_append_of_pos h]
  cases rest with
  | nil => simp
  | cons c rest => simp [hrest c rfl]

theorem isNameRest_of_isNameStart {c : Char} (h : isNameStart c) : isNameRest c := by
  simp only [isNameStart, isNameRest, Char.isAlphanum, Bool.or_eq_true] at h ⊢
  exact h.imp_left .inl

theorem cuts_name {name : String} (h : IsName name) : Cuts name.toList [(.name, name)] := by
  obtain ⟨c, cs, hname, hc, hcs⟩ := h
  have hall : ∀ d ∈ c :: cs, isNameRest d := by
    intro d hd
    rcases List.mem_cons.mp hd with rfl | hd
    · exact isNameRest_of_isNameStart hc
    · exact hcs d hd
  have hother (d : Char) (hd : isNameStart d = false) : c ≠ d := by
    rintro rfl
    exact absurd hc (by simp [hd])
  have hmark : c ∉ marks := fun hmem => by
    have hstart : marks.all fun m => !isNameStart m := by decide
    simpa [hc] using List.all_eq_true.mp hstart c hmem
  have hignored : isIgnored c = false := by
    simp [isIgnored, hother ' ' (by decide), hother '\t' (by decide), hother ',' (by decide),
      hother '\uFEFF' (by decide), hother '\n' (by decide), hother '\r' (by decide)]
  have hdigit : c.isDigit = false := by
    rw [← Bool.not_eq_true]
    exact fun h => by simp [not_isNameStart_of_isDigit h] at hc
  rw [hname]
  refine cutsBefore_lexeme hignored (hother _ (by decide)) fun rest hbreaks position =>
    ⟨.name, name, (c :: cs).length, ?_, rfl⟩
  have hvalue : String.ofList (c :: cs) = name := by rw [← hname, String.ofList_toList]
  rw [lexeme]
  · rw [← List.cons_append, takeWhile_append hall (not_isNameRest_of_breaks hbreaks),
      dropWhile_append hall (not_isNameRest_of_breaks hbreaks)]
    simp [hmark, hdigit, hc, hother '-' (by decide), hvalue]
  · exact fun _ h => absurd h (hother _ (by decide))
  · exact fun h => absurd h (hother _ (by decide))
  · exact fun _ h => absurd h (hother _ (by decide))

/-! ## Numbers -/

/-- Digits, at least one. -/
def IsDigits (ds : List Char) : Prop := ds ≠ [] ∧ ∀ d ∈ ds, d.isDigit

/-- The whole part of a number: no other digit follows a zero in front. -/
inductive IsWhole : List Char → Prop
  | zero : IsWhole ['0']
  | digits {ds : List Char} : IsDigits ds → ds.head? ≠ some '0' → IsWhole ds

inductive IsFraction : List Char → Prop
  | none : IsFraction []
  | digits {ds : List Char} : IsDigits ds → IsFraction ('.' :: ds)

inductive IsExponent : List Char → Prop
  | none : IsExponent []
  | digits {e : Char} {sign ds : List Char} :
      e = 'e' ∨ e = 'E' → sign = [] ∨ sign = ['+'] ∨ sign = ['-'] → IsDigits ds →
      IsExponent (e :: sign ++ ds)

inductive IsNumber : TokenKind → String → Prop
  | mk {sign whole fraction exponent : List Char} : sign = [] ∨ sign = ['-'] → IsWhole whole →
      IsFraction fraction → IsExponent exponent →
      IsNumber (if !fraction.isEmpty || !exponent.isEmpty then .float else .int)
        (String.ofList (sign ++ whole ++ fraction ++ exponent))

theorem IsNumber.kind_eq {kind : TokenKind} {text : String} (h : IsNumber kind text) :
    kind = .int ∨ kind = .float := by
  obtain ⟨-, -, -, -⟩ := h
  split
  · exact .inr rfl
  · exact .inl rfl

/-- No digit comes first. -/
def NoDigit (rest : List Char) : Prop := ∀ c ∈ rest.head?, c.isDigit = false

theorem digits_append {ds rest : List Char} (h : IsDigits ds) (hrest : NoDigit rest)
    (position : Nat) : digits position (ds ++ rest) = .ok (ds, rest) := by
  unfold digits
  rw [takeWhile_append h.2 hrest, dropWhile_append h.2 hrest]
  simp [h.1]

theorem digits_ok {position : Nat} {cs ds rest : List Char}
    (h : digits position cs = .ok (ds, rest)) : cs = ds ++ rest ∧ IsDigits ds := by
  unfold digits at h
  dsimp only at h
  split at h
  · cases h
  · rename_i hne
    cases h
    exact ⟨List.takeWhile_append_dropWhile.symm, by simpa using hne,
      fun d hd => List.mem_takeWhile_imp hd⟩

theorem wholePart_append {whole rest : List Char} (h : IsWhole whole) (hrest : NoDigit rest)
    (position : Nat) : wholePart position (whole ++ rest) = .ok (whole, rest) := by
  cases h with
  | zero =>
    cases rest with
    | nil => rfl
    | cons c rest => simp [wholePart, hrest c rfl]
  | digits hds hzero =>
    rw [wholePart]
    · exact digits_append hds hrest position
    · intro more hmore
      obtain ⟨d, ds, rfl⟩ := List.exists_cons_of_ne_nil hds.1
      exact hzero (congrArg some (List.cons.inj hmore).1)

theorem wholePart_ok {position : Nat} {cs whole rest : List Char}
    (h : wholePart position cs = .ok (whole, rest)) : IsWhole whole := by
  unfold wholePart at h
  split at h
  · split at h
    · split at h <;> cases h
      exact .zero
    · cases h
      exact .zero
  · rename_i hzero
    obtain ⟨rfl, hds⟩ := digits_ok h
    refine .digits hds fun hhead => ?_
    obtain ⟨d, ds, rfl⟩ := List.exists_cons_of_ne_nil hds.1
    cases hhead
    exact hzero _ rfl

/-- The fraction of a number, behind what is taken of the number so far. -/
def fractionPart (position : Nat) (soFar cs : List Char) :
    Except LexFault (List Char × List Char × Bool) :=
  match cs with
  | '.' :: rest => do
    let (ds, rest) ← digits (position + soFar.length + 1) rest
    pure (soFar ++ '.' :: ds, rest, true)
  | _ => pure (soFar, cs, false)

/-- The exponent of a number, behind what is taken of the number so far. -/
def exponentPart (position : Nat) (soFar cs : List Char) (fractional : Bool) :
    Except LexFault (List Char × List Char × Bool) :=
  match cs with
  | e :: rest =>
    if e = 'e' || e = 'E' then do
      let (mark, rest) := match rest with
        | '+' :: more => ([e, '+'], more)
        | '-' :: more => ([e, '-'], more)
        | _ => ([e], rest)
      let (ds, rest) ← digits (position + soFar.length + mark.length) rest
      pure (soFar ++ mark ++ ds, rest, true)
    else pure (soFar, cs, fractional)
  | [] => pure (soFar, cs, fractional)

/-- The end of a number, behind which neither a point nor a name may come. -/
def numberEnd (position : Nat) (soFar rest : List Char) (fractional : Bool) :
    Except LexFault Lexeme :=
  if rest.head?.any fun c => c == '.' || isNameStart c then
    .error ⟨position + soFar.length,
      "Invalid number, expected digit but got: " ++ codePoint rest ++ ".", false⟩
  else .ok ⟨if fractional then .float else .int, String.ofList soFar, soFar.length, rest⟩

/-- The sign of a number, and what follows it. -/
def signPart (cs : List Char) : List Char × List Char :=
  match cs with
  | '-' :: rest => (['-'], rest)
  | _ => ([], cs)

theorem fractionPart_point (position : Nat) (soFar rest : List Char) :
    fractionPart position soFar ('.' :: rest) =
    digits (position + soFar.length + 1) rest >>= fun ds =>
      pure (soFar ++ '.' :: ds.1, ds.2, true) := rfl

theorem fractionPart_of_ne {cs : List Char} (h : ∀ rest, cs ≠ '.' :: rest) (position : Nat)
    (soFar : List Char) : fractionPart position soFar cs = pure (soFar, cs, false) := by
  rw [fractionPart]
  exact h

/-- A number is taken part by part. -/
theorem number_eq (position : Nat) (cs : List Char) : number position cs =
    wholePart (position + (signPart cs).1.length) (signPart cs).2 >>= fun whole =>
      fractionPart position ((signPart cs).1 ++ whole.1) whole.2 >>= fun fraction =>
        exponentPart position fraction.1 fraction.2.1 fraction.2.2 >>= fun exponent =>
          numberEnd position exponent.1 exponent.2.1 exponent.2.2 := by
  have hend (soFar rest : List Char) (fractional : Bool) :
      (if (match rest with
        | c :: _ => c == '.' || isNameStart c
        | [] => false) then
        .error ⟨position + soFar.length,
          "Invalid number, expected digit but got: " ++ codePoint rest ++ ".", false⟩
      else .ok ⟨if fractional then .float else .int, String.ofList soFar, soFar.length, rest⟩) =
        numberEnd position soFar rest fractional := by
    unfold numberEnd
    cases rest <;> rfl
  -- The exponent is looked for in two places: behind a fraction, and right behind the whole part.
  unfold number
  refine bind_congr fun whole => ?_
  obtain ⟨whole, afterWhole⟩ := whole
  dsimp only
  split
  · rw [fractionPart_point, bind_assoc]
    refine bind_congr fun ds => ?_
    obtain ⟨ds, afterDs⟩ := ds
    cases afterDs with
    | nil => exact hend _ [] true
    | cons e rest =>
      by_cases he : (e = 'e' || e = 'E') = true
      · simp only [pure_bind, exponentPart, he, if_true, bind_assoc]
        exact bind_congr fun ds => hend _ ds.2 true
      · simp only [pure_bind, exponentPart, he]
        exact hend _ (e :: rest) true
  · rw [fractionPart_of_ne (by assumption), pure_bind]
    cases afterWhole with
    | nil => exact hend _ [] false
    | cons e rest =>
      by_cases he : (e = 'e' || e = 'E') = true
      · simp only [pure_bind, exponentPart, he, if_true, bind_assoc]
        exact bind_congr fun ds => hend _ ds.2 true
      · simp only [pure_bind, exponentPart, he]
        exact hend _ (e :: rest) false

theorem fractionPart_ok {position : Nat} {soFar cs soFar' rest : List Char} {fractional : Bool}
    (h : fractionPart position soFar cs = .ok (soFar', rest, fractional)) :
    ∃ fraction, IsFraction fraction ∧ soFar' = soFar ++ fraction ∧
    fractional = !fraction.isEmpty := by
  unfold fractionPart at h
  split at h
  · obtain ⟨⟨ds, more⟩, hds, h⟩ := bind_eq_ok.mp h
    cases h
    exact ⟨_, .digits (digits_ok hds).2, rfl, rfl⟩
  · cases h
    exact ⟨[], .none, (List.append_nil _).symm, rfl⟩

theorem exponentPart_ok {position : Nat} {soFar cs soFar' rest : List Char}
    {fractional fractional' : Bool}
    (h : exponentPart position soFar cs fractional = .ok (soFar', rest, fractional')) :
    ∃ exponent, IsExponent exponent ∧ soFar' = soFar ++ exponent ∧
    fractional' = (fractional || !exponent.isEmpty) := by
  have hnone : ∃ exponent, IsExponent exponent ∧ soFar = soFar ++ exponent ∧
      fractional = (fractional || !exponent.isEmpty) :=
    ⟨[], .none, (List.append_nil _).symm, by simp⟩
  unfold exponentPart at h
  split at h
  · rename_i e rest
    split at h
    · rename_i he
      obtain ⟨⟨ds, more⟩, htaken, h⟩ := bind_eq_ok.mp h
      have hds := (digits_ok htaken).2
      clear htaken
      simp only [Bool.or_eq_true, decide_eq_true_eq] at he
      cases h
      split
      · exact ⟨_, .digits he (.inr (.inl rfl)) hds, by simp, by simp⟩
      · exact ⟨_, .digits he (.inr (.inr rfl)) hds, by simp, by simp⟩
      · exact ⟨_, .digits he (.inl rfl) hds, by simp, by simp⟩
    · cases h
      exact hnone
  · cases h
    exact hnone

/-- What is taken for a number is a number. -/
theorem isNumber_of_number {position : Nat} {cs : List Char} {l : Lexeme}
    (h : number position cs = .ok l) : IsNumber l.kind l.value := by
  rw [number_eq] at h
  obtain ⟨⟨whole, afterWhole⟩, hwhole, h⟩ := bind_eq_ok.mp h
  obtain ⟨⟨_, afterFraction, fractional⟩, hfraction, h⟩ := bind_eq_ok.mp h
  obtain ⟨⟨_, rest, fractional'⟩, hexponent, h⟩ := bind_eq_ok.mp h
  obtain ⟨fraction, isFraction, rfl, rfl⟩ := fractionPart_ok hfraction
  obtain ⟨exponent, isExponent, rfl, rfl⟩ := exponentPart_ok hexponent
  have hsign : (signPart cs).1 = [] ∨ (signPart cs).1 = ['-'] := by
    unfold signPart
    split <;> simp
  unfold numberEnd at h
  split at h
  · cases h
  · cases h
    exact .mk hsign (wholePart_ok hwhole) isFraction isExponent

theorem fractionPart_append {fraction rest : List Char} (h : IsFraction fraction)
    (hrest : NoDigit rest) (hpoint : rest.head? ≠ some '.') (position : Nat) (soFar : List Char) :
    fractionPart position soFar (fraction ++ rest) =
      .ok (soFar ++ fraction, rest, !fraction.isEmpty) := by
  cases h with
  | none =>
    rw [List.nil_append, fractionPart_of_ne]
    · simp [pure, Except.pure]
    · rintro more rfl
      exact hpoint rfl
  | digits hds =>
    rw [List.cons_append, fractionPart_point, digits_append hds hrest]
    rfl

theorem exponentPart_append {exponent rest : List Char} (h : IsExponent exponent)
    (hrest : NoDigit rest) (he : ∀ c ∈ rest.head?, isNameStart c = false) (position : Nat)
    (soFar : List Char) (fractional : Bool) :
    exponentPart position soFar (exponent ++ rest) fractional =
      .ok (soFar ++ exponent, rest, fractional || !exponent.isEmpty) := by
  cases h with
  | none =>
    cases rest with
    | nil => simp [exponentPart, pure, Except.pure]
    | cons c rest =>
      have hc : (c = 'e' || c = 'E') = false := by
        have hstart := he c rfl
        rw [Bool.eq_false_iff]
        intro h
        simp only [Bool.or_eq_true, decide_eq_true_eq] at h
        obtain rfl | rfl := h <;> exact absurd hstart (by decide)
      simp [exponentPart, hc, pure, Except.pure]
  | @digits e sign ds he hsign hds =>
    have he : (e = 'e' || e = 'E') = true := by simpa using he
    have htaken (n : Nat) := digits_append hds hrest n
    have hds : ∀ c more, ds ++ rest = c :: more → c ≠ '+' ∧ c ≠ '-' := by
      rintro c more h
      obtain ⟨d, ds, rfl⟩ := List.exists_cons_of_ne_nil hds.1
      obtain ⟨rfl, -⟩ := List.cons.inj h
      have hd : d.isDigit := hds.2 d List.mem_cons_self
      constructor <;> rintro rfl <;> exact absurd hd (by decide)
    obtain rfl | rfl | rfl := hsign
    · have hsign : (match ds ++ rest with
          | '+' :: more => ([e, '+'], more)
          | '-' :: more => ([e, '-'], more)
          | _ => ([e], ds ++ rest)) = ([e], ds ++ rest) := by
        split
        · exact absurd rfl (hds _ _ (by assumption)).1
        · exact absurd rfl (hds _ _ (by assumption)).2
        · rfl
      simp [exponentPart, he, hsign, htaken, pure, Except.pure, bind, Except.bind]
    · simp [exponentPart, he, htaken, pure, Except.pure, bind, Except.bind]
    · simp [exponentPart, he, htaken, pure, Except.pure, bind, Except.bind]

theorem noDigit_of_breaks {rest : List Char} (h : Breaks rest) : NoDigit rest := by
  intro c hc
  have hrest := not_isNameRest_of_breaks h c hc
  simp only [isNameRest, Char.isAlphanum, Bool.or_eq_false_iff] at hrest
  exact hrest.1.2

theorem not_isNameStart_of_breaks {rest : List Char} (h : Breaks rest) :
    ∀ c ∈ rest.head?, isNameStart c = false := by
  intro c hc
  have hrest := not_isNameRest_of_breaks h c hc
  simp only [isNameRest, Char.isAlphanum, Bool.or_eq_false_iff] at hrest
  simp [isNameStart, hrest]

theorem IsFraction.noDigit {fraction : List Char} (h : IsFraction fraction) {rest : List Char}
    (hrest : NoDigit rest) : NoDigit (fraction ++ rest) := by
  cases h with
  | none => exact hrest
  | digits _ =>
    rintro c hc
    cases hc
    decide

theorem IsExponent.noDigit {exponent : List Char} (h : IsExponent exponent) {rest : List Char}
    (hrest : NoDigit rest) : NoDigit (exponent ++ rest) := by
  cases h with
  | none => exact hrest
  | digits he _ _ =>
    rintro c hc
    cases hc
    obtain rfl | rfl := he <;> decide

theorem IsExponent.head?_append {exponent : List Char} (h : IsExponent exponent) {rest : List Char}
    (hrest : rest.head? ≠ some '.') : (exponent ++ rest).head? ≠ some '.' := by
  cases h with
  | none => exact hrest
  | digits he _ _ =>
    intro hc
    cases hc
    obtain h | h := he <;> cases h

theorem IsWhole.exists_cons {whole : List Char} (h : IsWhole whole) :
    ∃ d ds, whole = d :: ds ∧ d.isDigit := by
  cases h with
  | zero => exact ⟨'0', [], rfl, by decide⟩
  | digits hds _ =>
    obtain ⟨d, ds, rfl⟩ := List.exists_cons_of_ne_nil hds.1
    exact ⟨d, ds, rfl, hds.2 d List.mem_cons_self⟩

theorem signPart_append {sign whole rest : List Char} (hsign : sign = [] ∨ sign = ['-'])
    (hwhole : IsWhole whole) : signPart (sign ++ (whole ++ rest)) = (sign, whole ++ rest) := by
  obtain rfl | rfl := hsign
  · obtain ⟨d, ds, rfl, hd⟩ := hwhole.exists_cons
    rw [List.nil_append, signPart]
    rintro more hmore
    obtain ⟨rfl, -⟩ := List.cons.inj hmore
    exact absurd hd (by decide)
  · rfl

/-- A number is taken for a number, unless what follows continues it. -/
theorem number_append {kind : TokenKind} {text : String} (h : IsNumber kind text) {rest : List Char}
    (hrest : Breaks rest)
    (position : Nat) :
    ∃ length, number position (text.toList ++ rest) = .ok ⟨kind, text, length, rest⟩ := by
  obtain ⟨hsign, hwhole, hfraction, hexponent⟩ := h
  rename_i sign whole fraction exponent
  have hpoint : rest.head? ≠ some '.' := fun h => absurd (hrest '.' h) (by decide)
  have hdigit := noDigit_of_breaks hrest
  have hend : rest.head?.any (fun c => c == '.' || isNameStart c) = false := by
    cases rest with
    | nil => rfl
    | cons c rest =>
      have hc : c ≠ '.' := fun h => hpoint (congrArg some h)
      simp [hc, not_isNameStart_of_breaks hrest c rfl]
  refine ⟨(sign ++ whole ++ fraction ++ exponent).length, ?_⟩
  rw [String.toList_ofList, List.append_assoc, List.append_assoc, List.append_assoc, number_eq,
    signPart_append hsign hwhole]
  dsimp only
  rw [wholePart_append hwhole (hfraction.noDigit (hexponent.noDigit hdigit))]
  change fractionPart _ _ _ >>= _ = _
  rw [fractionPart_append hfraction (hexponent.noDigit hdigit) (hexponent.head?_append hpoint)]
  change exponentPart _ _ _ _ >>= _ = _
  rw [exponentPart_append hexponent hdigit (not_isNameStart_of_breaks hrest)]
  change numberEnd _ _ _ _ = _
  rw [numberEnd, hend]
  rfl

theorem cuts_number {kind : TokenKind} {text : String} (h : IsNumber kind text) :
    Cuts text.toList [(kind, text)] := by
  obtain ⟨c, cs, htext, hc⟩ : ∃ c cs, text.toList = c :: cs ∧ (c.isDigit || c = '-') := by
    obtain ⟨hsign, hwhole, -, -⟩ := h
    obtain ⟨d, ds, rfl, hd⟩ := hwhole.exists_cons
    obtain rfl | rfl := hsign <;> simp [hd]
  have hother : isIgnored c = false ∧ c ≠ '#' ∧ c ≠ '"' ∧ c ≠ '.' ∧ c ∉ marks := by
    have hascii : c.toNat < 128 := by
      rcases Bool.or_eq_true_iff.mp hc with hc | hc
      · rw [Char.isDigit_iff_toNat] at hc
        exact Nat.lt_of_le_of_lt hc.2 (by decide)
      · rw [of_decide_eq_true hc]
        decide
    exact Naming.forall_ascii (P := fun c => (c.isDigit || c = '-') →
      isIgnored c = false ∧ c ≠ '#' ∧ c ≠ '"' ∧ c ≠ '.' ∧ c ∉ marks) (by decide) hascii hc
  have hnumber {rest : List Char} (hrest : Breaks rest) := number_append h hrest
  rw [htext] at hnumber ⊢
  refine cutsBefore_lexeme hother.1 hother.2.1 fun rest hrest position => ?_
  obtain ⟨length, hnumber⟩ := hnumber hrest position
  refine ⟨kind, text, length, ?_, ?_⟩
  rotate_left
  · obtain rfl | rfl := h.kind_eq <;> rfl
  rw [← hnumber, lexeme]
  · simp [hother, hc]
  · exact fun _ h => absurd h hother.2.2.1
  · exact fun h => absurd h hother.2.2.1
  · exact fun _ h => absurd h hother.2.2.2.1

/-! ## Tokens of a text -/

/-- A token that is what it claims to be. -/
def Token.IsSound (t : Token) : Prop :=
  match t.kind with
  | .name => IsName t.value
  | .int | .float => IsNumber t.kind t.value
  | _ => True

/-- Tokens that are all what they claim to be. -/
inductive Tokens.IsSound : Tokens → Prop
  | done {last : Token} : last.IsSound → IsSound (.done last)
  | failed (fault : LexFault) : IsSound (.failed fault)
  | next {t : Token} {rest : Tokens} : t.IsSound → rest.IsSound → IsSound (.next t rest)

theorem kind_stringFrom {fuel start position : Nat} {acc cs : List Char} {l : Lexeme}
    (h : stringFrom fuel start position acc cs = .ok l) : l.kind = .string := by
  induction fuel generalizing position acc cs with
  | zero => cases h
  | succ fuel ih =>
    cases cs with
    | nil => cases h
    | cons c rest =>
      rw [stringFrom] at h
      split at h
      · cases h
        rfl
      · split at h
        · obtain ⟨_, -, h⟩ := bind_eq_ok.mp h
          exact ih h
        · split at h
          · cases h
          · exact ih h

theorem kind_blockFrom {fuel start position : Nat} {line : List Char} {lines : List (List Char)}
    {cs : List Char} {l : Lexeme} (h : blockFrom fuel start position line lines cs = .ok l) :
    l.kind = .blockString := by
  induction fuel generalizing position line lines cs with
  | zero => cases h
  | succ fuel ih =>
    cases cs with
    | nil => cases h
    | cons c rest =>
      rw [blockFrom] at h
      split at h
      · cases h
        rfl
      · split at h
        · exact ih h
        · split at h <;> exact ih h

/-- What is cut from the front of a text is what it claims to be. -/
theorem sound_lexeme {position : Nat} {cs : List Char} {l : Lexeme} (h : lexeme position cs = .ok l)
    (start : Nat) : (Token.mk l.kind l.value start).IsSound := by
  unfold lexeme at h
  split at h
  · cases h
    trivial
  · simp [Token.IsSound, kind_blockFrom h]
  · simp [Token.IsSound, kind_stringFrom h]
  · cases h
    trivial
  · rename_i c rest _ _ _
    split at h
    · cases h
      trivial
    · split at h
      · have hnumber := isNumber_of_number h
        obtain hkind | hkind := hnumber.kind_eq <;> simpa [Token.IsSound, hkind] using hnumber
      · split at h
        · rename_i hstart
          cases h
          exact ⟨c, rest.takeWhile isNameRest, by simp [isNameRest_of_isNameStart hstart], hstart,
            fun d hd => List.mem_takeWhile_imp hd⟩
        · split at h <;> cases h

theorem sound_scanFrom (fuel position : Nat) (cs : List Char) :
    (scanFrom fuel position cs).IsSound := by
  induction fuel generalizing position cs with
  | zero => exact .done trivial
  | succ fuel ih =>
    unfold scanFrom
    split
    · exact ih _ _
    · split
      · exact ih _ _
      · split
        · exact .failed _
        · rename_i hlexeme
          exact .next (sound_lexeme hlexeme _) (ih _ _)
    · exact .done trivial

/-- The tokens of a source are what they claim to be. -/
theorem sound_scan (s : Source) : (Tokens.scan s).IsSound := sound_scanFrom _ _ _

end Graphwright.Document
