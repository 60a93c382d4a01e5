import Graphwright.Proofs.Document.Proper
import Graphwright.Proofs.Outcome
import Graphwright.Types.Default

/-!
# Defaults that can be written

A default has a text unless one of the whole numbers in it is too long to be converted
(`returns_defaultText`). Numbers with a fraction or an exponent are converted however long they are.
-/
namespace Graphwright

namespace Document

/-! ## Whole numbers in literals -/

mutual

def Value.wholeNumbers : Value → List String
  | .int text => [text]
  | .list items => numbersOfItems items
  | .object fields => numbersOfFields fields
  | _ => []

def numbersOfItems : List Value → List String
  | [] => []
  | v :: rest => v.wholeNumbers ++ numbersOfItems rest

def numbersOfFields : List (String × Value) → List String
  | [] => []
  | (_, v) :: rest => v.wholeNumbers ++ numbersOfFields rest

end

theorem numbersOfItems_eq (items : List Value) :
    numbersOfItems items = items.flatMap (·.wholeNumbers) := by
  induction items with
  | nil => rfl
  | cons v rest ih => rw [numbersOfItems, ih, List.flatMap_cons]

theorem numbersOfFields_eq (fields : List (String × Value)) :
    numbersOfFields fields = fields.flatMap (·.2.wholeNumbers) := by
  induction fields with
  | nil => rfl
  | cons f rest ih => rw [numbersOfFields, ih, List.flatMap_cons]

/-- A whole number without more digits than can be converted. -/
def IsConvertible (text : String) : Prop := text.toList.countP Char.isDigit ≤ Json.maxIntegerDigits

instance (text : String) : Decidable (IsConvertible text) :=
  inferInstanceAs (Decidable (text.toList.countP Char.isDigit ≤ Json.maxIntegerDigits))

theorem IsWhole.isDigit {whole : List Char} (h : IsWhole whole) : ∀ d ∈ whole, d.isDigit := by
  cases h with
  | zero => simp
  | digits h _ => exact h.2

end Document

namespace Types

open Document

/-! ## Numbers -/

/-- A number is converted unless it has neither a fraction nor an exponent, and is too long. -/
theorem returns_number_append {whole rest : List Char} (h : IsWhole whole) (hrest : NoDigit rest)
    (negative : Bool) :
    Returns (Json.number negative (whole ++ rest)) ↔
      (Json.fraction? rest = none → Json.exponent? rest = none →
        whole.length ≤ Json.maxIntegerDigits) := by
  -- A whole part is zero or does not begin with one; only then are all its digits taken.
  cases h with
  | zero =>
    cases hfraction : Json.fraction? rest <;> cases hexponent : Json.exponent? rest <;>
      simp [Json.number, hfraction, hexponent, Returns, Json.maxIntegerDigits]
  | digits hds hzero =>
    have htake : (whole ++ rest).takeWhile Char.isDigit = whole := takeWhile_append hds.2 hrest
    obtain ⟨d, more, rfl⟩ := List.exists_cons_of_ne_nil hds.1
    have hd : d ≠ '0' := fun h => hzero (by rw [h]; rfl)
    rw [List.cons_append] at htake
    cases hfraction : Json.fraction? rest <;> cases hexponent : Json.exponent? rest <;>
      simp [Json.number, htake, hd, hfraction, hexponent, Returns]
    split <;> simp <;> omega

theorem fraction?_append {ds rest : List Char} (h : IsDigits ds) (hrest : NoDigit rest) :
    Json.fraction? ('.' :: (ds ++ rest)) = some (ds, rest) := by
  simp [Json.fraction?, takeWhile_append h.2 hrest, dropWhile_append h.2 hrest, h.1]

theorem exponent?_eq_none {exponent : List Char} (h : IsExponent exponent) :
    Json.exponent? exponent = none ↔ exponent = [] := by
  cases h with
  | none => simp [Json.exponent?]
  | @digits e sign ds he hsign hds =>
    have hletter : (e == 'e' || e == 'E') = true := by simpa using he
    have htake : ds.takeWhile Char.isDigit = ds := List.takeWhile_eq_self_iff.mpr hds.2
    obtain ⟨d, more, rfl⟩ := List.exists_cons_of_ne_nil hds.1
    have hd : d.isDigit := hds.2 d List.mem_cons_self
    have hsigns : d ≠ '-' ∧ d ≠ '+' := by constructor <;> rintro rfl <;> exact absurd hd (by decide)
    rcases hsign with rfl | rfl | rfl <;> simp [Json.exponent?, hletter, htake, hsigns]

/-- A number is converted unless it is whole and too long. -/
theorem returns_number {whole fraction exponent : List Char} (hwhole : IsWhole whole)
    (hfraction : IsFraction fraction) (hexponent : IsExponent exponent) (negative : Bool) :
    Returns (Json.number negative (whole ++ (fraction ++ exponent))) ↔
      (fraction = [] → exponent = [] → whole.length ≤ Json.maxIntegerDigits) := by
  have hend : NoDigit exponent := by simpa using @IsExponent.noDigit _ hexponent [] nofun
  rw [returns_number_append hwhole (hfraction.noDigit hend), ← exponent?_eq_none hexponent]
  cases hfraction with
  | digits hds => simp [fraction?_append hds hend]
  | none =>
    have hnone : Json.fraction? exponent = none := by
      cases hexponent with
      | none => rfl
      | digits he _ _ => rcases he with rfl | rfl <;> rfl
    simp [hnone]

/-- A number literal is converted unless it is whole and too long. -/
theorem returns_plainNumber {kind : TokenKind} {text : String} (h : IsNumber kind text) :
    Returns (plainNumber text) ↔ (kind = .int → IsConvertible text) := by
  obtain @⟨sign, whole, fraction, exponent, hsign, hwhole, hfraction, hexponent⟩ := h
  have hplain : ∃ negative, plainNumber (String.ofList (sign ++ whole ++ fraction ++ exponent)) =
      (·.1) <$> Json.number negative (whole ++ (fraction ++ exponent)) := by
    rcases hsign with rfl | rfl
    · obtain ⟨d, ds, rfl, hd⟩ := hwhole.exists_cons
      have hminus : d ≠ '-' := by
        rintro rfl
        exact absurd hd (by decide)
      exact ⟨false, by simp [plainNumber, hminus, Functor.map]⟩
    · exact ⟨true, by simp [plainNumber, Functor.map]⟩
  obtain ⟨negative, hplain⟩ := hplain
  rw [hplain, returns_map, returns_number hwhole hfraction hexponent]
  by_cases hrest : fraction = [] ∧ exponent = []
  · obtain ⟨rfl, rfl⟩ := hrest
    have hcount : (sign ++ whole).countP Char.isDigit = whole.length := by
      rw [List.countP_append, List.countP_eq_length.mpr hwhole.isDigit]
      rcases hsign with rfl | rfl <;> simp
    simp [IsConvertible, hcount]
  · have hfloat : (!fraction.isEmpty || !exponent.isEmpty) = true := by
      simpa [Classical.or_iff_not_imp_left] using hrest
    rw [if_pos hfloat]
    exact iff_of_true (fun h h' => absurd ⟨h, h'⟩ hrest) nofun

/-! ## Values -/

theorem returns_plainItems {items : List Value} :
    Returns (plainItems items) ↔ ∀ v ∈ items, Returns (plain v) := by
  induction items with
  | nil => exact ⟨nofun, fun _ => returns_pure []⟩
  | cons v rest ih =>
    rw [plainItems, List.forall_mem_cons, ← ih]
    refine returns_bind_of_const fun _ _ => ?_
    rw [bind_pure_comp, returns_map]

theorem returns_plainFields {done : List (String × Json)} {fields : List (String × Value)} :
    Returns (plainFields done fields) ↔ ∀ f ∈ fields, Returns (plain f.2) := by
  induction fields generalizing done with
  | nil => exact ⟨nofun, fun _ => returns_pure done⟩
  | cons f rest ih =>
    rw [plainFields, List.forall_mem_cons]
    exact returns_bind_of_const fun _ _ => ih

theorem returns_plain {v : Value} (h : v.IsConstant) :
    Returns (plain v) ↔ ∀ n ∈ v.wholeNumbers, IsConvertible n := by
  induction h with
  | int h => simpa [plain, Value.wholeNumbers] using returns_plainNumber h
  | float h => simpa [plain, Value.wholeNumbers] using returns_plainNumber h
  | string | boolean | null | enum => exact iff_of_true (returns_pure _) nofun
  | @list items _ ih =>
    rw [plain, Value.wholeNumbers, numbersOfItems_eq, List.forall_mem_flatMap]
    exact returns_map.trans (returns_plainItems.trans (forall₂_congr ih))
  | @object fields _ _ ih =>
    rw [plain, Value.wholeNumbers, numbersOfFields_eq, List.forall_mem_flatMap]
    exact returns_map.trans (returns_plainFields.trans (forall₂_congr ih))

/-- **Defaults.** A literal can be written as a default unless a whole number in it is too long. -/
theorem returns_defaultText {v : Value} (h : v.IsConstant) :
    Returns (defaultText v) ↔ ∀ n ∈ v.wholeNumbers, IsConvertible n :=
  returns_map.trans (returns_plain h)

end Types

end Graphwright
