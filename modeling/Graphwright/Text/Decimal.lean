/-!
# Binary floating point numbers as decimals

Numbers of 53 binary digits (binary64) on exact integers: reading a decimal rounds to the nearest
number, ties to even; writing takes the fewest decimal digits that read back as the same number, and
of those the nearest, ties to even again.
-/
namespace Graphwright.Text

/-- A binary64 number; the finite ones are `± mantissa * 2 ^ exponent`. -/
inductive Binary64 where
  | nan
  | infinity (negative : Bool)
  | finite (negative : Bool) (mantissa : Nat) (exponent : Int)
  deriving Repr, DecidableEq

namespace Binary64

/-- `num / den * base ^ -e` as a quotient of naturals. -/
def scaled (base num den : Nat) (e : Int) : Nat × Nat :=
  if 0 ≤ e then (num, den * base.pow e.toNat) else (num * base.pow (-e).toNat, den)

/-- The quotient rounded to the nearest natural, ties to even. -/
def roundDiv (num den : Nat) : Nat :=
  let q := num / den
  let r := num % den
  if 2 * r < den then q else if den < 2 * r then q + 1 else if q % 2 = 0 then q else q + 1

/-- The largest `e` with `base ^ e ≤ num / den`, given an estimate that is at most one too large or
two too small. -/
def floorLog (base num den : Nat) (estimate : Int) : Int :=
  let fits (e : Int) : Bool := let (n, d) := scaled base num den e; d ≤ n
  if fits (estimate + 2) then estimate + 2
  else if fits (estimate + 1) then estimate + 1
  else if fits estimate then estimate
  else estimate - 1

/-- The binary64 number nearest to `num / den`. -/
def ofRatio (negative : Bool) (num den : Nat) : Binary64 :=
  if num = 0 then finite negative 0 0
  else
    let top := floorLog 2 num den ((num.log2 : Int) - den.log2)
    let e := max (top - 52) (-1074)
    let (n, d) := scaled 2 num den e
    let m := roundDiv n d
    let (m, e) := if m = Nat.pow 2 53 then (Nat.pow 2 52, e + 1) else (m, e)
    if 971 < e then infinity negative else finite negative m e

/-- The number nearest to `digits * 10 ^ exponent`. Exponents far beyond the range are decided
without computing the power. -/
def ofDecimal (negative : Bool) (digits : Nat) (exponent : Int) : Binary64 :=
  let size : Int := (Nat.toDigits 10 digits).length + exponent
  if digits = 0 then finite negative 0 0
  else if 400 < size then infinity negative
  else if size < -400 then finite negative 0 0
  else if 0 ≤ exponent then ofRatio negative (digits * Nat.pow 10 exponent.toNat) 1
  else ofRatio negative digits (Nat.pow 10 (-exponent).toNat)

/-- The first of the decimal grids with `n, n + 1, …` digits that has a point reading back as `x`:
the digits of that point and the exponent of its last digit. -/
def shortestFrom (x : Binary64) (num den : Nat) (top : Int) : (fuel n : Nat) → Nat × Int
  | 0, n =>
    let grid := top + 1 - n
    let (a, b) := scaled 10 num den grid
    (roundDiv a b, grid)
  | fuel + 1, n =>
    let grid := top + 1 - n
    let (a, b) := scaled 10 num den grid
    let below := a / b
    let near := if roundDiv a b = below then [below, below + 1] else [below + 1, below]
    match near.find? fun digits => ofDecimal false digits grid == x with
    | some digits => (digits, grid)
    | none => shortestFrom x num den top fuel (n + 1)

/-- The shortest digits of a positive number and the exponent of the last one. -/
def shortest (mantissa : Nat) (exponent : Int) : Nat × Int :=
  let (num, den) :=
    if 0 ≤ exponent then (mantissa * Nat.pow 2 exponent.toNat, 1)
    else (mantissa, Nat.pow 2 (-exponent).toNat)
  let estimate := ((num.log2 : Int) - den.log2) * 30103 / 100000
  let top := floorLog 10 num den estimate
  shortestFrom (finite false mantissa exponent) num den top 16 1

/-- Digits without trailing zeros, and the place of the point: the value is `0.d₁d₂… * 10 ^
place`. -/
def pointed (digits : Nat) (exponent : Int) : List Char × Int :=
  let ds := Nat.toDigits 10 digits
  let kept := (ds.reverse.dropWhile (· == '0')).reverse
  (kept, (ds.length : Int) + exponent)

/-- Positional between 0.0001 and 10 ^ 16, with a point always; otherwise one digit before the point
and an exponent of at least two digits. -/
def layout (ds : List Char) (place : Int) : List Char :=
  if -4 < place && place ≤ 16 then
    if place ≤ 0 then ['0', '.'] ++ List.replicate (-place).toNat '0' ++ ds
    else
      let n := place.toNat
      if ds.length ≤ n then ds ++ List.replicate (n - ds.length) '0' ++ ['.', '0']
      else ds.take n ++ ['.'] ++ ds.drop n
  else
    let e := place - 1
    let digits := Nat.toDigits 10 e.natAbs
    let head := match ds with
      | [] => []
      | [d] => [d]
      | d :: rest => d :: '.' :: rest
    head ++ ['e', if e < 0 then '-' else '+'] ++ List.replicate (2 - digits.length) '0' ++ digits

def text : Binary64 → String
  | nan => "nan"
  | infinity negative => if negative then "-inf" else "inf"
  | finite negative m e =>
    let magnitude :=
      if m = 0 then ['0', '.', '0']
      else
        let (digits, last) := shortest m e
        let (ds, place) := pointed digits last
        layout ds place
    String.ofList (if negative then '-' :: magnitude else magnitude)

/-- A whole number, which neither infinity nor NaN is. -/
def isWhole : Binary64 → Bool
  | finite _ m e => m == 0 || 0 ≤ e || m % Nat.pow 2 (-e).toNat == 0
  | _ => false

/-- Equal in value to a natural number; both zeros are equal to zero. -/
def isNat (x : Binary64) (n : Nat) : Bool :=
  match x with
  | finite negative m e =>
    if n = 0 then m == 0
    else !negative && (if 0 ≤ e then m * Nat.pow 2 e.toNat == n else m == n * Nat.pow 2 (-e).toNat)
  | _ => false

end Binary64

end Graphwright.Text
