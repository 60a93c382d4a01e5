import Graphwright.Text.Case
import Graphwright.Text.Lines

/-!
# Case conventions

Names are broken into words at the borders between lower and upper case and written in snake case,
Pascal case or upper case. `breakWords` separates a capitalised word from what comes before it and
`breakCapitals` a capital from a lower case letter or digit; both only insert underscores
(`filter_breakWords`, `filter_breakCapitals`).
-/
namespace Graphwright.Naming

/-- Puts an underscore before every capital that lower case letters follow, unless it begins the
text or a line, or directly follows the previous such word. -/
def breakWords : List Char → List Char
  | c :: u :: l :: rest =>
    if c ≠ '\n' ∧ u.isUpper ∧ l.isLower then
      c :: '_' :: u :: l ::
        (rest.takeWhile Char.isLower ++ breakWords (rest.dropWhile Char.isLower))
    else c :: breakWords (u :: l :: rest)
  | cs => cs
termination_by cs => cs.length
decreasing_by
  · have := (List.dropWhile_sublist (p := Char.isLower) (l := rest)).length_le
    simp only [List.length_cons]
    omega
  · simp

/-- Puts an underscore between a lower case letter or digit and the capital after it. -/
def breakCapitals : List Char → List Char
  | a :: b :: rest =>
    if (a.isLower || a.isDigit) && b.isUpper then a :: '_' :: breakCapitals (b :: rest)
    else a :: breakCapitals (b :: rest)
  | cs => cs

/-- Lower case words with underscores between them, on characters. -/
def snakeChars (cs : List Char) : List Char := Text.lower (breakCapitals (breakWords cs))

def pascalChars (cs : List Char) : List Char :=
  (Text.fields '_' (snakeChars cs)).flatMap Text.capitalize

def upperChars (cs : List Char) : List Char := Text.upper (snakeChars cs)

/-- `FooBar` and `fooBar` become `foo_bar`. -/
def snakeCase (name : String) : String := Text.onChars snakeChars name

/-- `foo_bar` and `fooBar` become `FooBar`. -/
def pascalCase (name : String) : String := Text.onChars pascalChars name

/-- `fooBar` becomes `FOO_BAR`. -/
def upperCase (name : String) : String := Text.onChars upperChars name

private theorem filter_cons_congr (x : Char) {l m : List Char}
    (h : l.filter (· ≠ '_') = m.filter (· ≠ '_')) :
    (x :: l).filter (· ≠ '_') = (x :: m).filter (· ≠ '_') := by
  rw [List.filter_cons, List.filter_cons, h]

private theorem filter_underscore (l : List Char) :
    ('_' :: l).filter (· ≠ '_') = l.filter (· ≠ '_') := by
  simp

theorem filter_breakWords (cs : List Char) :
    (breakWords cs).filter (· ≠ '_') = cs.filter (· ≠ '_') := by
  fun_induction breakWords cs with
  | case1 c u l rest _ ih =>
    apply filter_cons_congr
    rw [filter_underscore]
    apply filter_cons_congr
    apply filter_cons_congr
    rw [List.filter_append, ih, ← List.filter_append, List.takeWhile_append_dropWhile]
  | case2 c u l rest _ ih => exact filter_cons_congr c ih
  | case3 => rfl

theorem filter_breakCapitals (cs : List Char) :
    (breakCapitals cs).filter (· ≠ '_') = cs.filter (· ≠ '_') := by
  fun_induction breakCapitals cs with
  | case1 a b rest _ ih =>
    apply filter_cons_congr
    rw [filter_underscore, ih]
  | case2 a b rest _ ih => exact filter_cons_congr a ih
  | case3 => rfl

end Graphwright.Naming
