import TermLang.Number.Dyadic

/-!
# Decimal numbers

A decimal is a natural number times a power of ten. Reading takes a decimal to the nearest
double. Writing takes a finite double to the decimal with the fewest digits that reads back as
it, and of those to the nearest one, an exact tie going to the even digit. The search tries the two
neighbours of the value on ever finer decimal grids and lets the reader itself decide, so what
it finds reads back by construction; should no grid serve, the exact expansion does.
-/

namespace TermLang

/-- The value `± digits · 10 ^ exponent`. -/
structure Decimal where
  /-- Whether a minus sign stands in front. -/
  negative : Bool
  /-- The digits, read as one natural number. -/
  digits : Nat
  /-- The power of ten. -/
  exponent : Int
  deriving DecidableEq, Repr

namespace Decimal

/-- The magnitude as a quotient of natural numbers. -/
def ratio (decimal : Decimal) : Nat × Nat :=
  match decimal.exponent with
  | .ofNat up => (decimal.digits * Nat.pow 10 up, 1)
  | .negSucc down => (decimal.digits, Nat.pow 10 (down + 1))

/-- The nearest double; `none` when the magnitude is too large for one. -/
def toFloat? (decimal : Decimal) : Option Float :=
  let (num, den) := decimal.ratio
  Number.nearest? decimal.negative num den

/-- Whether reading a decimal gives exactly the given double, sign of zero included. -/
def readsAs (decimal : Decimal) (value : Float) : Bool :=
  match decimal.toFloat? with
  | some found => found.toBits == value.toBits
  | none => false

/-- Moves trailing zeros of the digits into the exponent, at most `count` of them. -/
def stripZeros : (count : Nat) → Decimal → Decimal
  | 0, decimal => decimal
  | count + 1, decimal =>
    if decimal.digits ≠ 0 ∧ decimal.digits % 10 = 0 then
      stripZeros count ⟨decimal.negative, decimal.digits / 10, decimal.exponent + 1⟩
    else decimal

/-- The multiples of `10 ^ grid` next to the magnitude `num / den`, the nearer one first.
A tie puts the even one first. -/
def neighbours (negative : Bool) (num den : Nat) (grid : Int) : List Decimal :=
  let (n, d) := match grid with
    | .ofNat up => (num, den * Nat.pow 10 up)
    | .negSucc down => (num * Nat.pow 10 (down + 1), den)
  let below : Decimal := ⟨negative, n / d, grid⟩
  let above : Decimal := ⟨negative, n / d + 1, grid⟩
  if Number.roundQuotient n d = n / d then [below, above] else [above, below]

/-- Searches `count` grids from coarse to fine for a neighbour that reads as `value`. -/
def search (value : Float) (negative : Bool) (num den : Nat) : (count : Nat) → Int → Option Decimal
  | 0, _ => none
  | count + 1, grid =>
    match (neighbours negative num den grid).find? (·.readsAs value) with
    | some found => some found
    | none => search value negative num den count (grid - 1)

/-- The exponent of a power of ten above `num / den`, by at most three places too large. -/
def coarsest (num den : Nat) : Int :=
  (((Nat.log2 num : Int) - Nat.log2 den + 1) * 30103).fdiv 100000 + 1

/-- All digits of a binary fraction. -/
def exact (value : Dyadic) : Decimal :=
  match value.exponent with
  | .ofNat up => ⟨value.negative, value.significand * Nat.pow 2 up, 0⟩
  | .negSucc down =>
    ⟨value.negative, value.significand * Nat.pow 5 (down + 1), .negSucc down⟩

/-- The shortest decimal that reads back as a finite double; `none` if it is not finite. -/
def shortest? (value : Float) : Option Decimal :=
  (Dyadic.ofFloat? value).map fun dyadic =>
    if dyadic.significand = 0 then ⟨dyadic.negative, 0, 0⟩
    else
      let (num, den) := dyadic.ratio
      match search value dyadic.negative num den 20 (coarsest num den) with
      | some found => stripZeros 20 found
      | none => exact dyadic

end Decimal

end TermLang
