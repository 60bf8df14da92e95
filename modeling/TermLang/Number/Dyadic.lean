/-!
# Binary fractions

A finite double is a sign and a natural number times a power of two. `Dyadic` is that exact
value; `nearest` goes the other way and finds the double nearest to a quotient of natural
numbers, a tie going to the even significand. Every rounding decision of the library is made
here, in natural numbers.
-/

namespace TermLang

/-- The exact value `± significand · 2 ^ exponent`. -/
structure Dyadic where
  /-- Whether the sign bit is set. Zero has a sign too. -/
  negative : Bool
  /-- The significand, below `2 ^ 53` for the value of a double. -/
  significand : Nat
  /-- The power of two. -/
  exponent : Int
  deriving DecidableEq, Repr

namespace Dyadic

/-- The exact value of a double; `none` for the infinities and for NaN. -/
def ofFloat? (value : Float) : Option Dyadic :=
  let bits := value.toBits.toNat
  let negative := bits / Nat.pow 2 63 == 1
  let biased : Nat := bits / Nat.pow 2 52 % Nat.pow 2 11
  let fraction : Nat := bits % Nat.pow 2 52
  if biased = 2047 then none
  else if biased = 0 then some ⟨negative, fraction, -1074⟩
  else some ⟨negative, Nat.pow 2 52 + fraction, (biased : Int) - 1075⟩

/-- The magnitude as a quotient of natural numbers. -/
def ratio (value : Dyadic) : Nat × Nat :=
  match value.exponent with
  | .ofNat up => (value.significand * Nat.pow 2 up, 1)
  | .negSucc down => (value.significand, Nat.pow 2 (down + 1))

/-- The significand on the grid `2 ^ exponent`, which is not coarser than the value's own. -/
def onGrid (value : Dyadic) (exponent : Int) : Nat :=
  value.significand * Nat.pow 2 (value.exponent - exponent).toNat

end Dyadic

namespace Number

/-- The natural number nearest to `num / den`, a half going to the even neighbour. -/
def roundQuotient (num den : Nat) : Nat :=
  let whole := num / den
  let twice := 2 * (num % den)
  if twice < den then whole
  else if den < twice then whole + 1
  else if whole % 2 = 0 then whole
  else whole + 1

/-- `num / den / 2 ^ power` as a quotient of natural numbers. -/
def scaleDown (num den : Nat) (power : Int) : Nat × Nat :=
  match power with
  | .ofNat up => (num, den * Nat.pow 2 up)
  | .negSucc down => (num * Nat.pow 2 (down + 1), den)

/-- The power of two that the last place of the double nearest to `num / den` stands for:
the significand then has 53 bits, or fewer at the least power there is. -/
def lastPlace (num den : Nat) : Int :=
  let guess := max ((Nat.log2 num : Int) - Nat.log2 den - 53) (-1074)
  let (n, d) := scaleDown num den guess
  if Nat.pow 2 53 ≤ n / d then guess + 1 else guess

/-- The bits of the infinity, the first pattern that is no finite magnitude. -/
def infinityBits : Nat := 0x7FF0000000000000

/-- The bits of the magnitude nearest to `num / den`, ties to even. They reach
`infinityBits` when the quotient is too large for a finite double. -/
def nearestBits (num den : Nat) : Nat :=
  if num = 0 then 0
  else
    let place := lastPlace num den
    let (n, d) := scaleDown num den place
    (place + 1074).toNat * Nat.pow 2 52 + roundQuotient n d

/-- A double from its sign and the bits of its magnitude. -/
def ofMagnitude (negative : Bool) (bits : Nat) : Float :=
  Float.ofBits ((if negative then Nat.pow 2 63 else 0) + bits).toUInt64

/-- The double nearest to `± num / den`; `none` when that magnitude is not finite. -/
def nearest? (negative : Bool) (num den : Nat) : Option Float :=
  let bits := nearestBits num den
  if bits < infinityBits then some (ofMagnitude negative bits) else none

/-- The double nearest to `± num / den`, which is infinite when no finite one is near. -/
def nearest (negative : Bool) (num den : Nat) : Float :=
  ofMagnitude negative (min (nearestBits num den) infinityBits)

/-- `± num · 2 ^ power`, rounded to the nearest double. -/
def scaled (negative : Bool) (num : Nat) (power : Int) : Float :=
  match power with
  | .ofNat up => nearest negative (num * Nat.pow 2 up) 1
  | .negSucc down => nearest negative num (Nat.pow 2 (down + 1))

end Number

end TermLang
