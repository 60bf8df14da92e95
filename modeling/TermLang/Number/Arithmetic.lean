import TermLang.Number.Dyadic

/-!
# Remainder and power

Both are functions on doubles. The remainder is exact and takes the sign of the dividend. A
power with a whole exponent is found by repeated squaring of a significand kept in `[½, 1)`
beside its power of two, so that only the last step can overflow or underflow.
-/

namespace TermLang.Number

/-- The positive infinity. -/
def infinity : Float := ofMagnitude false infinityBits

/-- The value that is no number. -/
def notANumber : Float := 0.0 / 0.0

/-- Whether the sign bit of a double is set. -/
def signBit (value : Float) : Bool :=
  value.toBits.toNat / Nat.pow 2 63 == 1

/-- The magnitude of `x` under the sign of `y`. -/
def withSign (x y : Float) : Float :=
  ofMagnitude (signBit y) (x.toBits.toNat % Nat.pow 2 63)

/-- What is left of `x` after taking away whole multiples of `y`, with the sign of `x`. It is
computed exactly on the finer of the two grids. -/
def remainder (x y : Float) : Float :=
  match Dyadic.ofFloat? x, Dyadic.ofFloat? y with
  | some a, some b =>
    if b.significand = 0 then notANumber
    else
      let grid := min a.exponent b.exponent
      scaled a.negative (a.onGrid grid % b.onGrid grid) grid
  | some _, none => if y.isNaN then notANumber else x
  | none, _ => notANumber

/-- Whether a double is an odd whole number that is below `2 ^ 53` in magnitude. -/
def isOdd (value : Float) : Bool :=
  match Dyadic.ofFloat? value with
  | none => false
  | some exact =>
    let (num, den) := exact.ratio
    num % den = 0 && num / den < Nat.pow 2 53 && num / den % 2 = 1

/-- A finite non-zero magnitude as a double in `[½, 1)` and a power of two. -/
def fractionAndPower (value : Dyadic) : Float × Int :=
  let bits := Nat.log2 value.significand + 1
  (scaled value.negative value.significand (-(bits : Int)), value.exponent + bits)

/-- The product of a double and a power of two, rounded once. -/
def timesPower (value : Float) (power : Int) : Float :=
  match Dyadic.ofFloat? value with
  | none => value
  | some exact => scaled exact.negative exact.significand (exact.exponent + power)

/-- Multiplies `answer · 2 ^ answerPower` by `(base · 2 ^ basePower) ^ count`, squaring the base
once for each bit of `count`; stops early when the power is certain to overflow. -/
def squarings : (bits : Nat) → (count : Nat) → (base : Float) → (basePower : Int) →
    (answer : Float) → (answerPower : Int) → Float × Int
  | 0, _, _, _, answer, answerPower => (answer, answerPower)
  | bits + 1, count, base, basePower, answer, answerPower =>
    if count = 0 then (answer, answerPower)
    else if basePower < -4096 ∨ 4096 < basePower then (answer, answerPower + basePower)
    else
      let (answer, answerPower) :=
        if count % 2 = 1 then (answer * base, answerPower + basePower)
        else (answer, answerPower)
      let square := base * base
      if square < 0.5 then
        squarings bits (count / 2) (square + square) (2 * basePower - 1) answer answerPower
      else squarings bits (count / 2) square (2 * basePower) answer answerPower

/-- Powers whose base is a zero. -/
def powerOfZero (x y : Float) : Float :=
  if y < 0 then
    if signBit x && isOdd y then withSign infinity x else infinity
  else if signBit x && isOdd y then x
  else 0

/-- Powers whose exponent is too large to matter beyond the size of the base. -/
def powerBySize (x : Float) (growing : Bool) : Float :=
  if x == -1 then 1
  else if (x.abs < 1) == growing then 0
  else infinity

/-- Powers of a finite non-zero base with a finite exponent. -/
def powerOfFinite (x y : Float) (base exponent : Dyadic) : Float :=
  let (num, den) := exponent.ratio
  let whole := num / den
  let fraction := nearest false (num % den) den
  if num % den ≠ 0 && x < 0 then notANumber
  else if Nat.pow 2 63 ≤ whole then powerBySize x (0 < y)
  else
    let (fraction, whole) := if 0.5 < fraction then (fraction - 1, whole + 1) else (fraction, whole)
    let start := if num % den = 0 then 1 else Float.exp (fraction * Float.log x)
    let (base, basePower) := fractionAndPower base
    let (answer, answerPower) := squarings 64 whole base basePower start 0
    if y < 0 then timesPower (1 / answer) (-answerPower) else timesPower answer answerPower

/-- `x` raised to `y`. One to any power and any number to the power zero are one, even where
the other operand is no number. -/
def power (x y : Float) : Float :=
  if y == 0 || x == 1 then 1
  else if y == 1 then x
  else if x.isNaN || y.isNaN then notANumber
  else if x == 0 then powerOfZero x y
  else
    match Dyadic.ofFloat? x, Dyadic.ofFloat? y with
    | _, none => powerBySize x (0 < y)
    | none, some _ =>
      if x < 0 then powerOfZero (1 / x) (-y)
      else if y < 0 then 0
      else infinity
    | some base, some exponent =>
      if y == 0.5 then x.sqrt
      else if y == -0.5 then 1 / x.sqrt
      else powerOfFinite x y base exponent

end TermLang.Number
