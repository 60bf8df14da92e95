import TermLang.Number.Decimal

/-!
# The text of numbers

Terms write numbers positionally, whatever their size: `1000000`, `0.0000001`. The dump of a
scope writes them in scientific notation when the exponent is below -4 or above 5: `1e+06`,
`1e-07`. Infinities and NaN are named; those names do not read back as numbers.
-/

namespace TermLang.Number

/-- The decimal digits of a natural number, most significant first. -/
def digitsOf (value : Nat) : List Char :=
  Nat.toDigits 10 value

/-- The digits of a magnitude with the decimal point where `exponent` puts it. -/
def positionalDigits (digits : List Char) (exponent : Int) : List Char :=
  match exponent with
  | .ofNat up => if digits = ['0'] then digits else digits ++ List.replicate up '0'
  | .negSucc down =>
    let places := down + 1
    if places < digits.length then
      digits.take (digits.length - places) ++ '.' :: digits.drop (digits.length - places)
    else '0' :: '.' :: (List.replicate (places - digits.length) '0' ++ digits)

/-- The minus sign, if there is one. -/
def signOf (negative : Bool) : List Char :=
  if negative then ['-'] else []

/-- A decimal without an exponent. -/
def positional (decimal : Decimal) : List Char :=
  signOf decimal.negative ++ positionalDigits (digitsOf decimal.digits) decimal.exponent

/-- The names of the doubles that are not finite. -/
def nonFiniteName (value : Float) : List Char :=
  if value.isNaN then ['N', 'a', 'N']
  else if value < 0 then ['-', 'I', 'n', 'f']
  else ['+', 'I', 'n', 'f']

/-- A number as terms write it: the shortest digits that read back, without an exponent. -/
def text (value : Float) : List Char :=
  match Decimal.shortest? value with
  | some decimal => positional decimal
  | none => nonFiniteName value

/-- An exponent with its sign and at least two digits. -/
def exponentText (exponent : Int) : List Char :=
  let digits := digitsOf exponent.natAbs
  (if exponent < 0 then '-' else '+') :: (if digits.length < 2 then '0' :: digits else digits)

/-- A decimal with one digit before the point, and its exponent. -/
def scientific (decimal : Decimal) : List Char :=
  match digitsOf decimal.digits with
  | [] => []
  | first :: rest =>
    signOf decimal.negative ++ first :: ((if rest.isEmpty then [] else '.' :: rest) ++
      'e' :: exponentText (decimal.exponent + rest.length))

/-- A number as dumps write it: scientific for exponents below -4 or above 5. -/
def dumpText (value : Float) : List Char :=
  match Decimal.shortest? value with
  | some decimal =>
    let exponent := decimal.exponent + ((digitsOf decimal.digits).length : Int) - 1
    if exponent < -4 ∨ 6 ≤ exponent then scientific decimal else positional decimal
  | none => nonFiniteName value

end TermLang.Number
