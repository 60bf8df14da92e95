/-!
# Whole numbers

Digits as numbers, and the whole numbers that fit into a signed word of 64 bits. The words lie
in a circle: the one before the least is the greatest.
-/

namespace TermLang.Number

/-- The value of a digit string, most significant digit first. -/
def digitsValue (digits : List Char) : Nat :=
  digits.foldl (fun value digit => 10 * value + (digit.toNat - 48)) 0

/-- The greatest whole number of a signed word. -/
def greatestWord : Int := 9223372036854775807

/-- The least whole number of a signed word. -/
def leastWord : Int := -9223372036854775808

/-- The whole number with a sign and digits; none without a digit or outside of a signed word. -/
def word? (negative : Bool) (digits : List Char) : Option Int :=
  let magnitude : Int := digitsValue digits
  let value := if negative then -magnitude else magnitude
  if digits.isEmpty || value < leastWord || greatestWord < value then none else some value

/-- The word that lies a number of steps before a word. -/
def wordBefore (word : Int) (steps : Nat) : Int :=
  let value := word - steps
  if value < leastWord then value + (greatestWord - leastWord + 1) else value

/-- Steps that do not lead below zero are a subtraction. -/
theorem wordBefore_of_le {word : Int} {steps : Nat} (h : (steps : Int) ≤ word) :
    wordBefore word steps = word - steps := by
  have inside : ¬ word - steps < leastWord := by
    simp only [leastWord]
    omega
  simp [wordBefore, inside]

end TermLang.Number
