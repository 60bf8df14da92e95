import TermLang.Number.Arithmetic
import TermLang.Term

/-!
# Operators

Operators are total. Where an operator is not defined for its operands the answer is
`Term.unknown`, never a fault.

Equality is defined for all operands but one: a variable on the left of anything that is not a
variable stays an open assertion, so that lists such as `(= X tom)` survive further reduction.
A variable on the right, or a wildcard on either side, is unequal to everything else.
-/

namespace TermLang

namespace Operator

/-- An operator on two numbers. -/
def onNumbers (symbol : String) (a b : Float) : Term :=
  match symbol with
  | "+" => .number (a + b)
  | "-" => .number (a - b)
  | "*" => .number (a * b)
  | "/" => .number (a / b)
  | "%" => .number (Number.remainder a b)
  | "**" => .number (Number.power a b)
  | "=" => .bool (a == b)
  | "<" => .bool (a < b)
  | ">" => .bool (b < a)
  | "<=" => .bool (a ≤ b)
  | ">=" => .bool (b ≤ a)
  | _ => .unknown

/-- Equality of operands that are not both numbers. -/
def equality (x y : Term) : Term :=
  match x, y with
  | .var a, .var b => .bool (a == b)
  | .var _, _ => .unknown
  | _, _ => if x.isPattern || y.isPattern then .bool false else .bool (Term.equal x y)

/-- An operator on two operands. -/
def binary (symbol : String) (x y : Term) : Term :=
  match x, y with
  | .number a, .number b => onNumbers symbol a b
  | _, _ => if symbol = "=" then equality x y else .unknown

/-- An operator on one operand: the negation of truth values. -/
def unary (symbol : String) (x : Term) : Term :=
  match x with
  | .bool value => if symbol = "!" then .bool !value else .unknown
  | _ => .unknown

end Operator

end TermLang
