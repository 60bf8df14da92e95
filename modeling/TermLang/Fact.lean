import TermLang.Operator

/-!
# Facts

Two ways to look facts up. Matching compares a pattern and a fact position by position, a
variable on either side taking the other side's value, and gives the list of those values.
Asking compares only the positions where the query is neither a variable nor a wildcard, and
gives one equation per variable of the query.
-/

namespace TermLang.Fact

/-- The values of a pattern and a fact of the same length, position by position. -/
def matchItems : List Term → List Term → Option (List Term)
  | [], [] => some []
  | x :: xs, y :: ys =>
    let value := match x, y with
      | .var _, _ => some y
      | _, .var _ => some x
      | _, _ => if (Operator.binary "=" x y).truth then some x else none
    match value with
    | some value => (matchItems xs ys).map (value :: ·)
    | none => none
  | _, _ => none

/-- The values of a pattern and a fact, if both are lists of one length that agree. -/
def match? (pattern fact : Term) : Option (List Term) :=
  match pattern, fact with
  | .list xs, .list ys => matchItems xs ys
  | _, _ => none

/-- Whether a comparison says that its operands differ. -/
def isFalse : Term → Bool
  | .bool value => !value
  | _ => false

/-- Whether a query admits the items of a fact: every position that is no variable and no
wildcard must not differ. -/
def admitsItems : List Term → List Term → Bool
  | [], [] => true
  | x :: xs, y :: ys =>
    (x.isPattern || !isFalse (Operator.binary "=" x y)) && admitsItems xs ys
  | _, _ => false

/-- Whether a query admits a fact. -/
def admits (query : List Term) (fact : Term) : Bool :=
  match fact with
  | .list items => admitsItems query items
  | _ => false

/-- One equation per variable of a query, with the fact's value at its place. -/
def equations : List Term → List Term → List Term
  | x :: xs, y :: ys =>
    if x.isVar then .list [.binaryOp "=", x, y] :: equations xs ys else equations xs ys
  | _, _ => []

/-- The answers of a query: one list of equations per admitted fact, in the order of the facts. -/
def answers (query : List Term) (facts : List Term) : List Term :=
  (facts.filter (admits query)).map fun fact => .list (equations query fact.items)

end TermLang.Fact
