/-!
# Terms

Code and data share one shape. A program is a list of terms, and so is every value that a
reduction produces. Lists own their items; every other term is an atom.

`Term.unknown` is the answer of an operator that is not defined for its operands. Reduction
turns it back into the unreduced list.
-/

namespace TermLang

/-- A list or an atom. Operator atoms keep their spelling, since a term may be built with a
spelling that names no operator. -/
inductive Term where
  /-- Terms in brackets. -/
  | list (items : List Term)
  /-- A name with a capital first letter. -/
  | var (name : String)
  /-- A name that starts with an underscore. -/
  | wildcard (name : String)
  /-- A word or a quoted text. -/
  | str (text : String)
  /-- A number. -/
  | number (value : Float)
  /-- A truth value. -/
  | bool (value : Bool)
  /-- The name of a form, its leading dot included. -/
  | keyword (name : String)
  /-- An operator on two operands. -/
  | binaryOp (symbol : String)
  /-- An operator on one operand. -/
  | unaryOp (symbol : String)
  /-- No answer. -/
  | unknown
  deriving Inhabited, Repr

namespace Term

/-- The constructors of `Term` by rank: the number under which a dump shows them, the name
under which messages do. -/
inductive Tag where
  | unknown
  | list
  | var
  | wildcard
  | str
  | number
  | bool
  | keyword
  | binaryOp
  | unaryOp
  deriving DecidableEq, Inhabited, Repr

namespace Tag

/-- All tags by rank. -/
def all : List Tag :=
  [.unknown, .list, .var, .wildcard, .str, .number, .bool, .keyword, .binaryOp, .unaryOp]

/-- The rank of a tag. -/
def rank : Tag → Nat
  | .unknown => 0
  | .list => 1
  | .var => 2
  | .wildcard => 3
  | .str => 4
  | .number => 5
  | .bool => 6
  | .keyword => 7
  | .binaryOp => 8
  | .unaryOp => 9

/-- The name of a tag. -/
def name : Tag → String
  | .unknown => "unknown"
  | .list => "list"
  | .var => "var"
  | .wildcard => "wildcard"
  | .str => "str"
  | .number => "number"
  | .bool => "bool"
  | .keyword => "keyword"
  | .binaryOp => "binop"
  | .unaryOp => "unop"

/-- The tag of a rank is the tag at that place of `all`. -/
theorem all_rank (tag : Tag) : all[tag.rank]? = some tag := by
  cases tag <;> rfl

/-- The name that a rank is shown under. A rank past the last tag is shown as a number, and a
negative one has no name. -/
def nameOfRank? (rank : Int) : Option String :=
  match rank with
  | .negSucc _ => none
  | .ofNat place =>
    match all[place]? with
    | some tag => some tag.name
    | none => some ("tag(" ++ toString place ++ ")")

end Tag

/-- The tag of a term. -/
def tag : Term → Tag
  | .unknown => .unknown
  | .list _ => .list
  | .var _ => .var
  | .wildcard _ => .wildcard
  | .str _ => .str
  | .number _ => .number
  | .bool _ => .bool
  | .keyword _ => .keyword
  | .binaryOp _ => .binaryOp
  | .unaryOp _ => .unaryOp

/-- Whether a term is a list. -/
def isList : Term → Bool
  | .list _ => true
  | _ => false

/-- Whether a term is a variable. -/
def isVar : Term → Bool
  | .var _ => true
  | _ => false

/-- Whether a term is a wildcard. -/
def isWildcard : Term → Bool
  | .wildcard _ => true
  | _ => false

/-- Whether a term is a variable or a wildcard. -/
def isPattern (term : Term) : Bool :=
  term.isVar || term.isWildcard

/-- Whether a term is the answer of an operator that has none. -/
def isUnknown : Term → Bool
  | .unknown => true
  | _ => false

/-- The items of a list; an atom has none. -/
def items : Term → List Term
  | .list items => items
  | _ => []

/-- The spelling of a name, a word, a keyword or an operator; empty for all other terms. -/
def spelling : Term → String
  | .var name => name
  | .wildcard name => name
  | .str text => text
  | .keyword name => name
  | .binaryOp symbol => symbol
  | .unaryOp symbol => symbol
  | _ => ""

/-- The value of a number; zero for all other terms. -/
def numeric : Term → Float
  | .number value => value
  | _ => 0

/-- The value of a truth value; false for all other terms. -/
def truth : Term → Bool
  | .bool value => value
  | _ => false

mutual

/-- Same tag, same payload, lists item by item. Numbers compare as numbers: NaN differs from
itself, and the two zeros are equal. Names have no special meaning here. -/
def equal : Term → Term → Bool
  | .unknown, .unknown => true
  | .list xs, .list ys => equalItems xs ys
  | .var x, .var y => x == y
  | .wildcard x, .wildcard y => x == y
  | .str x, .str y => x == y
  | .number x, .number y => x == y
  | .bool x, .bool y => x == y
  | .keyword x, .keyword y => x == y
  | .binaryOp x, .binaryOp y => x == y
  | .unaryOp x, .unaryOp y => x == y
  | _, _ => false

/-- Equality item by item; lists of different lengths differ. -/
def equalItems : List Term → List Term → Bool
  | [], [] => true
  | x :: xs, y :: ys => equal x y && equalItems xs ys
  | _, _ => false

end

end Term

end TermLang
