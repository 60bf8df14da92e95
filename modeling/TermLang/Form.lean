/-!
# Forms

A list that starts with a keyword is a form. The built-in forms take one or two operands. Their
order here is the order in which help and completion show them.
-/

namespace TermLang

/-- The built-in forms. -/
inductive Form where
  /-- Writes its operand to the output. -/
  | print
  /-- Ends the evaluation with its operand. -/
  | leave
  /-- Reduces the program in a file. -/
  | load
  /-- Adds a fact. -/
  | declare
  /-- Adds a fact, with a shorter keyword. -/
  | declareShort
  /-- Lists the facts that match a pattern. -/
  | lookUp
  /-- Asks the facts. -/
  | ask
  /-- The first item of a list. -/
  | head
  /-- The last item of a list. -/
  | back
  /-- Logical and. -/
  | both
  /-- Logical or. -/
  | either
  /-- Two lists put together. -/
  | union
  /-- Adds a rule. -/
  | define
  /-- Binds a variable. -/
  | bind
  deriving DecidableEq, Inhabited, Repr

namespace Form

/-- All forms in the order in which they are shown. -/
def all : List Form :=
  [.print, .leave, .load, .declare, .declareShort, .lookUp, .ask, .head, .back, .both, .either,
    .union, .define, .bind]

/-- The keyword of a form. -/
def keyword : Form → String
  | .print => ".print"
  | .leave => ".return"
  | .load => ".load"
  | .declare => ".declare"
  | .declareShort => ".dec"
  | .lookUp => ".match"
  | .ask => ".eval"
  | .head => ".head"
  | .back => ".back"
  | .both => ".and"
  | .either => ".or"
  | .union => ".union"
  | .define => ".def"
  | .bind => ".is"

/-- The number of operands of a form. -/
def arity : Form → Nat
  | .both | .either | .union | .define | .bind => 2
  | _ => 1

/-- How a form is written. -/
def usage : Form → String
  | .print => "(.print x)"
  | .leave => "(.return x)"
  | .load => "(.load \"path\")"
  | .declare => "(.declare fact)"
  | .declareShort => "(.dec fact)"
  | .lookUp => "(.match pattern)"
  | .ask => "(.eval query)"
  | .head => "(.head list)"
  | .back => "(.back list)"
  | .both => "(.and a b)"
  | .either => "(.or a b)"
  | .union => "(.union a b)"
  | .define => "(.def pattern result)"
  | .bind => "(.is Var value)"

/-- What a form does, as help shows it. -/
def doc : Form → String
  | .print => "Write x to the output, one term per line. Yields true."
  | .leave => "Stop the enclosing evaluation and yield x from it."
  | .load =>
    "Reduce the forms of a source file in the current scope. Yields false when the file is not found."
  | .declare => "Add fact to the declarations of the current scope. Yields true."
  | .declareShort => "Short for .declare."
  | .lookUp => "List the declarations that match pattern, with Vars filled in."
  | .ask => "Query the declarations. Yields one list of (= Var value) per matching fact."
  | .head => "First element of a non-empty list."
  | .back => "Last element of a non-empty list."
  | .both => "Logical and of two booleans."
  | .either => "Logical or of two booleans. Inside .eval, a failed (.or a b) becomes (.union a b)."
  | .union => "Concatenation of two lists."
  | .define => "Add a rewrite rule: lists matching pattern reduce to result. Yields true."
  | .bind => "Bind Var to value in the current scope. Yields true."

/-- The form of a keyword. -/
def find? (keyword : String) : Option Form :=
  all.find? (·.keyword == keyword)

/-- The keywords in increasing order. -/
def keywords : List String :=
  (all.map keyword).mergeSort (fun a b => decide (a ≤ b))

/-- Every form is found under its keyword. -/
theorem find?_keyword (form : Form) : find? form.keyword = some form := by
  cases form <;> decide

end Form

namespace Operator

/-- The operators with what they do, in increasing order of their spellings. -/
def docs : List (String × String) :=
  [("!", "(! b) boolean negation"),
    ("%", "(% a b) floating remainder"),
    ("*", "(* a b) product of two numbers"),
    ("**", "(** a b) a raised to b"),
    ("+", "(+ a b) sum of two numbers"),
    ("-", "(- a b) difference of two numbers"),
    ("/", "(/ a b) quotient of two numbers"),
    ("<", "(< a b) numeric comparison"),
    ("<=", "(<= a b) numeric comparison"),
    ("=", "(= a b) structural equality; false across kinds"),
    (">", "(> a b) numeric comparison"),
    (">=", "(>= a b) numeric comparison")]

/-- What an operator does. -/
def doc? (symbol : String) : Option String :=
  (docs.find? (·.1 == symbol)).map (·.2)

end Operator

/-- The version of the language. -/
def version : String := "0.3.0"

end TermLang
