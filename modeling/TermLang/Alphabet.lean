/-!
# The alphabet of the language

Outside quoted texts a source is made of brackets, blanks, letters, digits and eleven symbols.
All of them are ASCII characters.
-/

namespace TermLang

/-- Small letters. -/
def isSmallLetter (c : Char) : Bool := 'a' ≤ c && c ≤ 'z'

/-- Capital letters. -/
def isCapitalLetter (c : Char) : Bool := 'A' ≤ c && c ≤ 'Z'

/-- Letters. -/
def isLetter (c : Char) : Bool := isSmallLetter c || isCapitalLetter c

/-- Digits. -/
def isDecimalDigit (c : Char) : Bool := '0' ≤ c && c ≤ '9'

/-- What a name may go on with: letters, digits, hyphen and underscore. -/
def isWordChar (c : Char) : Bool := isLetter c || isDecimalDigit c || c == '-' || c == '_'

/-- The symbols of operators, keywords, wildcards and numbers. -/
def isSymbol (c : Char) : Bool :=
  c == '+' || c == '-' || c == '*' || c == '/' || c == '%' || c == '=' || c == '<' || c == '>' ||
    c == '!' || c == '.' || c == '_'

/-- What divides atoms: space, tab, carriage return and newline. -/
def isDivider (c : Char) : Bool := c == ' ' || c == '\t' || c == '\r' || c == '\n'

/-- The spellings of the operators on two operands. -/
def binaryOperators : List String :=
  ["+", "-", "*", "/", "%", "**", "=", "<", ">", "<=", ">="]

/-- The spelling of the operator on one operand. -/
def negation : String := "!"

end TermLang
