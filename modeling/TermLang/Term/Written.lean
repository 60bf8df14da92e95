import TermLang.Alphabet
import TermLang.Number.Layout
import TermLang.Term
import TermLang.Text.Blank

/-!
# Written terms

Two written forms of a term. `compact` puts it on one line, its items divided by single
spaces. `laidOut` puts a space behind every atom and every bracket and starts each nested list
on a new line, indented by two spaces per level; this is how terms are printed and programs
are formatted. Both write a word bare exactly when it reads back as that word.

The writers take the text that follows and put the term in front of it, so that the work is
linear in the size of the text.
-/

namespace TermLang

namespace Term

/-- Whether a text would not read back as a bare word: it is empty, a truth value, does not
start with a small letter, or goes on with something that is not part of a word. -/
def needsQuotes (text : List Char) : Bool :=
  match text with
  | [] => true
  | first :: rest =>
    text == ['t', 'r', 'u', 'e'] || text == ['f', 'a', 'l', 's', 'e'] ||
      !isSmallLetter first || !rest.all isWordChar

/-- A text as an atom: bare if it reads back, else between quotes. -/
def writeStr (text : List Char) (rest : List Char) : List Char :=
  if needsQuotes text then '"' :: (text ++ '"' :: rest) else text ++ rest

/-- An atom in front of `rest`. The unknown is written as a question mark. -/
def writeAtom (atom : Term) (rest : List Char) : List Char :=
  match atom with
  | .number value => Number.text value ++ rest
  | .bool true => 't' :: 'r' :: 'u' :: 'e' :: rest
  | .bool false => 'f' :: 'a' :: 'l' :: 's' :: 'e' :: rest
  | .str text => writeStr text.toList rest
  | .unknown => '?' :: rest
  | other => other.spelling.toList ++ rest

mutual

/-- A term on one line, in front of `rest`. -/
def write : Term → List Char → List Char
  | .list items, rest => '(' :: writeItems items (')' :: rest)
  | atom, rest => writeAtom atom rest

/-- Terms divided by single spaces, in front of `rest`. -/
def writeItems : List Term → List Char → List Char
  | [], rest => rest
  | [item], rest => write item rest
  | item :: next :: more, rest => write item (' ' :: writeItems (next :: more) rest)

end

/-- A term on one line. -/
def compact (term : Term) : String :=
  String.ofList (term.write [])

/-- The colours of the terminal that written terms use. -/
inductive Colour where
  | red
  | green
  | blue
  deriving DecidableEq, Repr

namespace Colour

/-- The control sequence that starts a colour. -/
def start : Colour → List Char
  | .red => ['\x1b', '[', '3', '1', 'm']
  | .green => ['\x1b', '[', '3', '2', 'm']
  | .blue => ['\x1b', '[', '3', '4', 'm']

/-- The control sequence that ends every colour. -/
def reset : List Char :=
  ['\x1b', '[', '0', 'm']

/-- What `write` puts in front of `rest`, in a colour if colours are on. -/
def paint (on : Bool) (colour : Colour) (write : List Char → List Char) (rest : List Char) :
    List Char :=
  if on then colour.start ++ write (reset ++ rest) else write rest

end Colour

/-- A text in red if colours are on. -/
def red (colours : Bool) (text : String) : String :=
  String.ofList (Colour.paint colours .red (text.toList ++ ·) [])

/-- An atom with keywords in blue and texts in green, if colours are on. -/
def paintAtom (colours : Bool) (atom : Term) (rest : List Char) : List Char :=
  match atom with
  | .keyword _ => Colour.paint colours .blue (writeAtom atom) rest
  | .str _ => Colour.paint colours .green (writeAtom atom) rest
  | other => writeAtom other rest

/-- The line break and the indentation in front of a list at a nesting depth; none at the top. -/
def lineBreak (depth : Nat) (rest : List Char) : List Char :=
  if depth = 0 then rest else '\n' :: (List.replicate (2 * depth) ' ' ++ rest)

mutual

/-- A term at a nesting depth with a space behind every atom and bracket, in front of `rest`. -/
def layOut (colours : Bool) (depth : Nat) : Term → List Char → List Char
  | .list items, rest =>
    lineBreak depth ('(' :: ' ' :: layOutItems colours (depth + 1) items (')' :: ' ' :: rest))
  | atom, rest => paintAtom colours atom (' ' :: rest)

/-- Terms at a nesting depth, in front of `rest`. -/
def layOutItems (colours : Bool) (depth : Nat) : List Term → List Char → List Char
  | [], rest => rest
  | item :: more, rest => layOut colours depth item (layOutItems colours depth more rest)

end

/-- A term laid out over lines, as it is printed. -/
def laidOut (colours : Bool) (term : Term) : String :=
  String.ofList (term.layOut colours 0 [])

/-- The lists of a program in canonical layout, one behind the other: each laid out, without the
spaces at its end, on lines of its own. -/
def formatted (program : Term) : String :=
  String.join (program.items.map fun form =>
    String.ofList (Text.trimEnd (· == ' ') (form.laidOut false).toList) ++ "\n")

end Term

end TermLang
