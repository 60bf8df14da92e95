import TermLang.Alphabet
import TermLang.Fault
import TermLang.Term

/-!
# Pieces of a source

The reader cuts a source into pieces: dividers, signs and finished lists. A sign is one
character of an atom, or a whole quoted text, together with where it started. Signs are put
together into atoms only when the list around them is closed.
-/

namespace TermLang

/-- A place in a source: the line, and the running column that does not restart on new lines. -/
structure Mark where
  /-- The line, counted from one. -/
  line : Nat
  /-- The running column. -/
  column : Nat
  deriving DecidableEq, Inhabited, Repr

/-- A part of an atom, and where it started. -/
inductive Sign where
  /-- A letter, a digit or a symbol. -/
  | char (c : Char) (mark : Mark)
  /-- A quoted text without its quotes. -/
  | quoted (text : List Char) (mark : Mark)
  deriving DecidableEq, Inhabited, Repr

namespace Sign

/-- Where a sign started. -/
def mark : Sign → Mark
  | .char _ mark => mark
  | .quoted _ mark => mark

/-- The first character of a sign. -/
def first : Sign → Char
  | .char c _ => c
  | .quoted _ _ => '"'

/-- The characters of a sign as they stand in the source. -/
def source : Sign → List Char
  | .char c _ => [c]
  | .quoted text _ => '"' :: (text ++ ['"'])

/-- The character of a sign that is not a quoted text. -/
def char? : Sign → Option Char
  | .char c _ => some c
  | .quoted _ _ => none

end Sign

/-- What a list holds while it is being read. -/
inductive Piece where
  /-- One or more blanks. -/
  | divider
  /-- A part of an atom. -/
  | sign (sign : Sign)
  /-- A list that was closed. -/
  | list (term : Term)
  deriving Inhabited, Repr

namespace ParseError

/-- An error of the given kind at a mark, without a character or a text. -/
def atMark (kind : Kind) (mark : Mark) : ParseError :=
  ⟨kind, 0, "", mark.line, mark.column⟩

/-- A character that is not allowed at its place. -/
def invalidCharacter (c : Char) (mark : Mark) : ParseError :=
  { atMark .invalidCharacter mark with code := c.toNat }

/-- A sign that is not allowed at its place. -/
def invalidSign (sign : Sign) : ParseError :=
  invalidCharacter sign.first sign.mark

/-- A run that is no atom, reported as it stands in the source. -/
def invalidRun (first : Sign) (rest : List Sign) : ParseError :=
  { atMark .invalidSymbol first.mark with
    text := String.ofList ((first :: rest).flatMap Sign.source) }

/-- Anything else that is wrong at a mark. -/
def otherAt (mark : Mark) (text : String) : ParseError :=
  { atMark .other mark with text := text }

end ParseError

end TermLang
