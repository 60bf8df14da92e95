import TermLang.Text.Glyph

/-!
# Lines of input

Lines are read through a buffer of fixed size. A line ends at a newline, and one carriage
return before it is dropped; the end of the input ends a last line. A line that does not fit
into the buffer comes in pieces, and a carriage return at the end of a piece is left for the
next one.
-/

namespace TermLang.Console

/-- A line, or a piece of one that did not fit. -/
structure Line where
  /-- The bytes without the line end. -/
  content : List UInt8
  /-- Whether the line goes on. -/
  isPiece : Bool
  deriving DecidableEq, Inhabited, Repr

namespace Line

/-- The size of the buffer in bytes. -/
def bufferSize : Nat := 4096

/-- The byte of a newline. -/
def newline : UInt8 := 10

/-- The byte of a carriage return. -/
def carriageReturn : UInt8 := 13

/-- Drops one carriage return from the end. -/
def dropReturn (content : List UInt8) : List UInt8 :=
  if content.getLast? = some carriageReturn then content.dropLast else content

/-- The first line of some bytes, and what follows it; `none` at the end. -/
def next? (bytes : List UInt8) : Option (Line × List UInt8) :=
  let buffer := bytes.take bufferSize
  if buffer.contains newline then
    let content := buffer.takeWhile (· != newline)
    some (⟨dropReturn content, false⟩, bytes.drop (content.length + 1))
  else if bufferSize ≤ buffer.length then
    let piece := dropReturn buffer
    some (⟨piece, true⟩, bytes.drop piece.length)
  else if bytes.isEmpty then none
  else some (⟨bytes, false⟩, [])

/-- The lines of some bytes, at most `count` of them. -/
def take : (count : Nat) → List UInt8 → List Line
  | 0, _ => []
  | count + 1, bytes =>
    match next? bytes with
    | none => []
    | some (line, rest) => line :: take count rest

/-- All lines of some bytes. Every line uses up at least one byte. -/
def all (bytes : List UInt8) : List Line :=
  take bytes.length bytes

end Line

end TermLang.Console
