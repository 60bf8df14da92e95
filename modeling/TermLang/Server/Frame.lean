import TermLang.Alphabet
import TermLang.Number.Whole
import TermLang.Text.Blank
import TermLang.Text.Glyph

/-!
# Frames

Messages travel in frames on a stream of bytes: header lines, an empty line, then as many
bytes of body as the header says. Header lines end at a newline, trailing carriage returns do
not count, and only the line with the length matters. The key of that line may be written in
any letter case and with blanks around it. A later length replaces an earlier one; a value
that is no number replaces nothing.
-/

namespace TermLang.Server.Frame

/-- The byte that ends a line. -/
def newline : UInt8 := 10

/-- The byte that may stand before the end of a line. -/
def carriageReturn : UInt8 := 13

/-- The byte between the key and the value of a header line. -/
def colon : UInt8 := 58

/-- The key of the line that holds the length of the body, in small letters. -/
def lengthKey : String := "content-length"

/-- The number at the start of a value: a sign if there is one, then digits. What follows the
digits does not matter. -/
def leadingNumber? (value : List Char) : Option Int :=
  match value with
  | '-' :: rest => Number.word? true (rest.takeWhile isDecimalDigit)
  | '+' :: rest => Number.word? false (rest.takeWhile isDecimalDigit)
  | other => Number.word? false (other.takeWhile isDecimalDigit)

/-- The characters of bytes, without blanks at the ends. -/
def trimmed (bytes : List UInt8) : List Char :=
  Text.trimBlank (Text.decode bytes).chars

/-- The length of the body after a header line, if it was `length` before. -/
def lengthAfter (length : Int) (line : List UInt8) : Int :=
  match line.dropWhile (· != colon) with
  | [] => length
  | _ :: value =>
    let key := trimmed (line.takeWhile (· != colon))
    if String.ofList (key.map Char.toLower) = lengthKey then
      (leadingNumber? (trimmed value)).getD length
    else length

/-- A line without the carriage returns at its end. -/
def trimReturns (line : List UInt8) : List UInt8 :=
  (line.reverse.dropWhile (· == carriageReturn)).reverse

/-- Reads header lines up to an empty one and gives back the length of the body and the rest
of the stream; none if the stream ends before. `length` is the length so far, and `line` holds
the bytes of the current line, the latest first. -/
def header? (length : Int) (line : List UInt8) : List UInt8 → Option (Int × List UInt8)
  | [] => none
  | byte :: rest =>
    if byte = newline then
      match trimReturns line.reverse with
      | [] => some (length, rest)
      | first :: more => header? (lengthAfter length (first :: more)) [] rest
    else header? length (byte :: line) rest

/-- What stands at the start of a stream. -/
inductive Reading where
  /-- A whole frame: its body, and the rest of the stream. -/
  | body (content rest : List UInt8)
  /-- No further frame. -/
  | ended
  /-- A frame whose body is cut short. -/
  | cut
  deriving DecidableEq, Inhabited, Repr

/-- Reads one frame. A length that is not positive ends the stream, and so does a stream that
ends in front of a body. -/
def next (stream : List UInt8) : Reading :=
  match header? 0 [] stream with
  | none => .ended
  | some (length, rest) =>
    if length ≤ 0 || rest.isEmpty then .ended
    else if length ≤ rest.length then .body (rest.take length.toNat) (rest.drop length.toNat)
    else .cut

/-- Reading a header takes bytes off the stream: its last line ends with a newline, and the rest
begins behind it. -/
theorem length_lt_of_header? {length : Int} {line stream : List UInt8} {found : Int}
    {rest : List UInt8} (read : header? length line stream = some (found, rest)) :
    rest.length < stream.length := by
  induction stream generalizing length line with
  | nil => simp [header?] at read
  | cons byte more ih =>
    simp only [header?] at read
    split at read
    · split at read
      · simp only [Option.some.injEq, Prod.mk.injEq] at read
        simp [read.2]
      · have := ih read
        simp only [List.length_cons]
        omega
    · have := ih read
      simp only [List.length_cons]
      omega

/-- Reading a frame takes bytes off the stream, at least those of its header. So the frames of a
stream come to an end. -/
theorem length_lt_of_next {stream content rest : List UInt8}
    (read : next stream = .body content rest) : rest.length < stream.length := by
  simp only [next] at read
  split at read
  · simp at read
  · next length more header =>
    have shorter := length_lt_of_header? header
    split at read
    · simp at read
    · split at read
      · simp only [Reading.body.injEq] at read
        rw [← read.2, List.length_drop]
        omega
      · simp at read

/-- The bodies of the frames on a stream, and whether the last frame is cut short. -/
def bodies (stream : List UInt8) : List (List UInt8) × Bool :=
  match _read : next stream with
  | .ended => ([], false)
  | .cut => ([], true)
  | .body content rest =>
    let (others, cut) := bodies rest
    (content :: others, cut)
termination_by stream.length
decreasing_by exact length_lt_of_next _read

/-- The frame around a body. -/
def wrap (content : List UInt8) : List UInt8 :=
  Text.bytes (Text.ofString
    ("Content-Length: " ++ toString content.length ++ "\r\n\r\n")) ++ content

end TermLang.Server.Frame
