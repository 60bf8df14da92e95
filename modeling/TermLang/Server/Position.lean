import TermLang.Text.Glyph

/-!
# Positions

A place in a text has three names: its byte offset; its line and the number of UTF-16 code
units before it in that line, as editors count; and its line and the number of code points
before it, as parse errors count. Lines and columns start at zero here. A carriage return takes
no room in a line as editors count. Positions and columns outside the text are moved into it.
-/

namespace TermLang.Server

/-- A line and a number of UTF-16 code units in it. -/
structure Position where
  /-- The line, counted from zero. -/
  line : Int
  /-- The code units before the place, carriage returns apart. -/
  character : Int
  deriving DecidableEq, Inhabited, Repr

/-- A stretch of text between two positions. -/
structure Range where
  /-- Where it starts. -/
  start : Position
  /-- Where it ends. -/
  stop : Position
  deriving DecidableEq, Inhabited, Repr

end TermLang.Server

namespace TermLang.Text

open Server (Position Range)

/-- The glyphs that lie wholly in the first `offset` bytes. -/
def upTo : (offset : Nat) → Text → Text
  | _, [] => []
  | offset, glyph :: rest =>
    if glyph.width ≤ offset then glyph :: upTo (offset - glyph.width) rest else []

/-- The glyphs that are left when those in the first `offset` bytes are taken away. -/
def past : (offset : Nat) → Text → Text
  | _, [] => []
  | offset, glyph :: rest =>
    if glyph.width ≤ offset then past (offset - glyph.width) rest else glyph :: rest

/-- Where the lines start that follow a newline, if the text starts at `offset`. -/
def laterLines (offset : Nat) : Text → List Nat
  | [] => []
  | glyph :: rest =>
    let next := offset + glyph.width
    if glyph = .scalar '\n' then next :: laterLines next rest else laterLines next rest

/-- The byte offsets at which lines start. -/
def lineStarts (text : Text) : List Nat :=
  0 :: laterLines 0 text

/-- The offset of a line and the text from there on, if the text starts at `offset`; none past
the last line. -/
def fromLine? (offset : Nat) : (line : Nat) → Text → Option (Nat × Text)
  | 0, text => some (offset, text)
  | _ + 1, [] => none
  | line + 1, glyph :: rest =>
    if glyph = .scalar '\n' then fromLine? (offset + glyph.width) line rest
    else fromLine? (offset + glyph.width) (line + 1) rest

/-- How many bytes of a line stand before the given number of code units. The end of the line
ends the count. -/
def bytesBefore (units : Int) : Text → Nat
  | [] => 0
  | glyph :: rest =>
    if units ≤ 0 then 0
    else if glyph = .scalar '\r' then glyph.width + bytesBefore units rest
    else if glyph = .scalar '\n' then 0
    else glyph.width + bytesBefore (units - glyph.units16) rest

/-- The byte offset of a position. Lines before the first are the start of the text, lines
past the last are its end. -/
def offsetOf (text : Text) (position : Position) : Nat :=
  if position.line < 0 then 0
  else
    match fromLine? 0 position.line.toNat text with
    | none => text.width
    | some (start, rest) => start + bytesBefore position.character rest

/-- The byte offset of a position, if it is known at which offsets the lines start. -/
def offsetIn (lines : List Nat) (text : Text) (position : Position) : Nat :=
  if position.line < 0 then 0
  else
    match lines[position.line.toNat]? with
    | none => text.width
    | some start => start + bytesBefore position.character (text.past start)

/-- Walks `left` bytes on from a line and a number of code units. A glyph of which a part is
walked counts whole. -/
def positionFrom (line character : Nat) : (left : Nat) → Text → Position
  | _, [] => ⟨line, character⟩
  | left, glyph :: rest =>
    if left = 0 then ⟨line, character⟩
    else if glyph = .scalar '\n' then positionFrom (line + 1) 0 (left - glyph.width) rest
    else if glyph = .scalar '\r' then positionFrom line character (left - glyph.width) rest
    else positionFrom line (character + glyph.units16) (left - glyph.width) rest

/-- The position of a byte offset. -/
def positionOf (text : Text) (offset : Int) : Position :=
  positionFrom 0 0 offset.toNat text

/-- The range between two byte offsets. -/
def rangeOf (text : Text) (start stop : Int) : Range :=
  ⟨text.positionOf start, text.positionOf stop⟩

/-- How many code units of a line stand in its first `left` bytes. A glyph of which a part is among
them counts whole, and the end of the line ends the count. -/
def unitsBefore : (left : Nat) → Text → Nat
  | _, [] => 0
  | left, glyph :: rest =>
    if left = 0 then 0
    else if glyph = .scalar '\n' then 0
    else if glyph = .scalar '\r' then unitsBefore (left - glyph.width) rest
    else glyph.units16 + unitsBefore (left - glyph.width) rest

/-- The position of a byte offset, if it is known at which offsets the lines start: the last line
that starts there or before, and the code units from its start on. -/
def positionIn (lines : List Nat) (text : Text) (offset : Int) : Position :=
  let reached := min offset.toNat text.width
  let started := lines.filter (· ≤ reached)
  let start := started.getLast?.getD 0
  ⟨started.length - 1, unitsBefore (reached - start) (text.past start)⟩

/-- The range between two byte offsets, if it is known at which offsets the lines start. -/
def rangeIn (lines : List Nat) (text : Text) (start stop : Int) : Range :=
  ⟨positionIn lines text start, positionIn lines text stop⟩

/-- How many bytes of a line stand before the given number of code points. The end of the line
ends the count. -/
def bytesBeforeColumn : (column : Nat) → Text → Nat
  | 0, _ => 0
  | _ + 1, [] => 0
  | column + 1, glyph :: rest =>
    if glyph = .scalar '\n' then 0 else glyph.width + bytesBeforeColumn column rest

/-- The byte offset of a line and a number of code points in it. -/
def offsetOfColumn (text : Text) (line column : Int) : Nat :=
  match fromLine? 0 line.toNat text with
  | none => text.width
  | some (start, rest) => start + bytesBeforeColumn column.toNat rest

/-- The text between two byte offsets. -/
def between (start stop : Nat) (text : Text) : Text :=
  upTo (stop - start) (past start text)

/-- A count of code units never leaves the text: it takes whole glyphs and stops where there are
none. -/
theorem bytesBefore_le_width (units : Int) (text : Text) :
    bytesBefore units text ≤ text.width := by
  induction text generalizing units with
  | nil => simp [bytesBefore]
  | cons glyph rest ih =>
    have counted := ih (units - glyph.units16)
    have skipped := ih units
    simp only [bytesBefore, width_cons]
    split
    · omega
    · split
      · omega
      · split <;> omega

/-- The start of a line and the text from there on make up the whole width. So the line that is
found starts inside the text, and so does everything that is counted from its start on. -/
theorem add_width_of_fromLine? {offset line start : Nat} {text rest : Text}
    (found : fromLine? offset line text = some (start, rest)) :
    start + rest.width = offset + text.width := by
  induction text generalizing offset line with
  | nil =>
    cases line with
    | zero =>
      simp only [fromLine?, Option.some.injEq, Prod.mk.injEq] at found
      rw [← found.1, ← found.2]
    | succ line => simp [fromLine?] at found
  | cons glyph others ih =>
    cases line with
    | zero =>
      simp only [fromLine?, Option.some.injEq, Prod.mk.injEq] at found
      rw [← found.1, ← found.2]
    | succ line =>
      simp only [fromLine?] at found
      split at found
      · have reached := ih found
        rw [width_cons]
        omega
      · have reached := ih found
        rw [width_cons]
        omega

/-- Every position, however far outside, has an offset inside the text: it is zero, the end of the
text, or counted from the start of a line. -/
theorem offsetOf_le_width (text : Text) (position : Position) :
    text.offsetOf position ≤ text.width := by
  simp only [offsetOf]
  split
  · omega
  · split
    · omega
    · next start rest found =>
      have whole := add_width_of_fromLine? found
      have inside := bytesBefore_le_width position.character rest
      omega

/-- The bytes of the first of two texts hold exactly that text. No glyph of the second comes along,
since every glyph takes a byte. -/
theorem upTo_width_append (before after : Text) : upTo before.width (before ++ after) = before := by
  induction before with
  | nil =>
    cases after with
    | nil => rfl
    | cons glyph rest =>
      have wide := glyph.width_pos
      have outside : ¬ glyph.width ≤ 0 := by omega
      simp [upTo, outside]
  | cons glyph rest ih => simp [upTo, ih]

/-- What is left behind the bytes of the first of two texts is the second, all of it. -/
theorem past_width_append (before after : Text) : past before.width (before ++ after) = after := by
  induction before with
  | nil =>
    cases after with
    | nil => rfl
    | cons glyph rest =>
      have wide := glyph.width_pos
      have outside : ¬ glyph.width ≤ 0 := by omega
      simp [past, outside]
  | cons glyph rest ih => simp [past, ih]

/-- What is in the first bytes and what is left make up the text. An offset inside of a glyph gives
the glyph to what is left. -/
theorem upTo_append_past (offset : Nat) (text : Text) :
    upTo offset text ++ past offset text = text := by
  induction text generalizing offset with
  | nil => simp [upTo, past]
  | cons glyph rest ih =>
    simp only [upTo, past]
    split
    · simp [ih]
    · simp

end TermLang.Text
