import TermLang.Proofs.Reader.Blanks
import TermLang.Proofs.Server.Positions
import TermLang.Proofs.Server.Upkeep

/-!
# An error underlines the offending character

A parse error counts lines and code points; what an editor underlines is counted in UTF-16 code
units. On the way from one to the other stand the byte offsets: the column of the error is counted
off from the start of its line in code points, which leads to the offset of the offending glyph, and
from there the range goes to the end of that glyph.

The glyph is neither a newline nor a carriage return, so it takes room on the line of the error, and
the range spans just that room. A bracket that is never closed is left out: it is not underlined.
-/

namespace TermLang

namespace Text

/-! ## Lines in code points -/

/-- A newline is shown by a newline only, so lines can be counted in the characters or in the
glyphs. A stray byte shows the replacement character, which ends no line. -/
theorem count_newline_chars (text : Text) : text.chars.count '\n' = text.count (.scalar '\n') := by
  induction text with
  | nil => rfl
  | cons glyph rest inductionHypothesis =>
    have same : (glyph.char == '\n') = (glyph == .scalar '\n') := by
      cases glyph with
      | scalar c => simp [Glyph.char]
      | stray byte => rfl
    rw [chars] at inductionHypothesis
    rw [chars, List.map_cons, List.count_cons, List.count_cons, same, inductionHypothesis]

/-- A text without a newline is one line, the text itself. -/
theorem lines_of_notMem {line : List Char} (sameLine : '\n' ∉ line) : lines line = [line] := by
  induction line with
  | nil => rfl
  | cons c rest inductionHypothesis =>
    rw [List.mem_cons, not_or] at sameLine
    rw [lines, if_neg (Ne.symm sameLine.1), inductionHypothesis sameLine.2]

/-- Behind whole lines an empty line is begun, also behind none: a text always has a last line. -/
theorem WholeLines.lines_chars {earlier : Text} (whole : earlier.WholeLines) :
    ∃ rows, lines earlier.chars = rows ++ [[]] := by
  rcases whole.eq_nil_or with rfl | ⟨before, rfl⟩
  · exact ⟨[], rfl⟩
  · obtain ⟨rows, last, first, others, _, single, all⟩ := lines_append before.chars ['\n']
    cases single
    refine ⟨rows ++ [last], ?_⟩
    rw [chars_append, List.append_assoc]
    rw [List.append_nil] at all
    exact all

/-- The last line that a text shows is the line that is begun.

Proof: in front of it are whole lines, whose own last line is empty, so what follows makes up the
last line alone. -/
theorem lastLine_chars (text : Text) : lastLine text.chars = text.begunLine.chars := by
  obtain ⟨earlier, parts, whole, _⟩ := text.exists_wholeLines
  have sameLine : '\n' ∉ text.begunLine.chars := by
    rw [← List.count_eq_zero, count_newline_chars]
    exact List.count_eq_zero_of_not_mem text.newline_notMem_begunLine
  obtain ⟨rows, divided⟩ := whole.lines_chars
  obtain ⟨others, last, first, later, isEarlier, isLine, all⟩ :=
    lines_append earlier.chars text.begunLine.chars
  rw [lines_of_notMem sameLine] at isLine
  cases isLine
  rw [divided] at isEarlier
  obtain ⟨rfl, isLast⟩ := List.append_inj' isEarlier rfl
  cases isLast
  have joined : lines text.chars = rows ++ [text.begunLine.chars] := by
    rw [← chars_append, ← parts] at all
    exact all
  simp [lastLine, joined]

/-! ## From columns to offsets -/

/-- As many code points as a line has take it whole, returns included: a column counts code points
and not the room they take. -/
theorem bytesBeforeColumn_line {line : Text} (sameLine : .scalar '\n' ∉ line) (rest : Text) :
    bytesBeforeColumn line.length (line ++ rest) = line.width := by
  induction line with
  | nil => cases rest <;> rfl
  | cons glyph others inductionHypothesis =>
    rw [List.mem_cons, not_or] at sameLine
    rw [List.length_cons, List.cons_append, bytesBeforeColumn, if_neg (Ne.symm sameLine.1),
      inductionHypothesis sameLine.2, width_cons]

/-- The newlines before a place and the code points behind the last of them lead to the place. It is
the counterpart for columns of what holds of positions, and needs no condition on carriage returns.
-/
theorem offsetOfColumn_width (before after : Text) :
    (before ++ after).offsetOfColumn (before.count (.scalar '\n')) before.begunLine.length =
      before.width := by
  obtain ⟨earlier, parts, whole, newlines⟩ := before.exists_wholeLines
  have found := fromLine?_wholeLines whole (before.begunLine ++ after)
  rw [newlines, ← List.append_assoc, ← parts] at found
  rw [offsetOfColumn, Int.toNat_natCast, found]
  simp only [Int.toNat_natCast]
  rw [bytesBeforeColumn_line before.newline_notMem_begunLine, ← width_append, ← parts]

/-! ## One glyph -/

/-- An error that is marked at a character has the line and the column of that character, both from
one on. The column that the reader runs with is turned into one within the line first. -/
theorem position_of_pointsAt {error : ParseError} {before after : List Char} {c : Char}
    (points : error.PointsAt before c after) :
    error.position (before ++ c :: after) =
      (((lines before).length : Int), (((lastLine before).length + 1 : Nat) : Int)) := by
  simp only [ParseError.position, points.line, points.column]
  rw [columnInLine_behind]
  rfl

/-- A glyph that is seen is passed within its line, by as many code units as it takes. A newline
would start the next line, and a carriage return would take no room. -/
theorem positionOf_behind_glyph {glyph : Glyph} (inline : glyph ≠ .scalar '\n')
    (noReturn : glyph ≠ .scalar '\r') (before after : Text) :
    (before ++ glyph :: after).positionOf (before.width + glyph.width : Nat) =
      ⟨before.count (.scalar '\n'), (before.begunLine.units + glyph.units16 : Nat)⟩ := by
  have behind := positionOf_width (before ++ [glyph]) after
  have begun : (before ++ [glyph]).begunLine = before.begunLine ++ [glyph] :=
    begunLine_append (mt List.mem_singleton.mp inline.symm) before
  have newlines : (before ++ [glyph]).count (.scalar '\n') = before.count (.scalar '\n') := by
    rw [List.count_append, List.count_singleton, if_neg (by simpa using inline), Nat.add_zero]
  rwa [begun, newlines, units_append, units_cons noReturn, units_nil, Nat.add_zero, width_append,
    width_cons, width_nil, Nat.add_zero, List.append_assoc, List.singleton_append] at behind

end Text

namespace Server

open Text

/-- The stretch of a glyph at its offset goes from its first byte to behind its last. -/
theorem Diagnostic.glyphRange_width (before : Text) (glyph : Glyph) (after : Text) :
    glyphRange (before ++ glyph :: after) before.width =
      (before ++ glyph :: after).rangeOf before.width (before.width + glyph.width) := by
  simp only [glyphRange, glyphAt?, past_width_append, List.head?_cons]

/-- The stretch of a parse error that is marked at a glyph is that of the glyph. Lines and columns
of an error count from one, those of a text from zero, and the subtraction between them stays within
a word. -/
theorem Diagnostic.errorRange_of_position {text before after : Text} {glyph : Glyph}
    {error : ParseError} (parts : text = before ++ glyph :: after)
    (position : error.position text.chars =
      (((lines before.chars).length : Int), (((lastLine before.chars).length + 1 : Nat) : Int))) :
    errorRange text error = text.rangeOf before.width (before.width + glyph.width) := by
  have line : Number.wordBefore (lines before.chars).length 1 = before.count (.scalar '\n') := by
    rw [length_lines, count_newline_chars, Number.wordBefore_of_le (by omega)]
    omega
  have column : Number.wordBefore ((lastLine before.chars).length + 1 : Nat) 1 =
      before.begunLine.length := by
    rw [lastLine_chars, chars, List.length_map, Number.wordBefore_of_le (by omega)]
    omega
  simp only [errorRange, position, line, column]
  rw [parts, offsetOfColumn_width, glyphRange_width]

/-- An error points at a glyph that takes room on its line: newlines and carriage returns are
blanks, and no error is about a blank. The reader speaks of characters; the glyph is the one that
shows the character in question. -/
theorem exists_offending_glyph {text : Text} {error : ParseError}
    (failed : readProgram text.chars = .error error) :
    ∃ (before : Text) (glyph : Glyph) (after : Text), text = before ++ glyph :: after ∧
      error.PointsAt before.chars glyph.char after.chars ∧
      glyph ≠ .scalar '\n' ∧ glyph ≠ .scalar '\r' := by
  obtain ⟨_, c, _, shown, points⟩ := Reader.readProgram_error failed
  obtain ⟨before, behind, rfl, rfl, shownBehind⟩ := List.map_eq_append_iff.mp shown
  obtain ⟨glyph, after, rfl, rfl, rfl⟩ := List.map_eq_cons_iff.mp shownBehind
  have visible := Reader.visible_of_readProgram failed points.offends
  refine ⟨before, glyph, after, rfl, points, ?_, ?_⟩
  · rintro rfl
    cases visible
  · rintro rfl
    cases visible

/-- A source that cannot be read is underlined in one place, unless only a bracket is left open: the
offending character, from its first byte to its last, on the line of the error. -/
theorem underline_covers_offence {text : Text} {error : ParseError}
    (failed : readProgram text.chars = .error error) (reported : error.kind ≠ .unclosedBracket) :
    ∃ (before : Text) (glyph : Glyph) (after : Text) (line column : Nat) (row : List Char),
      text = before ++ glyph :: after ∧
      error.position text.chars = ((line : Int), (column : Int)) ∧
      StandsAt before.chars glyph.char after.chars line column row ∧
      error.Offends before.chars glyph.char after.chars ∧
      (∀ bytes, decode bytes = text →
        decode (bytes.extract before.width (before.width + glyph.width)) = [glyph]) ∧
      let range := text.rangeIn text.lineStarts before.width (before.width + glyph.width)
      (Document.ofText text).diagnostics =
        [⟨range, .error, some (Diagnostic.codeOf error.kind), (Fault.parse error).report⟩] ∧
      range.start.line = line - 1 ∧ range.stop.line = line - 1 ∧
      range.stop.character = range.start.character + glyph.units16 ∧
      (glyph.units16 = 1 ∨ glyph.units16 = 2) := by
  obtain ⟨before, glyph, after, rfl, pointsAt, inline, noReturn⟩ := exists_offending_glyph failed
  have position := position_of_pointsAt pointsAt
  have sameChars : chars (before ++ glyph :: after) = chars before ++ glyph.char :: chars after :=
    List.map_append
  obtain ⟨row, stands⟩ := standsAt pointsAt.inline (chars before) (chars after)
  rw [← sameChars] at position
  refine ⟨before, glyph, after, _, _, row, rfl, position, stands, pointsAt.offends, ?_, ?_⟩
  · intro bytes decoded
    exact Cut.decode ⟨before, after, decoded, rfl, rfl⟩
  have start := positionOf_width before (glyph :: after)
  have stop := positionOf_behind_glyph inline noReturn before after
  have range := Diagnostic.errorRange_of_position rfl position
  -- The error counts lines from one, and the range from zero.
  have number : (((lines (chars before)).length : Nat) : Int) - 1 =
      before.count (.scalar '\n') := by
    rw [length_lines, count_newline_chars]
    omega
  rw [Int.natCast_add] at stop
  simp only [rangeIn, positionIn_lineStarts]
  refine ⟨?_, ?_, ?_, ?_, ?_⟩
  · rw [Document.diagnostics_ofText, Diagnostic.ofText, failed]
    simp only [reported, if_false, range, rangeOf]
  · rw [start, number]
  · rw [stop, number]
  · rw [start, stop]
    exact Int.natCast_add _ _
  · unfold Glyph.units16
    split
    · exact .inl rfl
    · exact .inr rfl

/-- A code point above the basic plane behind a quoted text over two lines that holds another one:
its running column is nine, its own four, and it takes two code units from the fourth on. -/
theorem underline_covers_wide_character :
    let text := Text.ofString "(a \"x\n😀\" 😀)"
    let error : ParseError := ⟨.invalidCharacter, 0x1F600, "", 2, 9⟩
    readProgram text.chars = .error error ∧ error.kind ≠ .unclosedBracket ∧
      ∃ (before : Text) (glyph : Glyph) (after : Text),
        text = before ++ glyph :: after ∧ (0x1F600 : Int) = glyph.char.toNat ∧
        text.rangeIn text.lineStarts before.width (before.width + glyph.width) =
          ⟨⟨1, 4⟩, ⟨1, 6⟩⟩ ∧
        (Document.ofText text).diagnostics =
          [⟨⟨⟨1, 4⟩, ⟨1, 6⟩⟩, .error, some "INVALID_CHARACTER", (Fault.parse error).report⟩] := by
  intro text error
  have failed : readProgram text.chars = .error error := rfl
  have reported : error.kind ≠ .unclosedBracket := by decide
  obtain ⟨before, glyph, after, _, _, _, parts, _, _, offends, _, underlined, _⟩ :=
    underline_covers_offence failed reported
  have range : text.rangeIn text.lineStarts before.width (before.width + glyph.width) =
      ⟨⟨1, 4⟩, ⟨1, 6⟩⟩ := by
    have shown := underlined
    rw [Document.diagnostics_ofText, Diagnostic.ofText, failed] at shown
    have same := congrArg Diagnostic.range (List.singleton_inj.mp shown)
    exact same.symm.trans (by decide +kernel)
  rw [range] at underlined
  exact ⟨failed, reported, before, glyph, after, parts, offends, range, underlined⟩

end Server

end TermLang
