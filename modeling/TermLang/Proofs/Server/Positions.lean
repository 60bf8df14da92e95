import Mathlib.Data.List.DropRight
import TermLang.Proofs.Server.Change
import TermLang.Proofs.Server.Lines
import TermLang.Proofs.Text.Encoding

/-!
# Places of a text

A place of a text is an offset between two glyphs that is not directly behind a carriage return.
The position of a place is said without a walk: the newlines before it, and the code units behind
the last of them. Counted from the start of the line on, these units lead back to the place. So a
change of the range between two places replaces exactly the bytes between them.

A position past the end of a line is moved in front of the newline that ends it. A carriage return
takes no room, so it is passed as long as units are left: on a line that ends with a carriage return
and a newline, such a position falls between the two, and not in front of both.

An offset behind carriage returns has a position too, which leads to the place in front of them.
Offsets inside of a glyph are not covered.
-/

namespace TermLang

/-- Every glyph takes room where glyphs are counted in code units, which is why counting units can
find every place. The one exception, the carriage return, is made where lines are counted. -/
theorem Glyph.units16_pos (glyph : Glyph) : 0 < glyph.units16 := by
  unfold units16
  split
  · exact Nat.one_pos
  · exact Nat.two_pos

/-- A newline takes one byte, so the next line starts one byte behind the end of a line. -/
theorem Glyph.width_newline : (Glyph.scalar '\n').width = 1 := rfl

namespace Text

/-! ## Lines -/

/-- How many code units the glyphs of a line take, carriage returns apart. -/
def units : Text → Nat
  | [] => 0
  | glyph :: rest => if glyph = .scalar '\r' then units rest else glyph.units16 + units rest

/-- What stands behind the last newline. -/
def begunLine (text : Text) : Text :=
  text.rtakeWhile (· ≠ .scalar '\n')

/-- No line is begun: the text is empty or ends with a newline. -/
def WholeLines (text : Text) : Prop :=
  ∀ glyph ∈ text.getLast?, glyph = .scalar '\n'

/-- Whether a text consists of whole lines can be seen at its last glyph. -/
instance (text : Text) : Decidable text.WholeLines :=
  inferInstanceAs (Decidable (∀ glyph ∈ text.getLast?, glyph = .scalar '\n'))

/-- An empty line takes no room. -/
@[simp]
theorem units_nil : units [] = 0 := rfl

/-- A carriage return takes no room, wherever it stands. -/
@[simp]
theorem units_return (rest : Text) : units (.scalar '\r' :: rest) = units rest := rfl

/-- Every other glyph takes its code units. -/
theorem units_cons {glyph : Glyph} (noReturn : glyph ≠ .scalar '\r') (rest : Text) :
    units (glyph :: rest) = glyph.units16 + units rest :=
  if_neg noReturn

/-- Parts of a line take the room of both. So the units up to a place do not depend on what follows
it. -/
theorem units_append (line rest : Text) : units (line ++ rest) = line.units + rest.units := by
  induction line with
  | nil => simp
  | cons glyph others inductionHypothesis =>
    rw [List.cons_append]
    by_cases isReturn : glyph = .scalar '\r'
    · rw [isReturn, units_return, units_return, inductionHypothesis]
    · rw [units_cons isReturn, units_cons isReturn, inductionHypothesis, Nat.add_assoc]

/-- What is behind the first glyph of a line does not end with a carriage return either; if nothing
is behind it, there is nothing to end with. -/
theorem noReturn_of_cons {glyph : Glyph} {rest : Text}
    (noReturn : (glyph :: rest).getLast? ≠ some (.scalar '\r')) :
    rest.getLast? ≠ some (.scalar '\r') := by
  intro isReturn
  rw [List.getLast?_cons, isReturn] at noReturn
  exact noReturn rfl

/-- A line that does not end with a carriage return is empty or takes room. So where no units are
wanted any more, a count stops at once, and not in front of returns further back. -/
theorem units_pos {line : Text} (nonempty : line ≠ [])
    (noReturn : line.getLast? ≠ some (.scalar '\r')) : 0 < line.units := by
  induction line with
  | nil => exact absurd rfl nonempty
  | cons glyph rest inductionHypothesis =>
    by_cases isReturn : glyph = .scalar '\r'
    · subst isReturn
      rw [units_return]
      apply inductionHypothesis _ (noReturn_of_cons noReturn)
      rintro rfl
      exact noReturn rfl
    · rw [units_cons isReturn]
      exact Nat.add_pos_left glyph.units16_pos _

/-- The line that is begun holds no newline, since it starts behind the last one. -/
theorem newline_notMem_begunLine (text : Text) : .scalar '\n' ∉ text.begunLine := by
  intro member
  simpa using List.mem_rtakeWhile_imp member

/-- A text consists of whole lines and of the line that is begun. All its newlines are in the whole
lines, so these have as many as the text. -/
theorem exists_wholeLines (text : Text) :
    ∃ earlier : Text, text = earlier ++ text.begunLine ∧ earlier.WholeLines ∧
      earlier.count (.scalar '\n') = text.count (.scalar '\n') := by
  have parts : text.rdropWhile (· ≠ .scalar '\n') ++ text.begunLine = text :=
    List.rdropWhile_append_rtakeWhile
  refine ⟨_, parts.symm, ?_, ?_⟩
  · intro glyph member
    obtain ⟨nonempty, isLast⟩ := List.mem_getLast?_eq_getLast member
    have stopped := List.rdropWhile_last_not _ _ nonempty
    rw [isLast]
    simpa using stopped
  · have noneLater := List.count_eq_zero_of_not_mem text.newline_notMem_begunLine
    conv_rhs => rw [← parts, List.count_append, noneLater, Nat.add_zero]

/-! ## From offsets to positions -/

/-- A walk within a line counts its code units and stays on the line. It is taken at exactly the
bytes of the line, so it ends where the line does, whatever follows. -/
theorem positionFrom_line {line : Text} (sameLine : .scalar '\n' ∉ line) (number character : Nat)
    (rest : Text) :
    positionFrom number character line.width (line ++ rest) =
      ⟨number, (character + line.units : Nat)⟩ := by
  induction line generalizing character with
  | nil => cases rest <;> rfl
  | cons glyph line inductionHypothesis =>
    rw [List.mem_cons, not_or] at sameLine
    obtain ⟨noNewline, others⟩ := sameLine
    have walked : glyph.width + width line ≠ 0 := by
      have := glyph.width_pos
      omega
    rw [List.cons_append, width_cons, positionFrom, if_neg walked, if_neg (Ne.symm noNewline),
      Nat.add_sub_cancel_left]
    split
    · rename_i isReturn
      rw [inductionHypothesis others, isReturn, units_return]
    · rename_i noReturn
      rw [inductionHypothesis others, units_cons noReturn, Nat.add_assoc]

/-- Whole lines are none, or what stands in front of a newline and that newline. The laws for one
newline thereby become laws for whole lines. -/
theorem WholeLines.eq_nil_or {earlier : Text} (whole : earlier.WholeLines) :
    earlier = [] ∨ ∃ before : Text, earlier = before ++ [.scalar '\n'] := by
  rcases List.eq_nil_or_concat' earlier with isEmpty | ⟨before, glyph, rfl⟩
  · exact .inl isEmpty
  · have newline := whole glyph (by simp)
    exact .inr ⟨before, by rw [newline]⟩

/-- A walk over a newline starts anew behind it, wherever in a line it has begun: what was counted
of the line is forgotten, and only the newlines on the way remain. -/
theorem positionFrom_newline (before : Text) (number character left : Nat) (rest : Text) :
    positionFrom number character (before.width + 1 + left) (before ++ .scalar '\n' :: rest) =
      positionFrom (number + before.count (.scalar '\n') + 1) 0 left rest := by
  induction before generalizing number character with
  | nil =>
    rw [List.nil_append, positionFrom, if_neg (by omega), if_pos rfl, Glyph.width_newline,
      width_nil, Nat.zero_add, Nat.add_sub_cancel_left, List.count_nil, Nat.add_zero]
  | cons glyph before inductionHypothesis =>
    have behind : glyph.width + width before + 1 + left - glyph.width =
        width before + 1 + left := by omega
    rw [List.cons_append, width_cons, positionFrom, if_neg (by omega), behind, List.count_cons]
    split
    · rename_i newline
      rw [inductionHypothesis, if_pos (beq_iff_eq.mpr newline), Nat.add_right_comm number,
        Nat.add_assoc number]
    · rename_i noNewline
      simp only [beq_iff_eq, noNewline, if_false, Nat.add_zero, inductionHypothesis, ite_self]

/-- A walk over whole lines starts anew behind them, on the line whose number is that of their
newlines. -/
theorem positionFrom_wholeLines {earlier : Text} (whole : earlier.WholeLines) (left : Nat)
    (rest : Text) :
    positionFrom 0 0 (earlier.width + left) (earlier ++ rest) =
      positionFrom (earlier.count (.scalar '\n')) 0 left rest := by
  rcases whole.eq_nil_or with rfl | ⟨before, rfl⟩
  · rw [width_nil, Nat.zero_add]
    rfl
  · rw [width_append, width_cons, width_nil, Glyph.width_newline, List.append_assoc,
      List.singleton_append, positionFrom_newline, List.count_append, List.count_singleton_self,
      Nat.zero_add]

/-- The position behind the first part of a text: how many newlines it holds, and how much room is
taken behind the last of them.

Proof: the part falls into whole lines and the line that is begun. The walk starts anew behind the
former and counts the units of the latter. -/
theorem positionOf_width (before after : Text) :
    (before ++ after).positionOf before.width =
      ⟨before.count (.scalar '\n'), before.begunLine.units⟩ := by
  obtain ⟨earlier, parts, whole, newlines⟩ := before.exists_wholeLines
  have behind : (earlier ++ (before.begunLine ++ after)).positionOf
      (earlier.width + before.begunLine.width : Nat) =
        ⟨earlier.count (.scalar '\n'), before.begunLine.units⟩ := by
    rw [positionOf, Int.toNat_natCast, positionFrom_wholeLines whole,
      positionFrom_line before.newline_notMem_begunLine, Nat.zero_add]
  rwa [← List.append_assoc, ← width_append, ← parts, newlines] at behind

/-! ## From positions to offsets -/

/-- The line behind a newline is found, and it starts behind that newline. The number that is looked
for is the one that a walk would give it. -/
theorem fromLine?_newline (before : Text) (offset : Nat) (rest : Text) :
    fromLine? offset (before.count (.scalar '\n') + 1) (before ++ .scalar '\n' :: rest) =
      some (offset + before.width + 1, rest) := by
  induction before generalizing offset with
  | nil =>
    rw [List.count_nil, List.nil_append, fromLine?, if_pos rfl, fromLine?, Glyph.width_newline,
      width_nil, Nat.add_zero]
  | cons glyph before inductionHypothesis =>
    rw [List.cons_append, fromLine?, List.count_cons, width_cons, ← Nat.add_assoc offset]
    split
    · rename_i newline
      rw [if_pos (beq_iff_eq.mpr newline), inductionHypothesis]
    · rename_i noNewline
      rw [if_neg (mt beq_iff_eq.mp noNewline), Nat.add_zero, inductionHypothesis]

/-- The line behind whole lines is found, at the offset at which they end, with all that follows
them. -/
theorem fromLine?_wholeLines {earlier : Text} (whole : earlier.WholeLines) (rest : Text) :
    fromLine? 0 (earlier.count (.scalar '\n')) (earlier ++ rest) = some (earlier.width, rest) := by
  rcases whole.eq_nil_or with rfl | ⟨before, rfl⟩
  · rw [List.count_nil, fromLine?, width_nil, List.nil_append]
  · rw [width_append, width_cons, width_nil, Glyph.width_newline, List.append_assoc,
      List.singleton_append, List.count_append, List.count_singleton_self, fromLine?_newline,
      Nat.zero_add, Nat.add_zero]

/-- Positions of the line behind whole lines are found by counting units from its start on. The
number of the line is never negative here, so the case of lines in front of the text does not arise.
-/
theorem offsetOf_line {earlier : Text} (whole : earlier.WholeLines) (character : Int)
    (rest : Text) :
    (earlier ++ rest).offsetOf ⟨earlier.count (.scalar '\n'), character⟩ =
      earlier.width + bytesBefore character rest := by
  rw [offsetOf, if_neg (Int.not_lt.mpr (Int.natCast_nonneg _)), Int.toNat_natCast,
    fromLine?_wholeLines whole]

/-- Units that a line does not use up are counted behind it. The line must not end with a carriage
return: if its units are all that is wanted, the count stops in front of such a return. -/
theorem bytesBefore_append {line : Text} (sameLine : .scalar '\n' ∉ line)
    (noReturn : line.getLast? ≠ some (.scalar '\r')) {wanted : Int} (enough : line.units ≤ wanted)
    (rest : Text) :
    bytesBefore wanted (line ++ rest) = line.width + bytesBefore (wanted - line.units) rest := by
  induction line generalizing wanted with
  | nil => simp
  | cons glyph line inductionHypothesis =>
    rw [List.mem_cons, not_or] at sameLine
    obtain ⟨noNewline, others⟩ := sameLine
    have room := units_pos (List.cons_ne_nil glyph line) noReturn
    have further := noReturn_of_cons noReturn
    rw [List.cons_append, bytesBefore, if_neg (by omega), if_neg (Ne.symm noNewline), width_cons,
      Nat.add_assoc]
    split
    · rename_i isReturn
      rw [isReturn, units_return] at enough ⊢
      rw [inductionHypothesis others further enough]
    · rename_i isOther
      rw [units_cons isOther] at enough ⊢
      rw [inductionHypothesis others further (by omega)]
      congr 3
      omega

/-- Nothing stands before no unit, not even a carriage return, although it takes no room. -/
theorem bytesBefore_zero (text : Text) : bytesBefore 0 text = 0 := by
  cases text <;> rfl

/-- The units behind the last newline lead back to where they were counted.

Proof: the line of that number starts behind the whole lines, and counting its units takes exactly
the line that is begun, which does not end with a carriage return. -/
theorem offsetOf_width {before : Text} (noReturn : before.getLast? ≠ some (.scalar '\r'))
    (after : Text) :
    (before ++ after).offsetOf ⟨before.count (.scalar '\n'), before.begunLine.units⟩ =
      before.width := by
  obtain ⟨earlier, parts, whole, newlines⟩ := before.exists_wholeLines
  have lineNoReturn : before.begunLine.getLast? ≠ some (.scalar '\r') := by
    intro isReturn
    rw [parts, List.getLast?_append, isReturn] at noReturn
    exact noReturn rfl
  have behind := offsetOf_line whole before.begunLine.units (before.begunLine ++ after)
  rwa [bytesBefore_append before.newline_notMem_begunLine lineNoReturn (Int.le_refl _),
    Int.sub_self, bytesBefore_zero, Nat.add_zero, ← List.append_assoc, ← width_append, ← parts,
    newlines] at behind

/-! ## Carriage returns at the end -/

/-- The carriage returns with which a text ends. -/
def closingReturns (text : Text) : Text :=
  text.rtakeWhile (· = .scalar '\r')

/-- A text consists of what does not end with a carriage return, and of its closing returns. The
former ends at a place. -/
theorem exists_body (text : Text) :
    ∃ body : Text, text = body ++ text.closingReturns ∧ body.getLast? ≠ some (.scalar '\r') := by
  refine ⟨text.rdropWhile (· = .scalar '\r'), List.rdropWhile_append_rtakeWhile.symm, ?_⟩
  intro isReturn
  obtain ⟨nonempty, isLast⟩ := List.mem_getLast?_eq_getLast isReturn
  have stopped := List.rdropWhile_last_not _ _ nonempty
  rw [← isLast] at stopped
  exact stopped rfl

/-- Closing returns are carriage returns and nothing else. -/
theorem eq_return_of_mem_closingReturns {text : Text} {glyph : Glyph}
    (member : glyph ∈ text.closingReturns) : glyph = .scalar '\r' := by
  simpa using List.mem_rtakeWhile_imp member

/-- There are no closing returns exactly if the text does not end with one, which is the condition
on a place. -/
theorem closingReturns_eq_nil_iff (text : Text) :
    text.closingReturns = [] ↔ text.getLast? ≠ some (.scalar '\r') := by
  rw [closingReturns, List.rtakeWhile_eq_nil_iff]
  constructor
  · intro stops isReturn
    obtain ⟨nonempty, isLast⟩ := List.mem_getLast?_eq_getLast isReturn
    exact stops nonempty (decide_eq_true isLast.symm)
  · intro ends nonempty isReturn
    apply ends
    rw [List.getLast?_eq_some_getLast nonempty, of_decide_eq_true isReturn]

/-- Carriage returns take no room, however many close a text. So the position behind them is the
position in front of them. -/
theorem units_closingReturns (text : Text) : text.closingReturns.units = 0 := by
  have returns : ∀ glyph ∈ text.closingReturns, glyph = .scalar '\r' :=
    fun _ => eq_return_of_mem_closingReturns
  generalize text.closingReturns = line at returns
  induction line with
  | nil => rfl
  | cons glyph rest inductionHypothesis =>
    obtain ⟨first, others⟩ := List.forall_mem_cons.mp returns
    rw [first, units_return, inductionHypothesis others]

/-- A line that is begun goes on with what holds no newline: the last newline stays the last one. -/
theorem begunLine_append {line : Text} (sameLine : .scalar '\n' ∉ line) (text : Text) :
    (text ++ line).begunLine = text.begunLine ++ line := by
  have goesOn : ∀ glyph ∈ line.reverse, decide (glyph ≠ .scalar '\n') = true := by
    intro glyph member
    refine decide_eq_true ?_
    rintro rfl
    exact sameLine (List.mem_reverse.mp member)
  rw [begunLine, List.rtakeWhile, List.reverse_append, List.takeWhile_append_of_pos goesOn,
    List.reverse_append, List.reverse_reverse]
  rfl

/-- The position behind a text leads to the place in front of the closing returns of that text. The
returns hold no newline and take no room, so the position is the same in front of them, and there it
is that of a place. -/
theorem offsetOf_positionOf_width {before body : Text}
    (parts : before = body ++ before.closingReturns)
    (noReturn : body.getLast? ≠ some (.scalar '\r')) (after : Text) :
    (before ++ after).offsetOf ((before ++ after).positionOf before.width) = body.width := by
  have sameLine : .scalar '\n' ∉ before.closingReturns := by
    intro member
    cases eq_return_of_mem_closingReturns member
  have newlines : before.count (.scalar '\n') = body.count (.scalar '\n') := by
    rw [parts, List.count_append, List.count_eq_zero_of_not_mem sameLine, Nat.add_zero]
  have units : before.begunLine.units = body.begunLine.units := by
    rw [parts, begunLine_append sameLine, units_append, units_closingReturns, Nat.add_zero]
  have offset := offsetOf_width noReturn (before.closingReturns ++ after)
  rw [← List.append_assoc, ← parts] at offset
  rw [positionOf_width, newlines, units, offset]

/-! ## Ends of lines -/

/-- How a line ends. -/
inductive LineEnd where
  /-- With a newline alone. -/
  | newline
  /-- With a carriage return and a newline. -/
  | returnNewline
  /-- With the text. -/
  | textEnd
  deriving DecidableEq

/-- What ends a line. -/
def LineEnd.glyphs : LineEnd → Text
  | .newline => [.scalar '\n']
  | .returnNewline => [.scalar '\r', .scalar '\n']
  | .textEnd => []

/-- A line of a text, whose only carriage return may be the one that ends it. -/
structure Line (text : Text) where
  /-- The lines before it. -/
  earlier : Text
  /-- The line without its end. -/
  content : Text
  /-- How it ends. -/
  ending : LineEnd
  /-- What follows its end. -/
  later : Text
  /-- These are the parts of the text. -/
  parts : text = earlier ++ (content ++ (ending.glyphs ++ later))
  /-- The line starts the text or stands behind a newline. -/
  whole : earlier.WholeLines
  /-- It ends at the first newline. -/
  sameLine : .scalar '\n' ∉ content
  /-- No carriage return stands elsewhere in it. -/
  noReturn : .scalar '\r' ∉ content
  /-- Nothing follows the end of the text. -/
  noLater : ending = .textEnd → later = []

namespace Line

variable {text : Text}

/-- The number of a line, from zero. -/
def number (line : text.Line) : Nat :=
  line.earlier.count (.scalar '\n')

/-- The offset in front of the end of a line. -/
def stop (line : text.Line) : Nat :=
  line.earlier.width + line.content.width

/-- Units that a line does not use up pass a carriage return and nothing else: the count stops at
the newline or at the end of the text. -/
theorem bytesBefore_ending (line : text.Line) {unused : Int} (positive : 0 < unused) :
    bytesBefore unused (line.ending.glyphs ++ line.later) =
      if line.ending = .returnNewline then 1 else 0 := by
  have remains : ¬ unused ≤ 0 := Int.not_le.mpr positive
  cases isEnding : line.ending with
  | newline => simp [LineEnd.glyphs, bytesBefore]
  | returnNewline =>
    have narrow : (Glyph.scalar '\r').width = 1 := rfl
    simp [LineEnd.glyphs, bytesBefore, remains, narrow]
  | textEnd => simp [LineEnd.glyphs, line.noLater isEnding, bytesBefore]

/-- Positions at the end of a line and past it. The line is used up first; then a return that ends
it is passed if any unit is left, and at the very end of the line none is. -/
theorem offsetOf_past (line : text.Line) {character : Int}
    (pastEnd : line.content.units ≤ character) :
    text.offsetOf ⟨line.number, character⟩ =
      if line.ending = .returnNewline ∧ line.content.units < character then line.stop + 1
      else line.stop := by
  have noReturn : line.content.getLast? ≠ some (.scalar '\r') :=
    fun isReturn => line.noReturn (List.mem_of_getLast? isReturn)
  have counted := offsetOf_line line.whole character
    (line.content ++ (line.ending.glyphs ++ line.later))
  rw [← line.parts, bytesBefore_append line.sameLine noReturn pastEnd, ← Nat.add_assoc] at counted
  rw [number, counted, stop]
  rcases Int.lt_or_eq_of_le pastEnd with further | atEnd
  · rw [line.bytesBefore_ending (Int.sub_pos_of_lt further)]
    simp only [further, and_true]
    split
    · rfl
    · rfl
  · rw [← atEnd, Int.sub_self, bytesBefore_zero]
    simp

end Line

/-- A position past the end of a line is the end of the line, unless the line ends with a carriage
return and a newline: then it falls between the two. -/
theorem past_line_end_iff {text : Text} (line : text.Line) {character : Int}
    (pastEnd : line.content.units ≤ character) :
    text.offsetIn text.lineStarts ⟨line.number, line.content.units⟩ = line.stop ∧
      text.offsetIn text.lineStarts ⟨line.number, character⟩ =
        (if line.ending = .returnNewline ∧ line.content.units < character then line.stop + 1
        else line.stop) ∧
      (text.offsetIn text.lineStarts ⟨line.number, character⟩ =
          text.offsetIn text.lineStarts ⟨line.number, line.content.units⟩ ↔
        line.ending ≠ .returnNewline ∨ character = line.content.units) := by
  have atEnd : text.offsetIn text.lineStarts ⟨line.number, line.content.units⟩ = line.stop := by
    rw [offsetIn_lineStarts, line.offsetOf_past (Int.le_refl _), if_neg]
    exact fun further => Int.lt_irrefl _ further.2
  have further := (offsetIn_lineStarts text ⟨line.number, character⟩).trans
    (line.offsetOf_past pastEnd)
  refine ⟨atEnd, further, ?_⟩
  rw [atEnd, further]
  grind

/-- A line with a code point above the basic plane, ended by the text. -/
theorem past_end_of_last_line :
    let text := Text.ofString "x\r\ny😀"
    let line : text.Line :=
      ⟨.ofString "x\r\n", .ofString "y😀", .textEnd, [], rfl, by decide, by decide, by decide,
        fun _ => rfl⟩
    line.content.units = 3 ∧ text.offsetIn text.lineStarts ⟨1, 9⟩ = 8 := by
  intro text line
  refine ⟨by decide, ?_⟩
  exact (past_line_end_iff line (by decide)).2.1

/-- Past the end of a line that ends with a carriage return and a newline there is a position that
is not the end of the line. -/
theorem past_end_within_return_newline :
    ¬ ∀ (text : Text) (line : text.Line) (character : Int), line.content.units ≤ character →
      text.offsetIn text.lineStarts ⟨line.number, character⟩ =
        text.offsetIn text.lineStarts ⟨line.number, line.content.units⟩ := by
  intro clamped
  have same := clamped (.ofString "ab\r\nc")
    ⟨[], .ofString "ab", .returnNewline, .ofString "c", rfl, by decide, by decide, by decide,
      by decide⟩ 3 (by decide)
  exact absurd same (by decide)

/-! ## Places -/

/-- An offset between two glyphs and not directly behind a carriage return. -/
structure IsPlace (text : Text) (offset : Nat) : Prop where
  /-- The glyphs before the offset end at it. -/
  boundary : (text.upTo offset).width = offset
  /-- The last of them is no carriage return. -/
  noReturn : (text.upTo offset).getLast? ≠ some (.scalar '\r')

namespace IsPlace

variable {text : Text} {bytes : List UInt8} {offset : Nat}

/-- The position of a place, by the glyphs before it: their newlines, and the units behind the last
of these. -/
theorem positionOf_eq (place : text.IsPlace offset) :
    text.positionOf offset =
      ⟨(text.upTo offset).count (.scalar '\n'), (text.upTo offset).begunLine.units⟩ := by
  have behind := positionOf_width (text.upTo offset) (text.past offset)
  rwa [upTo_append_past, place.boundary] at behind

/-- The position of a place leads back to it. That no carriage return stands directly in front of it
is used here, since the units do not tell such a place from the one before the return. -/
theorem offsetOf_positionOf (place : text.IsPlace offset) :
    text.offsetOf (text.positionOf offset) = offset := by
  have behind := offsetOf_width place.noReturn (text.past offset)
  rwa [upTo_append_past, place.boundary, ← place.positionOf_eq] at behind

/-- The glyphs before a place are decoded from the bytes before it. An offset inside of a glyph
would cut it, and its bytes would be decoded as strays. -/
theorem decode_take_eq (place : (decode bytes).IsPlace offset) :
    decode (bytes.take offset) = (decode bytes).upTo offset := by
  have decoded := decode_take (upTo_append_past offset (decode bytes)).symm
  rwa [place.boundary] at decoded

/-- The glyphs behind a place are decoded from the bytes behind it, because a place falls between
two glyphs. -/
theorem decode_drop_eq (place : (decode bytes).IsPlace offset) :
    decode (bytes.drop offset) = (decode bytes).past offset := by
  have decoded := decode_drop (upTo_append_past offset (decode bytes)).symm
  rwa [place.boundary] at decoded

end IsPlace

end Text

namespace Server

open Text

/-- A change of the range between two places replaces what stands between them: both ends of the
range lead back to the places they were made from. -/
theorem Change.apply_between {text : Text} {start stop : Nat} (starts : text.IsPlace start)
    (stops : text.IsPlace stop) (ordered : start ≤ stop) (inserted : Text) :
    Change.apply text (.part (text.rangeIn text.lineStarts start stop) inserted) =
      text.upTo start ++ inserted ++ text.past stop := by
  simp only [apply, rangeIn, positionIn_lineStarts, starts.offsetOf_positionOf,
    stops.offsetOf_positionOf, splice, Nat.min_eq_left ordered, Nat.max_eq_right ordered]

/-- A place has the position that the newlines before it and the units behind the last of them
give, this position leads back to it, and a change between two places leaves the bytes before the
first and behind the second as they are. -/
theorem positions_lead_back (bytes : List UInt8) :
    let text := decode bytes
    (∀ offset, text.IsPlace offset →
      let before := decode (bytes.take offset)
      let position : Position := ⟨before.count (.scalar '\n'), before.begunLine.units⟩
      text.positionIn text.lineStarts offset = position ∧
        text.offsetIn text.lineStarts position = offset) ∧
    ∀ (workspace : Workspace) (uri : String), workspace.textOf? uri = some text →
      ∀ start stop, text.IsPlace start → text.IsPlace stop → start ≤ stop →
        ∀ inserted, ∃ changed,
          (workspace.notified uri
              [.part (text.rangeIn text.lineStarts start stop) inserted]).textOf? uri =
            some changed ∧
          changed.bytes = bytes.take start ++ inserted.bytes ++ bytes.drop stop := by
  intro text
  constructor
  · intro offset place
    have position := place.positionOf_eq
    rw [← place.decode_take_eq] at position
    refine ⟨(text.positionIn_lineStarts offset).trans position, ?_⟩
    rw [offsetIn_lineStarts, ← position]
    exact place.offsetOf_positionOf
  · intro workspace uri opened start stop starts stops ordered inserted
    refine ⟨text.upTo start ++ inserted ++ text.past stop, ?_, ?_⟩
    · rw [Workspace.textOf?_notified opened, Change.applyAll_singleton,
        Change.apply_between starts stops ordered]
    · calc (text.upTo start ++ inserted ++ text.past stop).bytes
          = (text.upTo start).bytes ++ inserted.bytes ++ (text.past stop).bytes := by
            simp only [Text.bytes, List.flatMap_append]
        _ = bytes.take start ++ inserted.bytes ++ bytes.drop stop := by
            rw [← starts.decode_take_eq, ← stops.decode_drop_eq, Text.bytes_decode,
              Text.bytes_decode]

/-- A change from behind a code point above the basic plane, over an empty line, to behind a stray
byte. The line in front of it ends with a carriage return. -/
theorem change_lands_between_places :
    let bytes : List UInt8 := [97, 13, 10, 0xF0, 0x9F, 0x98, 0x80, 10, 10, 0xFF, 98]
    let text := decode bytes
    let workspace := Workspace.empty.insert "a" (.ofText text)
    text.IsPlace 7 ∧ text.IsPlace 10 ∧
      text.positionIn text.lineStarts 7 = ⟨1, 2⟩ ∧ text.positionIn text.lineStarts 10 = ⟨3, 1⟩ ∧
      ∃ changed,
        (workspace.notified "a" [.part ⟨⟨1, 2⟩, ⟨3, 1⟩⟩ (.ofString "é")]).textOf? "a" =
          some changed ∧
        changed.bytes = [97, 13, 10, 0xF0, 0x9F, 0x98, 0x80, 0xC3, 0xA9, 98] := by
  intro bytes text workspace
  have starts : text.IsPlace 7 := ⟨by decide, by decide⟩
  have stops : text.IsPlace 10 := ⟨by decide, by decide⟩
  obtain ⟨leadBack, lands⟩ := positions_lead_back bytes
  have startsAt : text.positionIn text.lineStarts 7 = ⟨1, 2⟩ :=
    (leadBack 7 starts).1.trans (by decide +kernel)
  have stopsAt : text.positionIn text.lineStarts 10 = ⟨3, 1⟩ :=
    (leadBack 10 stops).1.trans (by decide +kernel)
  have changes := lands workspace "a" rfl 7 10 starts stops (by decide) (.ofString "é")
  refine ⟨starts, stops, startsAt, stopsAt, ?_⟩
  rw [← startsAt, ← stopsAt]
  exact changes

end Server

end TermLang
