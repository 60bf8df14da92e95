import TermLang.Server.Position

/-!
# Positions by the starts of lines

Positions and offsets are turned into each other in two ways: by a walk over the text from its
start, and by the offsets at which the lines start, which a document keeps beside its text. As long
as the offsets are those of the text, the two ways agree, for offsets and positions inside and
outside of the text.

Both inductions run over the text from left to right, with the offset at which it starts as a
variable. Offsets of another text are not covered; with them the two ways part.
-/

namespace TermLang.Text

open Server (Position)

/-- Nothing is taken away in front of the start: the bytes to take are none, so the text stays. -/
@[simp]
theorem past_zero (text : Text) : text.past 0 = text := past_width_append [] text

/-- A glyph is taken away with all its bytes, and as many fewer are to be taken from the rest. -/
theorem past_cons {glyph : Glyph} {offset : Nat} (inside : glyph.width ≤ offset) (rest : Text) :
    past offset (glyph :: rest) = rest.past (offset - glyph.width) := by
  rw [past, if_pos inside]

/-! ## From positions to offsets -/

/-- The lines that the walk finds start at the offsets in the list. Both count a line at each
newline, and the line on which the walk starts is the first in the list. -/
theorem getElem?_laterLines (offset line : Nat) (text : Text) :
    (offset :: laterLines offset text)[line]? = (fromLine? offset line text).map (·.1) := by
  induction text generalizing offset line with
  | nil =>
    cases line with
    | zero => rfl
    | succ line => rfl
  | cons glyph rest inductionHypothesis =>
    cases line with
    | zero => rfl
    | succ line =>
      rw [List.getElem?_cons_succ, laterLines, fromLine?]
      split
      · exact inductionHypothesis _ line
      · exact inductionHypothesis _ (line + 1)

/-- What the walk finds from the start of a line on is the text behind that offset. The list of
offsets does not keep the text of a line, so it is found again by taking bytes away. -/
theorem past_of_fromLine? {offset line start : Nat} {text rest : Text}
    (found : fromLine? offset line text = some (start, rest)) :
    offset ≤ start ∧ text.past (start - offset) = rest := by
  induction text generalizing offset line with
  | nil =>
    cases line with
    | zero =>
      cases found
      exact ⟨Nat.le_refl _, rfl⟩
    | succ line => cases found
  | cons glyph others inductionHypothesis =>
    cases line with
    | zero =>
      cases found
      rw [Nat.sub_self]
      exact ⟨Nat.le_refl _, past_zero _⟩
    | succ line =>
      have further : offset + glyph.width ≤ start ∧
          past (start - (offset + glyph.width)) others = rest := by
        rw [fromLine?] at found
        split at found
        · exact inductionHypothesis found
        · exact inductionHypothesis found
      obtain ⟨behind, isRest⟩ := further
      refine ⟨by omega, ?_⟩
      rw [past_cons (by omega), ← isRest]
      congr 1
      omega

/-- By its own lines, a text gives every position the offset that the walk gives it, also a position
on a line that does not exist or in front of the text. -/
theorem offsetIn_lineStarts (text : Text) (position : Position) :
    text.offsetIn text.lineStarts position = text.offsetOf position := by
  unfold offsetIn offsetOf
  split
  · rfl
  · rw [lineStarts, getElem?_laterLines]
    cases found : fromLine? 0 position.line.toNat text with
    | none => rfl
    | some line =>
      obtain ⟨start, rest⟩ := line
      obtain ⟨_, isRest⟩ := past_of_fromLine? found
      rw [Nat.sub_zero] at isRest
      simp only [Option.map_some, isRest]

/-! ## From offsets to positions -/

/-- Later lines start behind the start of the text, because the newline in front of them takes a
byte. -/
theorem lt_of_mem_laterLines {offset start : Nat} {text : Text}
    (member : start ∈ laterLines offset text) : offset < start := by
  induction text generalizing offset with
  | nil => cases member
  | cons glyph rest inductionHypothesis =>
    have wide := glyph.width_pos
    rw [laterLines] at member
    split at member
    · rcases List.mem_cons.mp member with isNext | later
      · omega
      · have := inductionHypothesis later
        omega
    · have := inductionHypothesis member
      omega

/-- Bytes behind the end of the text are not walked, so the number of bytes may be cut down to those
that there are. The walk by lines does that first, and this one does not. -/
theorem positionFrom_min (line character left : Nat) (text : Text) :
    positionFrom line character (min left text.width) text =
      positionFrom line character left text := by
  induction text generalizing line character left with
  | nil => simp [positionFrom]
  | cons glyph rest inductionHypothesis =>
    have wide := glyph.width_pos
    have further : min left (glyph.width + width rest) - glyph.width =
        min (left - glyph.width) (width rest) := by omega
    have stays : min left (glyph.width + width rest) = 0 ↔ left = 0 := by omega
    simp only [positionFrom, width_cons, stays, further, inductionHypothesis]

/-- The starts of the lines that begin among some bytes of a text. -/
def reachedLines (offset left : Nat) (text : Text) : List Nat :=
  (laterLines offset text).filter (· ≤ offset + left)

/-- The start of a reached line lies behind the start of the text and among the bytes. -/
theorem mem_reachedLines {offset left start : Nat} {text : Text}
    (member : start ∈ reachedLines offset left text) : offset < start ∧ start ≤ offset + left := by
  obtain ⟨later, reached⟩ := List.mem_filter.mp member
  exact ⟨lt_of_mem_laterLines later, of_decide_eq_true reached⟩

/-- No line begins among no bytes, since a line begins behind at least one. -/
theorem reachedLines_zero (offset : Nat) (text : Text) : reachedLines offset 0 text = [] := by
  rw [List.eq_nil_iff_forall_not_mem]
  intro start member
  have := mem_reachedLines member
  omega

/-- Behind a glyph the same lines begin, counted from there. The bytes left are fewer by the
glyph's, cut off at zero; no line is lost by that, as all of them begin behind the glyph. -/
theorem reachedLines_behind (offset left : Nat) (glyph : Glyph) (rest : Text) :
    (laterLines (offset + glyph.width) rest).filter (· ≤ offset + left) =
      reachedLines (offset + glyph.width) (left - glyph.width) rest := by
  apply List.filter_congr
  intro start member
  have := lt_of_mem_laterLines member
  simp only [decide_eq_decide]
  omega

/-- A line begins behind a newline, if at least one byte is walked. That newline takes one byte, so
the line is then among the bytes. -/
theorem reachedLines_newline {glyph : Glyph} (newline : glyph = .scalar '\n') {left : Nat}
    (walked : left ≠ 0) (offset : Nat) (rest : Text) :
    reachedLines offset left (glyph :: rest) =
      (offset + glyph.width) :: reachedLines (offset + glyph.width) (left - glyph.width) rest := by
  have narrow : glyph.width = 1 := by
    rw [newline]
    rfl
  have here : decide (offset + glyph.width ≤ offset + left) = true := by
    rw [decide_eq_true_eq]
    omega
  rw [reachedLines, laterLines, if_pos newline, List.filter_cons, if_pos here, reachedLines_behind]

/-- No line begins behind any other glyph; a return alone does not end a line. -/
theorem reachedLines_other {glyph : Glyph} (sameLine : glyph ≠ .scalar '\n') (offset left : Nat)
    (rest : Text) :
    reachedLines offset left (glyph :: rest) =
      reachedLines (offset + glyph.width) (left - glyph.width) rest := by
  rw [reachedLines, laterLines, if_neg sameLine, reachedLines_behind]

/-- What is walked of a line that begins behind a glyph does not depend on whether the glyph is
counted: the line starts at the same place of the text, and as many bytes are left from there. -/
theorem unitsBefore_behind {offset left start : Nat} {glyph : Glyph} {rest : Text}
    (member : start ∈ reachedLines (offset + glyph.width) (left - glyph.width) rest) :
    unitsBefore (offset + glyph.width + (left - glyph.width) - start)
        (past (start - (offset + glyph.width)) rest) =
      unitsBefore (offset + left - start) (past (start - offset) (glyph :: rest)) := by
  obtain ⟨further, reached⟩ := mem_reachedLines member
  rw [past_cons (by omega)]
  congr 2
  · omega
  · omega

/-- The position at the end of a walk, by the lines that begin on the way: it is on the last of
them, or on the line on which the walk has started if there is none. -/
def positionBy (lines : List Nat) (offset line character left : Nat) (text : Text) : Position :=
  match lines.getLast? with
  | none => ⟨line, (character + unitsBefore left text : Nat)⟩
  | some start => ⟨(line + lines.length : Nat),
      unitsBefore (offset + left - start) (text.past (start - offset))⟩

/-- A walk over a newline ends where the walk from the next line ends. If no later line is reached,
the next line is the last one and its units are counted from its start; otherwise the last line is
the same on both sides. -/
theorem positionBy_newline {offset left : Nat} {glyph : Glyph} {rest : Text}
    (line character : Nat) :
    positionBy ((offset + glyph.width) ::
        reachedLines (offset + glyph.width) (left - glyph.width) rest)
        offset line character left (glyph :: rest) =
      positionBy (reachedLines (offset + glyph.width) (left - glyph.width) rest)
        (offset + glyph.width) (line + 1) 0 (left - glyph.width) rest := by
  rw [positionBy, positionBy, List.getLast?_cons]
  cases isLast : (reachedLines (offset + glyph.width) (left - glyph.width) rest).getLast? with
  | none =>
    have noneLater := List.getLast?_eq_none_iff.mp isLast
    have fromNext : offset + left - (offset + glyph.width) = left - glyph.width := by omega
    have onlyRest : past (offset + glyph.width - offset) (glyph :: rest) = rest := by
      rw [Nat.add_sub_cancel_left, past_cons (Nat.le_refl _), Nat.sub_self, past_zero]
    simp only [Option.getD_none, noneLater, List.length_singleton, fromNext, onlyRest, Nat.zero_add]
  | some start =>
    have units := unitsBefore_behind (List.mem_of_getLast? isLast)
    simp only [Option.getD_some, List.length_cons, units]
    congr 2
    omega

/-- A walk over any other glyph ends where the walk from behind it ends, if the glyph is counted.
Its units matter only if no line begins on the way. -/
theorem positionBy_other {offset left : Nat} {glyph : Glyph} {rest : Text} {units : Nat}
    (counted : unitsBefore left (glyph :: rest) = units + unitsBefore (left - glyph.width) rest)
    (line character : Nat) :
    positionBy (reachedLines (offset + glyph.width) (left - glyph.width) rest)
        offset line character left (glyph :: rest) =
      positionBy (reachedLines (offset + glyph.width) (left - glyph.width) rest)
        (offset + glyph.width) line (character + units) (left - glyph.width) rest := by
  rw [positionBy, positionBy]
  cases isLast : (reachedLines (offset + glyph.width) (left - glyph.width) rest).getLast? with
  | none => simp only [counted, Nat.add_assoc]
  | some start => simp only [unitsBefore_behind (List.mem_of_getLast? isLast)]

/-- The walk ends on the last line that begins on the way. The induction carries the offset at which
the walk starts, from which the starts of lines are counted.

Proof: a newline resets the units and starts a line, a return counts for nothing, and any other
glyph adds its units to the line on which the walk is. -/
theorem positionFrom_eq (offset line character left : Nat) (text : Text) :
    positionFrom line character left text =
      positionBy (reachedLines offset left text) offset line character left text := by
  induction text generalizing offset line character left with
  | nil => rfl
  | cons glyph rest inductionHypothesis =>
    by_cases nothing : left = 0
    · rw [nothing, reachedLines_zero, positionFrom, if_pos rfl]
      rfl
    rw [positionFrom, if_neg nothing]
    split
    · rename_i newline
      rw [reachedLines_newline newline nothing, positionBy_newline]
      exact inductionHypothesis _ _ _ _
    · rename_i sameLine
      rw [reachedLines_other sameLine]
      split
      · rename_i isReturn
        have counted : unitsBefore left (glyph :: rest) =
            0 + unitsBefore (left - glyph.width) rest := by
          rw [unitsBefore, if_neg nothing, if_neg sameLine, if_pos isReturn, Nat.zero_add]
        rw [positionBy_other counted]
        exact inductionHypothesis _ _ _ _
      · rename_i noReturn
        have counted : unitsBefore left (glyph :: rest) =
            glyph.units16 + unitsBefore (left - glyph.width) rest := by
          rw [unitsBefore, if_neg nothing, if_neg sameLine, if_neg noReturn]
        rw [positionBy_other counted]
        exact inductionHypothesis _ _ _ _

/-- By its own lines, a text gives every offset the position that the walk gives it, also an offset
in front of the text or behind it. The lines up to an offset always include the first, so the last
of them exists. -/
theorem positionIn_lineStarts (text : Text) (offset : Int) :
    text.positionIn text.lineStarts offset = text.positionOf offset := by
  rw [positionOf, ← positionFrom_min, positionFrom_eq 0, positionBy, positionIn, lineStarts,
    List.filter_cons, if_pos (decide_eq_true (Nat.zero_le _)), List.getLast?_cons, reachedLines,
    Nat.zero_add]
  cases isLast : ((laterLines 0 text).filter (· ≤ min offset.toNat text.width)).getLast? with
  | none =>
    simp only [List.getLast?_eq_none_iff.mp isLast, Option.getD_some, Option.getD_none,
      List.length_singleton, past_zero, Nat.sub_zero, Nat.zero_add]
    rfl
  | some start =>
    simp only [Option.getD_some, List.length_cons, Nat.sub_zero, Nat.zero_add]
    congr 1
    omega

end TermLang.Text
