import TermLang.Proofs.Reader.Offence

/-!
# Errors point at what they report

The invariant of the reader is the one that says what its state covers, with marks: every sign,
every open bracket and every open quote is marked by the text in front of it. An error is raised
long after its character was read, from a mark that the state has kept; since the text in front of a
character does not change when more is read, the mark still is the right one.

Dividing the source into lines turns a mark into a place within one line: the last line of the text
in front of the character is the part of its own line that stands in front of it. So the place lies
in the source, and the snippet of the error shows it unmoved.
-/

namespace TermLang

namespace Text

/-! ## Lines -/

/-- Two texts one behind the other: the last line of the first goes on with the first line of the
second. All other lines are kept. The induction is on the first text. -/
theorem lines_append (before after : List Char) :
    ∃ rows last first others, lines before = rows ++ [last] ∧ lines after = first :: others ∧
      lines (before ++ after) = rows ++ (last ++ first) :: others := by
  induction before with
  | nil =>
    obtain ⟨first, others, divided⟩ := List.exists_cons_of_ne_nil (lines_ne_nil after)
    exact ⟨[], [], first, others, rfl, divided, divided⟩
  | cons c rest inductionHypothesis =>
    obtain ⟨rows, last, first, others, restLines, afterLines, whole⟩ := inductionHypothesis
    by_cases newline : c = '\n'
    · refine ⟨[] :: rows, last, first, others, ?_, afterLines, ?_⟩
      · simp [lines, newline, restLines]
      · simp [lines, newline, whole]
    · cases rows with
      | nil =>
        refine ⟨[], c :: last, first, others, ?_, afterLines, ?_⟩
        · simp [lines, newline, restLines]
        · simp [lines, newline, whole]
      | cons row rows =>
        refine ⟨(c :: row) :: rows, last, first, others, ?_, afterLines, ?_⟩
        · simp [lines, newline, restLines]
        · simp [lines, newline, whole]

/-- A character within a line starts the first line of what it stands in front of. -/
theorem lines_cons {c : Char} (inline : c ≠ '\n') (after : List Char) :
    ∃ first others, lines (c :: after) = (c :: first) :: others := by
  obtain ⟨first, others, divided⟩ := List.exists_cons_of_ne_nil (lines_ne_nil after)
  exact ⟨first, others, by simp [lines, inline, divided]⟩

/-- There is one line more than there are newlines. So a source always has a line, and the last one
may be empty. -/
theorem length_lines (source : List Char) : (lines source).length = source.count '\n' + 1 := by
  induction source with
  | nil => rfl
  | cons c rest inductionHypothesis =>
    by_cases newline : c = '\n'
    · rw [lines, if_pos newline, List.length_cons, inductionHypothesis, newline,
        List.count_cons_self]
    · obtain ⟨first, others, divided⟩ := List.exists_cons_of_ne_nil (lines_ne_nil rest)
      rw [divided, List.length_cons] at inductionHypothesis
      rw [lines, if_neg newline, divided, List.length_cons, inductionHypothesis,
        List.count_cons_of_ne newline]

/-- The lines hold everything but the newlines. This is what the running column of the reader
counts, which is not set back at the end of a line. -/
theorem length_flatten_lines (source : List Char) :
    (lines source).flatten.length = source.countP (· ≠ '\n') := by
  induction source with
  | nil => rfl
  | cons c rest inductionHypothesis =>
    by_cases newline : c = '\n'
    · rw [lines, if_pos newline, List.flatten_cons, List.nil_append, inductionHypothesis,
        List.countP_cons_of_neg (by simp [newline])]
    · obtain ⟨first, others, divided⟩ := List.exists_cons_of_ne_nil (lines_ne_nil rest)
      rw [divided] at inductionHypothesis
      rw [lines, if_neg newline, divided, List.countP_cons_of_pos (by simp [newline]),
        ← inductionHypothesis]
      rfl

/-- The last line of a text. -/
def lastLine (text : List Char) : List Char :=
  (lines text).getLast (lines_ne_nil text)

/-- A character between two texts stands at a line and a column: the line is `row`, and the
character is found there. -/
structure StandsAt (before : List Char) (c : Char) (after : List Char) (line column : Nat)
    (row : List Char) : Prop where
  line_eq : line = (lines before).length
  line_pos : 1 ≤ line
  line_le : line ≤ (lines (before ++ c :: after)).length
  row_eq : (lines (before ++ c :: after))[line - 1]? = some row
  column_eq : column = (lastLine before).length + 1
  column_pos : 1 ≤ column
  column_le : column ≤ row.length
  char_eq : row[column - 1]? = some c

/-- A character within a line stands behind the last line of what is in front of it. That line goes
on with the character, so the row is the last line, the character, and what follows up to the next
newline. -/
theorem standsAt {c : Char} (inline : c ≠ '\n') (before after : List Char) :
    ∃ row, StandsAt before c after (lines before).length ((lastLine before).length + 1) row := by
  obtain ⟨rows, last, _, others, divided, divides, whole⟩ := lines_append before (c :: after)
  obtain ⟨first, _, starts⟩ := lines_cons inline after
  rw [starts] at divides
  cases divides
  have isLast : lastLine before = last := by simp [lastLine, divided]
  refine ⟨last ++ c :: first, rfl, ?_, ?_, ?_, rfl, by omega, ?_, ?_⟩
  · simp [divided]
  · simp [divided, whole]
  · simp [divided, whole]
  · simp [isLast]
  · simp [isLast]

/-- The running column of a mark less the lines before its own is the column within the line. The
two subtractions are done on machine words, but neither falls below zero. -/
theorem columnInLine_behind (before after : List Char) :
    ParseError.columnInLine (before ++ after) (Mark.behind before).line
      (Mark.behind before).column = (lastLine before).length + 1 := by
  obtain ⟨rows, last, first, others, divided, _, whole⟩ := lines_append before after
  have isLast : lastLine before = last := by simp [lastLine, divided]
  have line : (Mark.behind before).line = rows.length + 1 := by simp [Mark.behind, divided]
  have column : (Mark.behind before).column = rows.flatten.length + last.length + 1 := by
    simp [Mark.behind, divided]
  have earlier : (Number.wordBefore (rows.length + 1 : Nat) 1).toNat = rows.length := by
    rw [Number.wordBefore_of_le (by omega)]
    omega
  have rest : Number.wordBefore (rows.flatten.length + last.length + 1 : Nat) rows.flatten.length =
      last.length + 1 := by
    rw [Number.wordBefore_of_le (by omega)]
    omega
  rw [ParseError.columnInLine, line, column, whole, earlier, List.take_left, rest, isLast]

end Text

/-! ## The snippet of a place in the source -/

namespace Snippet

open Text

/-- The snippet of a place that lies in the source: its line between the lines around it, and the
caret behind as many spaces as there are characters in front of the place. -/
def unmoved (source : List Char) (name message : String) (line column : Nat) (row : List Char) :
    String :=
  let place := toString line ++ ":" ++ toString column
  let header :=
    if name = "" then "PARSE ERROR at " ++ place else "PARSE ERROR in " ++ name ++ " at " ++ place
  header ++ ": " ++ message ++ "\n\n" ++
    (if 1 < line then numbered (lines source) (line - 1) else "") ++
    (rightAligned 4 line ++ " | " ++ String.ofList row ++ "\n") ++
    ("     | " ++ String.ofList (List.replicate (column - 1) ' ') ++ "^\n") ++
    (if line < (lines source).length then numbered (lines source) (line + 1) else "")

/-- A place in the source is shown where it is. Its line and its column are within their bounds, so
nothing is moved before the snippet is drawn. -/
theorem render_standsAt {before after row : List Char} {c : Char} {line column : Nat}
    (place : StandsAt before c after line column row) (name message : String) :
    render (before ++ c :: after) name line column message =
      unmoved (before ++ c :: after) name message line column row := by
  have column_pos := place.column_pos
  have kept : clamp (before ++ c :: after) line column = ⟨line, column⟩ := by
    have line_pos := place.line_pos
    have line_le := place.line_le
    simp only [clamp, Snippet.mk.injEq]
    omega
  simp only [render, kept, unmoved]
  simp [numbered, place.row_eq]

end Snippet

namespace Reader

open Grammar ParseError

/-! ## States -/

namespace State

/-- The lines and the columns that a state has counted are those of a text. -/
def Counts (state : State) (source : List Char) : Prop :=
  state.line = (Text.lines source).length ∧ state.column = (Text.lines source).flatten.length

/-- A counted character is part of the text: a newline begins a line, and every other character goes
on with the last one. -/
theorem Counts.count {state : State} {source : List Char} (counts : Counts state source)
    (c : Char) : Counts (state.count c) (source ++ [c]) := by
  obtain ⟨line, column⟩ := counts
  obtain ⟨rows, last, first, others, divided, single, whole⟩ := Text.lines_append source [c]
  by_cases newline : c = '\n'
  · subst newline
    simp only [Text.lines, if_true, List.cons.injEq] at single
    obtain ⟨rfl, rfl⟩ := single
    simp [Counts, State.count, whole, line, column, divided]
  · simp only [Text.lines, newline, if_false, List.cons.injEq] at single
    obtain ⟨rfl, rfl⟩ := single
    simp [Counts, State.count, newline, whole, line, column, divided]
    omega

/-- The place of a counted character is its mark, if it is no newline. A newline would be counted
into the line behind it. -/
theorem Counts.mark {state : State} {source : List Char} (counts : Counts state source) {c : Char}
    (inline : c ≠ '\n') : (state.count c).mark = Mark.behind source := by
  obtain ⟨line, column⟩ := counts
  simp [State.mark, State.count, inline, Mark.behind, line, column]

end State

/-- What was read before the innermost open list began, the bracket in front of it included: each
bracket is marked by what stands in front of it. -/
inductive Opened : List Opening → List Char → Prop where
  | nil : Opened [] []
  | cons {opening : Opening} {outer : List Opening} {before around : List Char}
      (rest : Opened outer before) (laid : Laid before opening.earlier.reverse around)
      (marked : opening.mark = Mark.behind (before ++ around)) :
      Opened (opening :: outer) (before ++ around ++ ['('])

/-- The part of a quoted text that was read, its opening quote marked by what stands in front. -/
inductive Quoting (before : List Char) : Option Quotation → List Char → Prop where
  | none : Quoting before none []
  | some {quotation : Quotation} (unquoted : '"' ∉ quotation.text)
      (marked : quotation.mark = Mark.behind before) :
      Quoting before (some quotation) ('"' :: quotation.text.reverse)

/-- The characters read so far, as a state holds and marks them. -/
structure Tracks (state : State) (source : List Char) : Prop where
  counts : state.Counts source
  divided : ∃ before inside quoted, source = before ++ inside ++ quoted ∧
    Opened state.openings before ∧ Laid before state.pieces.reverse inside ∧
      Quoting (before ++ inside) state.quotation quoted

/-- A reading of a text either goes on from a state that tracks the text, or points into it. -/
def Fares (source : List Char) : Except ParseError State → Prop
  | .ok state => Tracks state source
  | .error error => error.PointsInto [] source

/-- Behind an open bracket an atom can start: the bracket stands at the end, and the pieces around
the brackets hold whole strings only. -/
theorem Opened.endsApart {openings : List Opening} {before : List Char}
    (opened : Opened openings before) : EndsApart before := by
  induction opened with
  | nil => exact endsApart_nil
  | cons rest laid marked inductionHypothesis =>
    constructor
    · intro last isLast
      rw [List.getLast?_concat] at isLast
      cases isLast
      exact .inr (.inl rfl)
    · have outside := inductionHypothesis.2
      have inside := laid.covers.even_quotes
      rw [List.count_append, List.count_append, List.count_cons_of_ne (by decide), List.count_nil]
      omega

/-- What a state tracks outside of quotes: what was read in front of the innermost open list, and
what the pieces of that list cover. -/
theorem Tracks.outside {state : State} {source : List Char} (tracks : Tracks state source)
    (outside : state.quotation = none) :
    ∃ before inside, source = before ++ inside ∧ Opened state.openings before ∧
      Laid before state.pieces.reverse inside := by
  obtain ⟨before, inside, quoted, rfl, opened, laid, quoting⟩ := tracks.divided
  rw [outside] at quoting
  cases quoting
  exact ⟨before, inside, by simp, opened, laid⟩

/-- Closing a list goes on or points at what is wrong with it.

Proof: without an open bracket the closing one itself is wrong, at the place that was just counted.
Otherwise the pieces make items, and the list covers its brackets and all between them; or a run is
no atom, and its error points into what the pieces cover. -/
theorem Tracks.close {state : State} {source : List Char} (tracks : Tracks state source)
    (outside : state.quotation = none) : Fares (source ++ [')']) (state.count ')').close := by
  have notNewline : ')' ≠ '\n' := by decide
  have mark := tracks.counts.mark notNewline
  obtain ⟨before, inside, rfl, opened, laid⟩ := tracks.outside outside
  unfold State.close
  split
  · rename_i none
    have points : (ParseError.atMark .missingBracket (state.count ')').mark).PointsInto
        (before ++ inside) [')'] := .of_mark mark rfl rfl notNewline rfl
    exact points.whole
  · rename_i opening outer isOpen
    simp only [State.count_openings] at isOpen
    rw [isOpen] at opened
    split
    · rename_i error failed
      simp only [State.count_pieces] at failed
      have points := laid.items_error failed opened.endsApart.2 (.inl opened.endsApart)
      exact points.whole.append [')']
    · rename_i terms made
      simp only [State.count_pieces] at made
      have body := laid.covers.items made false (by simp)
      cases opened with
      | @cons _ _ outermost around rest earlier marked =>
        refine ⟨tracks.counts.count ')', ?_⟩
        refine ⟨outermost, around ++ '(' :: (inside ++ [')']), [], by simp, rest, ?_, ?_⟩
        · simpa using earlier.snoc (.list body) (by simp)
        · simpa [outside] using Quoting.none

/-- A piece that is added outside of quotes covers the character that was read, and a sign among
such pieces is marked by the text in front of it. -/
theorem Tracks.push {state : State} {source : List Char} {c : Char} {piece : Piece}
    (tracks : Tracks state source) (outside : state.quotation = none)
    (covers : PieceCovers piece [c])
    (marked : ∀ sign, piece = .sign sign → sign.mark = Mark.behind source) :
    Tracks ((state.count c).push piece) (source ++ [c]) := by
  refine ⟨tracks.counts.count c, ?_⟩
  obtain ⟨before, inside, rfl, opened, laid⟩ := tracks.outside outside
  refine ⟨before, inside ++ [c], [], by simp, by simpa [State.push] using opened, ?_, ?_⟩
  · simpa [State.push] using laid.snoc covers marked
  · simpa [State.push, outside] using Quoting.none

/-- A character outside of quotes. It opens a list or a string, ends a list, is added as a divider
or a sign, or is not allowed, and then the error is marked at it. -/
theorem Tracks.plain {state : State} {source : List Char} (tracks : Tracks state source)
    (outside : state.quotation = none) (c : Char) :
    Fares (source ++ [c]) ((state.count c).readPlain c) := by
  unfold State.readPlain
  split
  · rename_i opens
    subst opens
    have mark := tracks.counts.mark (show '(' ≠ '\n' by decide)
    refine ⟨tracks.counts.count '(', ?_⟩
    obtain ⟨before, inside, rfl, opened, laid⟩ := tracks.outside outside
    refine ⟨before ++ inside ++ ['('], [], [], by simp, ?_, .nil _, ?_⟩
    · simpa using Opened.cons opened laid mark
    · simpa [outside] using Quoting.none
  split
  · rename_i closes
    subst closes
    exact tracks.close outside
  split
  · rename_i divides
    exact tracks.push outside (.divider divides) (by simp)
  split
  · rename_i quotes
    subst quotes
    have mark := tracks.counts.mark (show '"' ≠ '\n' by decide)
    refine ⟨tracks.counts.count '"', ?_⟩
    obtain ⟨before, inside, rfl, opened, laid⟩ := tracks.outside outside
    exact ⟨before, inside, ['"'], rfl, by simpa using opened, by simpa using laid,
      .some (by simp) mark⟩
  have inline : c ≠ '\n' := by
    rintro rfl
    contradiction
  have mark := tracks.counts.mark inline
  split
  · rename_i sign
    refine tracks.push outside (@PieceCovers.sign (.char c (state.count c).mark) sign) ?_
    rintro _ ⟨⟩
    exact mark
  · have points : (ParseError.invalidCharacter c (state.count c).mark).PointsInto source [c] :=
      .of_mark mark rfl rfl inline rfl
    exact points.whole

/-- A character inside of quotes. The closing quote makes the text a sign, which covers it with both
quotes; every other character goes on with the text. -/
theorem Tracks.quoted {state : State} {source : List Char} {quotation : Quotation}
    (tracks : Tracks state source) (inside : state.quotation = some quotation) (c : Char) :
    Tracks ((state.count c).readQuoted quotation c) (source ++ [c]) := by
  have counted := tracks.counts.count c
  obtain ⟨before, text, quoted, rfl, opened, laid, quoting⟩ := tracks.divided
  rw [inside] at quoting
  cases quoting with
  | some unquoted marked =>
    unfold State.readQuoted
    split
    · rename_i closes
      subst closes
      have legal : SignLegal (.quoted quotation.text.reverse quotation.mark) := by
        simpa [SignLegal] using unquoted
      have grown := laid.snoc (.sign legal) (by rintro _ ⟨⟩; exact marked)
      refine ⟨counted, before, text ++ '"' :: (quotation.text.reverse ++ ['"']), [], by simp,
        by simpa [State.push] using opened, ?_, .none⟩
      simpa [State.push, Sign.source] using grown
    · rename_i notQuote
      refine ⟨counted, before, text, '"' :: (c :: quotation.text).reverse, by simp,
        by simpa using opened, by simpa using laid, .some ?_ marked⟩
      simp only [List.mem_cons, not_or]
      exact ⟨fun same => notQuote same.symm, unquoted⟩

/-- A step: a character is read, and the state tracks it, or the error points at one. Which it is
depends on whether a string is open. -/
theorem Tracks.read {state : State} {source : List Char} (tracks : Tracks state source) (c : Char) :
    Fares (source ++ [c]) (state.read c) := by
  unfold State.read
  split
  · rename_i quotation inside
    exact tracks.quoted inside c
  · rename_i outside
    exact tracks.plain outside c

/-- A run: a whole text is read, and the state tracks it, or the error points into it. The induction
is on the text; what is read after an error does not change what it points at. -/
theorem Tracks.readAll {state : State} {source : List Char} (tracks : Tracks state source)
    (rest : List Char) : Fares (source ++ rest) (state.readAll rest) := by
  induction rest generalizing state source with
  | nil => simpa [State.readAll, Fares] using tracks
  | cons c others inductionHypothesis =>
    have step := tracks.read c
    simp only [State.readAll]
    split
    · rename_i error failed
      rw [failed] at step
      have points := PointsInto.append step others
      simpa [Fares] using points
    · rename_i next reached
      rw [reached] at step
      simpa using inductionHypothesis step

/-- Before the first character nothing was read, and the state holds nothing. -/
theorem tracks_initial : Tracks State.initial [] := by
  refine ⟨⟨rfl, rfl⟩, [], [], [], rfl, .nil, .nil [], .none⟩

/-- A scanned source is tracked outside of quotes, or the error points into it. A string that is
open at the end is pointed at by its first quote, and the error quotes it as far as it goes. -/
theorem fares_scan (source : List Char) :
    Fares source (scan source) ∧ ∀ state, scan source = .ok state → state.quotation = none := by
  have run := tracks_initial.readAll source
  unfold scan
  split
  · rename_i error failed
    rw [failed] at run
    exact ⟨run, by simp⟩
  · rename_i state reached
    rw [reached] at run
    split
    · rename_i quotation inside
      refine ⟨?_, by simp⟩
      obtain ⟨before, text, quoted, whole, opened, laid, quoting⟩ := Tracks.divided run
      rw [inside] at quoting
      cases quoting with
      | some unquoted marked =>
        have points : (State.unfinished quotation).PointsInto (before ++ text)
            ('"' :: quotation.text.reverse) := by
          refine .of_mark marked rfl rfl (by decide) ⟨?_, ?_⟩
          · simp [State.unfinished, ParseError.atMark]
          · simp [State.unfinished, ParseError.atMark]
        rw [List.nil_append] at whole
        rw [whole]
        exact points.whole
    · rename_i outside
      exact ⟨by simpa using run, by rintro _ ⟨⟩; exact outside⟩

/-- What a scanned source is made of: what stands in front of the innermost open list, and what the
pieces of that list cover. -/
theorem exists_parts_of_scan {source : List Char} {state : State}
    (scanned : scan source = .ok state) :
    ∃ before inside, source = before ++ inside ∧ Opened state.openings before ∧
      Laid before state.pieces.reverse inside := by
  obtain ⟨fares, isOutside⟩ := fares_scan source
  rw [scanned] at fares
  exact Tracks.outside fares (isOutside state scanned)

/-! ## Sources -/

/-- The outermost open bracket, and the pieces in front of it. It is the last in the list of open
brackets, and nothing is open around what stands in front of it; the induction is on that list. -/
theorem Opened.outermost {openings : List Opening} {before : List Char} {opening : Opening}
    (opened : Opened openings before) (isOutermost : openings.getLast? = some opening) :
    ∃ around inside, before = around ++ '(' :: inside ∧ Laid [] opening.earlier.reverse around ∧
      opening.mark = Mark.behind around := by
  induction opened with
  | nil => cases isOutermost
  | @cons first outer before around rest laid marked inductionHypothesis =>
    cases outer with
    | nil =>
      cases rest
      cases isOutermost
      exact ⟨around, [], by simp, laid, by simpa using marked⟩
    | cons next others =>
      obtain ⟨outside, inside, rfl, outsideLaid, outsideMarked⟩ :=
        inductionHypothesis (by simpa using isOutermost)
      exact ⟨outside, inside ++ around ++ ['('], by simp, outsideLaid, outsideMarked⟩

/-- An open bracket is pointed at, since it was marked when it was opened. -/
theorem pointsInto_opening {opening : Opening} {before : List Char}
    (marked : opening.mark = Mark.behind before) (after : List Char) :
    (ParseError.atMark .unclosedBracket opening.mark).PointsInto [] (before ++ '(' :: after) :=
  PointsInto.whole (.of_mark marked rfl rfl (by decide) rfl)

/-- The error of a list points into its source. It is an error of the scan, or the innermost open
bracket, or an error of the items when no bracket is open. -/
theorem readList_error {source : List Char} {error : ParseError}
    (failed : readList source = .error error) : error.PointsInto [] source := by
  obtain ⟨fares, isOutside⟩ := fares_scan source
  unfold readList at failed
  split at failed
  · rename_i inner scanned
    cases failed
    rw [scanned] at fares
    exact fares
  · rename_i state scanned
    rw [scanned] at fares
    obtain ⟨before, inside, rfl, opened, laid⟩ := Tracks.outside fares (isOutside state scanned)
    split at failed
    · rename_i opening outer isOpen
      cases failed
      rw [isOpen] at opened
      cases opened with
      | cons rest earlier marked =>
        simpa using pointsInto_opening marked inside
    · rename_i closed
      rw [closed] at opened
      cases opened
      exact laid.items_error ((map_error_iff _ _ _).mp failed) rfl (.inl endsApart_nil)

/-- The error of a program points into its source.

Proof: besides the errors of the scan there are those of the top level. If a bracket is open, the
top level is what stands in front of the outermost one, so its error points into a front of the
source; if all that is in order, the bracket is pointed at. -/
theorem readProgram_error {source : List Char} {error : ParseError}
    (failed : readProgram source = .error error) : error.PointsInto [] source := by
  obtain ⟨fares, isOutside⟩ := fares_scan source
  unfold readProgram at failed
  split at failed
  · rename_i inner scanned
    cases failed
    rw [scanned] at fares
    exact fares
  · rename_i state scanned
    rw [scanned] at fares
    obtain ⟨before, inside, rfl, opened, laid⟩ := Tracks.outside fares (isOutside state scanned)
    cases bottom : state.openings.getLast? with
    | none =>
      have closed : state.openings = [] := List.getLast?_eq_none_iff.mp bottom
      rw [closed] at opened
      cases opened
      simp only [State.topLevel, bottom] at failed
      split at failed
      · rename_i inner outsideList
        cases failed
        exact laid.topLists_error outsideList
      · cases failed
    | some outermost =>
      obtain ⟨around, middle, rfl, earlier, marked⟩ := opened.outermost bottom
      simp only [State.topLevel, bottom] at failed
      split at failed
      · rename_i inner outsideList
        cases failed
        have points := (earlier.topLists_error outsideList).append ('(' :: (middle ++ inside))
        simpa using points
      · cases failed
        simpa using pointsInto_opening marked (middle ++ inside)

/-- Every parse error points at the offending character. It stands in a line of the source, within
that line; what the error says holds of it; and the report of the error over the source shows that
line, with the caret under that character. -/
theorem error_points_at_offence {source : List Char} {error : ParseError}
    (failed : readList source = .error error ∨ readProgram source = .error error) :
    ∃ (before : List Char) (c : Char) (after : List Char) (line column : Nat) (row : List Char),
      source = before ++ c :: after ∧
      error.position source = ((line : Int), (column : Int)) ∧
      Text.StandsAt before c after line column row ∧ error.Offends before c after ∧
      ∀ (fault : Fault) (name : String), fault.parseError? = some error →
        fault.reportOver name source =
          Snippet.unmoved source name error.message line column row := by
  have points : error.PointsInto [] source := by
    cases failed with
    | inl failedList => exact readList_error failedList
    | inr failedProgram => exact readProgram_error failedProgram
  obtain ⟨before, c, after, rfl, inline, line, column, offends⟩ := points
  obtain ⟨row, stands⟩ := Text.standsAt inline before after
  have position : error.position (before ++ c :: after) =
      (((Text.lines before).length : Int), (((Text.lastLine before).length + 1 : Nat) : Int)) := by
    simp only [ParseError.position, line, column, List.nil_append]
    rw [Text.columnInLine_behind]
    rfl
  refine ⟨before, c, after, _, _, row, rfl, position, stands, offends, ?_⟩
  intro fault name isError
  simp only [Fault.reportOver, isError, position]
  exact Snippet.render_standsAt stands name error.message

/-- A character behind a quoted text over two lines: its running column is twelve, its own four. -/
theorem error_points_behind_quotation :
    let source : List Char := "(a \"x\n y\"\n  b=c)".toList
    let error : ParseError := ⟨.invalidCharacter, 0x3D, "", 3, 12⟩
    readProgram source = .error error ∧ error.position source = (3, 4) ∧
      (Fault.parse error).reportOver "p" source =
        "PARSE ERROR in p at 3:4: invalid character \"=\"\n\n" ++
          "   2 |  y\"\n   3 |   b=c)\n     |    ^\n" := by
  intro source error
  have failed : readProgram source = .error error := rfl
  have place : error.position source = (3, 4) := rfl
  obtain ⟨before, c, after, line, column, row, whole, position, stands, _, shown⟩ :=
    error_points_at_offence (.inr failed)
  obtain ⟨rfl, rfl⟩ : line = 3 ∧ column = 4 := by
    rw [place, Prod.mk.injEq] at position
    omega
  have isRow := stands.row_eq
  rw [← whole] at isRow
  obtain rfl : "  b=c)".toList = row := Option.some.inj isRow
  refine ⟨failed, place, (shown (.parse error) "p" rfl).trans ?_⟩
  decide +kernel

end Reader

end TermLang
