import TermLang.Proofs.Reader.Position

/-!
# One stack for all open lists

The reader keeps the pieces of every open list apart from those of the list around it. The same can
be done with a single stack, on which every open bracket is a marker among dividers, signs and
finished lists, and several blanks in a row are one divider. A closing bracket takes off everything
down to the nearest marker and puts the finished list in its place. A source that is read as one
list begins with a marker that stands for no bracket of the source.

Nothing in the shape of such a stack says that a marker is found when one is looked for, that none
is among the cells that are put together, or that a run of signs is not empty. So the functions here
have a branch for each of these, an error or a list without a first item. What is shown is that they
give what the reader gives: the pieces of the open lists, one above the other with markers in
between, are the stack at every point of the source.
-/

namespace TermLang.Reader

/-- Why a reading on the stack ends early. -/
inductive Stop where
  /-- Something is wrong with the source. -/
  | fault (error : ParseError)
  /-- The first item of an empty list was asked for. -/
  | outOfRange
  deriving DecidableEq, Repr

/-- What stands on the stack. -/
inductive Cell where
  /-- An open bracket. An implicit one is no bracket of the source. -/
  | opening (implicit : Bool) (mark : Mark)
  /-- One or more blanks. -/
  | divider
  /-- A part of an atom. -/
  | sign (sign : Sign)
  /-- A list that was closed. -/
  | list (term : Term)
  deriving Repr

/-- Whether a cell is an open bracket. -/
def Cell.isOpening : Cell → Bool
  | .opening _ _ => true
  | _ => false

/-- Whether a cell is an open bracket that is no bracket of the source. -/
def Cell.isImplicit : Cell → Bool
  | .opening implicit _ => implicit
  | _ => false

/-! ## Putting cells together -/

/-- The atom that a run of signs is. Its first sign decides, so that there is none for no signs. -/
def runAtom : List Sign → Except Stop Term
  | [] => .error .outOfRange
  | first :: rest => (atom first rest).mapError .fault

/-- What the cells of a list are grouped into. -/
inductive Portion where
  /-- Signs that stand together. -/
  | run (signs : List Sign)
  /-- A finished list. -/
  | list (term : Term)
  /-- An open bracket. -/
  | opening (mark : Mark)
  deriving Repr

namespace Portion

/-- A run, if there are signs for one. -/
def flush : List Sign → List Portion
  | [] => []
  | first :: rest => [.run (first :: rest)]

/-- Groups cells, the earliest first. `run` holds the signs since the last cell that was none. -/
def ofCells (run : List Sign) : List Cell → List Portion
  | [] => flush run
  | .divider :: rest => flush run ++ ofCells [] rest
  | .list term :: rest => flush run ++ .list term :: ofCells [] rest
  | .opening _ mark :: rest => .opening mark :: ofCells [] rest
  | .sign sign :: rest => ofCells (run ++ [sign]) rest

/-- The term that a portion is. -/
def term : Portion → Except Stop Term
  | .run signs => runAtom signs
  | .list term => .ok term
  | .opening mark => .error (.fault (.otherAt mark "nested open marker"))

end Portion

/-- The items that cells make, the earliest first. -/
def itemsOfCells (cells : List Cell) : Except Stop (List Term) :=
  (Portion.ofCells [] cells).mapM Portion.term

/-- An open bracket on a stack, with what lies above and below it. -/
structure Nearest where
  /-- The cells above, the latest first. -/
  above : List Cell
  /-- Whether the bracket is none of the source. -/
  implicit : Bool
  /-- Where the bracket stands. -/
  mark : Mark
  /-- The cells below, the latest first. -/
  below : List Cell

/-- The latest open bracket on a stack. -/
def nearest? : List Cell → Option Nearest
  | [] => none
  | .opening implicit mark :: below => some ⟨[], implicit, mark, below⟩
  | cell :: rest =>
    (nearest? rest).map fun nearest => { nearest with above := cell :: nearest.above }

/-- The lists of finished cells, the earliest first. An open bracket or a sign is an error. -/
def finish : List Cell → Except ParseError (List Term)
  | [] => .ok []
  | .divider :: rest => finish rest
  | .list term :: rest => (finish rest).map (term :: ·)
  | .opening _ mark :: _ => .error (.atMark .unclosedBracket mark)
  | .sign sign :: _ => .error (.otherAt sign.mark "atom outside of a list")

/-! ## The stack -/

/-- What is known after some characters, all open lists on one stack. -/
structure Stack where
  /-- The current line. -/
  line : Nat
  /-- The characters read so far, newlines apart. -/
  column : Nat
  /-- The cells, the latest first. -/
  cells : List Cell
  /-- The quoted text that is being read, if any. -/
  quotation : Option Quotation

/-- The open bracket around a source that is read as one list. -/
def wrapper : Cell := .opening true ⟨1, 0⟩

/-- What lies below all cells of the source. -/
def bottom : (wrapped : Bool) → List Cell
  | true => [wrapper]
  | false => []

namespace Stack

/-- Before the first character, with or without an open bracket around the source. -/
def initial (wrapped : Bool) : Stack :=
  ⟨1, 0, bottom wrapped, none⟩

/-- The place of the character read last. -/
def mark (stack : Stack) : Mark :=
  ⟨stack.line, stack.column⟩

/-- Counts a character: a newline starts a line, any other one fills a column. -/
def count (stack : Stack) (c : Char) : Stack :=
  if c = '\n' then { stack with line := stack.line + 1 }
  else { stack with column := stack.column + 1 }

/-- Puts a cell on top. -/
def push (stack : Stack) (cell : Cell) : Stack :=
  { stack with cells := cell :: stack.cells }

/-- Divides what comes from what is there, unless that is done already. -/
def delimit (stack : Stack) : Stack :=
  match stack.cells with
  | .divider :: _ => stack
  | _ => stack.push .divider

/-- Puts the list of the cells above an open bracket in the place of the bracket and the cells. -/
def reduce (stack : Stack) (nearest : Nearest) : Except Stop Stack :=
  (itemsOfCells nearest.above.reverse).map fun terms =>
    { stack with cells := .list (.list terms) :: nearest.below }

/-- Closes the nearest open bracket of the source. -/
def close (stack : Stack) : Except Stop Stack :=
  match nearest? stack.cells with
  | none => .error (.fault (.atMark .missingBracket stack.mark))
  | some nearest =>
    if nearest.implicit then .error (.fault (.atMark .missingBracket stack.mark))
    else stack.reduce nearest

/-- Closes the open bracket around the source, if no other one is open. -/
def closeImplicit (stack : Stack) : Except Stop Stack :=
  match nearest? stack.cells with
  | none => .error (.fault (.atMark .missingBracket stack.mark))
  | some nearest =>
    if nearest.implicit then stack.reduce nearest
    else .error (.fault (.atMark .unclosedBracket nearest.mark))

/-- Reads a character outside quoted texts, after it was counted. -/
def readPlain (stack : Stack) (c : Char) : Except Stop Stack :=
  if c = '(' then .ok (stack.push (.opening false stack.mark))
  else if c = ')' then stack.close
  else if isDivider c then .ok stack.delimit
  else if c = '"' then .ok { stack with quotation := some ⟨stack.mark, []⟩ }
  else if isLetter c || isDecimalDigit c || isSymbol c then
    .ok (stack.push (.sign (.char c stack.mark)))
  else .error (.fault (.invalidCharacter c stack.mark))

/-- Reads a character inside a quoted text, after it was counted. -/
def readQuoted (stack : Stack) (quotation : Quotation) (c : Char) : Stack :=
  if c = '"' then
    { stack with quotation := none }.push (.sign (.quoted quotation.text.reverse quotation.mark))
  else { stack with quotation := some { quotation with text := c :: quotation.text } }

/-- Reads one character. -/
def read (stack : Stack) (c : Char) : Except Stop Stack :=
  match stack.quotation with
  | some quotation => .ok ((stack.count c).readQuoted quotation c)
  | none => (stack.count c).readPlain c

/-- Reads characters until one of them is an error. -/
def readAll (stack : Stack) : List Char → Except Stop Stack
  | [] => .ok stack
  | c :: rest =>
    match stack.read c with
    | .error stop => .error stop
    | .ok next => next.readAll rest

/-- Reads a whole source and checks that no quoted text is left open. -/
def scan (wrapped : Bool) (source : List Char) : Except Stop Stack :=
  match (initial wrapped).readAll source with
  | .error stop => .error stop
  | .ok stack =>
    match stack.quotation with
    | some quotation => .error (.fault (State.unfinished quotation))
    | none => .ok stack

/-- Reads a source as the items of one list, which is then alone on the stack. -/
def readList (source : List Char) : Except Stop Term :=
  match scan true source with
  | .error stop => .error stop
  | .ok stack =>
    match stack.closeImplicit with
    | .error stop => .error stop
    | .ok closed =>
      match finish closed.cells.reverse with
      | .error error => .error (.fault error)
      | .ok [] => .error .outOfRange
      | .ok (term :: _) => .ok term

/-- Reads a source as a program. -/
def readProgram (source : List Char) : Except Stop Term :=
  match scan false source with
  | .error stop => .error stop
  | .ok stack => ((finish stack.cells.reverse).mapError .fault).map .list

end Stack

/-! ## Pieces as cells -/

/-- A piece on the stack. -/
def Cell.ofPiece : Piece → Cell
  | .divider => .divider
  | .sign part => .sign part
  | .list term => .list term

/-- A segment as a portion. -/
def Portion.ofSegment : Segment → Portion
  | .run first rest => .run (first :: rest)
  | .list term => .list term

/-- Pieces, the latest first, with one divider for several in a row. -/
def thin : List Piece → List Piece
  | [] => []
  | .divider :: .divider :: rest => thin (.divider :: rest)
  | piece :: rest => piece :: thin rest

/-- The cells of pieces, the latest first. -/
def pile (pieces : List Piece) : List Cell :=
  (thin pieces).map .ofPiece

/-- The cells below those of the innermost list. -/
def under (wrapped : Bool) : List Opening → List Cell
  | [] => bottom wrapped
  | opening :: outer =>
    .opening false opening.mark :: (pile opening.earlier ++ under wrapped outer)

/-- The stack that holds what a state holds. -/
def State.stacked (wrapped : Bool) (state : State) : Stack :=
  ⟨state.line, state.column, pile state.pieces ++ under wrapped state.openings, state.quotation⟩

/-! ## Doubled dividers -/

/-- What does not tell two dividers from one does not tell pieces from what is left of them. This is
how the stack, which keeps one divider where the reader keeps all, is compared with the reader. -/
theorem eq_of_thin {α : Type} {f : List Piece → α}
    (absorbs : ∀ earlier later,
      f (earlier ++ .divider :: .divider :: later) = f (earlier ++ .divider :: later))
    (pieces : List Piece) : f (thin pieces).reverse = f pieces.reverse := by
  -- The list is reversed, so that each step of the recursion moves a piece to what follows.
  have followed (later : List Piece) :
      f ((thin pieces).reverse ++ later) = f (pieces.reverse ++ later) := by
    fun_induction thin pieces generalizing later with
    | case1 => rfl
    | case2 rest inductionHypothesis =>
      rw [inductionHypothesis]
      simpa using (absorbs rest.reverse later).symm
    | case3 piece rest _ inductionHypothesis =>
      simpa using inductionHypothesis (piece :: later)
  simpa using followed []

/-- Two dividers in a row end a run as one does, so the runs and lists are the same. The induction
is on the pieces in front. -/
theorem segments_absorbs (earlier later : List Piece) :
    segments (earlier ++ .divider :: .divider :: later) =
      segments (earlier ++ .divider :: later) := by
  induction earlier with
  | nil => rfl
  | cons piece rest inductionHypothesis =>
    cases piece with
    | divider => exact inductionHypothesis
    | list term => exact congrArg (Segment.list term :: ·) inductionHypothesis
    | sign sign =>
      cases rest with
      | nil => rfl
      | cons next more =>
        cases next with
        | divider => exact congrArg (Segment.run sign [] :: ·) inductionHypothesis
        | list term => exact congrArg (Segment.run sign [] :: ·) inductionHypothesis
        | sign following =>
          simp only [List.cons_append] at inductionHypothesis ⊢
          rw [segments, segments, inductionHypothesis]

/-- Nor do two dividers in a row make a difference at the top level, where dividers are passed over.
-/
theorem topLists_absorbs (earlier later : List Piece) :
    topLists (earlier ++ .divider :: .divider :: later) =
      topLists (earlier ++ .divider :: later) := by
  induction earlier with
  | nil => rfl
  | cons piece rest inductionHypothesis =>
    cases piece with
    | divider => exact inductionHypothesis
    | list term => exact congrArg (Except.map (term :: ·)) inductionHypothesis
    | sign sign => rfl

/-- The pile of no pieces is empty. -/
@[simp]
theorem pile_nil : pile [] = [] := rfl

/-- A sign goes on top of the pile; only dividers are dropped. -/
@[simp]
theorem pile_sign (sign : Sign) (pieces : List Piece) :
    pile (.sign sign :: pieces) = .sign sign :: pile pieces := rfl

/-- So does a finished list. -/
@[simp]
theorem pile_list (term : Term) (pieces : List Piece) :
    pile (.list term :: pieces) = .list term :: pile pieces := rfl

/-- There is one divider on top of a pile of pieces that end with dividers. Another divider is put
there only if the pile ends with something else. -/
theorem pile_divider (pieces : List Piece) :
    pile (.divider :: pieces) =
      match pile pieces with
      | .divider :: rest => .divider :: rest
      | cells => .divider :: cells := by
  have begins (pieces : List Piece) : ∃ rest, thin (.divider :: pieces) = .divider :: rest := by
    induction pieces with
    | nil => exact ⟨[], rfl⟩
    | cons piece rest inductionHypothesis =>
      cases piece with
      | divider => exact inductionHypothesis
      | sign sign => exact ⟨_, rfl⟩
      | list term => exact ⟨_, rfl⟩
  cases pieces with
  | nil => rfl
  | cons piece others =>
    cases piece with
    | sign sign => rfl
    | list term => rfl
    | divider =>
      obtain ⟨rest, same⟩ := begins others
      simp only [pile, thin, same, List.map_cons, Cell.ofPiece]

/-! ## Items and lists of cells -/

/-- The signs since the last cell that was none come before what pieces are grouped into, unless the
pieces go on with a sign. -/
theorem flush_append (run : List Sign) {pieces : List Piece} (apart : StartsApart pieces) :
    Portion.flush run ++ (segments pieces).map .ofSegment =
      (segments (run.map .sign ++ pieces)).map .ofSegment := by
  cases run with
  | nil => rfl
  | cons first rest =>
    rw [segments_run first rest apart]
    rfl

/-- Cells of pieces are grouped as the pieces are. The induction is on the pieces, with the signs
since the last cell that was none, which become part of the first run. -/
theorem ofCells_pieces (run : List Sign) (pieces : List Piece) :
    Portion.ofCells run (pieces.map .ofPiece) =
      (segments (run.map .sign ++ pieces)).map .ofSegment := by
  induction pieces generalizing run with
  | nil =>
    have apart : StartsApart [] := by simp [StartsApart]
    simpa [Portion.ofCells, segments] using flush_append run apart
  | cons piece rest inductionHypothesis =>
    cases piece with
    | divider =>
      rw [← flush_append run (by simp [StartsApart])]
      exact congrArg (Portion.flush run ++ ·) (inductionHypothesis [])
    | list term =>
      rw [← flush_append run (by simp [StartsApart])]
      exact congrArg (Portion.flush run ++ .list term :: ·) (inductionHypothesis [])
    | sign sign => simpa [Portion.ofCells, Cell.ofPiece] using inductionHypothesis (run ++ [sign])

/-- What stands above an open bracket is put together as the pieces of its list are, errors
included. The pile has fewer dividers, which makes no difference to the runs. -/
theorem itemsOfCells_pile (pieces : List Piece) :
    itemsOfCells (pile pieces).reverse = (items pieces.reverse).mapError .fault := by
  have grouped : Portion.ofCells [] (pile pieces).reverse =
      (segments pieces.reverse).map .ofSegment := by
    rw [pile, ← List.map_reverse, ofCells_pieces, ← eq_of_thin segments_absorbs]
    rfl
  rw [itemsOfCells, grouped]
  refine mapM_mapError Stop.fault ?_ (segments pieces.reverse)
  intro segment
  cases segment <;> rfl

/-- The lists of the top level come before those of the cells behind it. If something stands among
them that is no list, that is the error, and the cells behind are not looked at. -/
theorem finish_pile (pieces : List Piece) (later : List Cell) :
    finish ((pile pieces).reverse ++ later) =
      match topLists pieces.reverse with
      | .error error => .error error
      | .ok terms => (finish later).map (terms ++ ·) := by
  rw [pile, ← List.map_reverse, ← eq_of_thin topLists_absorbs]
  induction (thin pieces).reverse with
  | nil => cases finished : finish later <;> simp [topLists, finished, Except.map]
  | cons piece rest inductionHypothesis =>
    cases piece with
    | divider => exact inductionHypothesis
    | sign sign => rfl
    | list term =>
      simp only [List.map_cons, List.cons_append, Cell.ofPiece, finish, inductionHypothesis,
        topLists]
      cases topLists rest with
      | error error => rfl
      | ok terms => cases finish later <;> rfl

/-! ## The nearest open bracket -/

/-- No cell of a pile is an open bracket, so the nearest one is looked for below the pile, and the
pile is part of what stands above it. -/
theorem nearest?_pile_append (pieces : List Piece) (below : List Cell) :
    nearest? (pile pieces ++ below) =
      (nearest? below).map fun nearest =>
        { nearest with above := pile pieces ++ nearest.above } := by
  rw [pile]
  induction thin pieces with
  | nil => simp
  | cons piece rest inductionHypothesis =>
    cases piece <;>
      simp [Cell.ofPiece, nearest?, inductionHypothesis, Function.comp_def]

/-- The nearest open bracket of a stack is the innermost opening, with its pieces above it; behind
all openings it is the one around the source, if there is one. -/
theorem nearest?_stacked (wrapped : Bool) (state : State) :
    nearest? (state.stacked wrapped).cells =
      match state.openings, wrapped with
      | opening :: outer, _ =>
        some ⟨pile state.pieces, false, opening.mark, pile opening.earlier ++ under wrapped outer⟩
      | [], true => some ⟨pile state.pieces, true, ⟨1, 0⟩, []⟩
      | [], false => none := by
  simp only [State.stacked, nearest?_pile_append]
  cases state.openings with
  | nil => cases wrapped <;> simp [under, bottom, wrapper, nearest?]
  | cons opening outer => simp [under, nearest?]

/-! ## The stack of a state -/

/-- What the stack makes of a result of the reader. -/
def retold (wrapped : Bool) (result : Except ParseError State) : Except Stop Stack :=
  (result.mapError .fault).map (State.stacked wrapped)

variable (wrapped : Bool)

/-- A state is retold as the stack that holds what the state does. -/
@[simp]
theorem retold_ok (state : State) : retold wrapped (.ok state) = .ok (state.stacked wrapped) := rfl

/-- An error is retold as it is. -/
@[simp]
theorem retold_error (error : ParseError) :
    retold wrapped (.error error) = .error (.fault error) := rfl

/-- A stack is reached where the reader reaches the state that it holds. So whatever is known of the
states that the reader reaches can be said of the stacks. -/
theorem retold_ok_iff {result : Except ParseError State} {stack : Stack} :
    retold wrapped result = .ok stack ↔
      ∃ state, result = .ok state ∧ state.stacked wrapped = stack := by
  cases result <;> simp

/-- The text that is being quoted is kept beside the stack, as the reader keeps it. -/
@[simp]
theorem quotation_stacked (state : State) : (state.stacked wrapped).quotation = state.quotation :=
  rfl

/-- Lines and columns are counted beside the stack, as the reader counts them. -/
theorem count_stacked (state : State) (c : Char) :
    (state.stacked wrapped).count c = (state.count c).stacked wrapped := by
  unfold Stack.count State.count
  split <;> rfl

/-- A sign is put on top of the pile. -/
theorem push_stacked (state : State) (sign : Sign) :
    (state.stacked wrapped).push (.sign sign) = (state.push (.sign sign)).stacked wrapped := by
  simp [Stack.push, State.push, State.stacked]

/-- Below a pile stands no divider: the open bracket of the list is there, or the bottom. -/
theorem under_ne_divider (openings : List Opening) (rest : List Cell) :
    under wrapped openings ≠ .divider :: rest := by
  cases openings with
  | nil => cases wrapped <;> simp [under, bottom, wrapper]
  | cons opening outer => simp [under]

/-- Dividing what is divided already changes nothing on the stack. The reader adds its divider in
either case, and the pile of its pieces keeps one of them. -/
theorem delimit_stacked (state : State) :
    (state.stacked wrapped).delimit = (state.push .divider).stacked wrapped := by
  simp only [Stack.delimit, Stack.push, State.push, State.stacked, pile_divider]
  cases pile state.pieces with
  | nil =>
    split
    · rename_i rest divided
      exact absurd divided (under_ne_divider wrapped state.openings rest)
    · rfl
  | cons cell rest => cases cell <;> rfl

/-- A closing bracket does on the stack what it does to the open lists.

Proof: the nearest open bracket is that of the innermost list, and above it stands the pile of the
pieces of that list. Putting these together gives the items, or the error, that the reader gets. -/
theorem close_stacked (state : State) :
    (state.stacked wrapped).close = retold wrapped state.close := by
  obtain ⟨line, column, pieces, openings, quotation⟩ := state
  unfold Stack.close State.close
  rw [nearest?_stacked]
  cases openings with
  | nil => cases wrapped <;> rfl
  | cons opening outer =>
    simp only [Stack.reduce, itemsOfCells_pile]
    cases items pieces.reverse with
    | error error => rfl
    | ok terms => simp [State.stacked, Except.map]

/-- A character outside of quotes does on the stack what it does to the open lists. Each kind of
character has its own lemma above, except those that only open a list or a text. -/
theorem readPlain_stacked (state : State) (c : Char) :
    (state.stacked wrapped).readPlain c = retold wrapped (state.readPlain c) := by
  unfold Stack.readPlain State.readPlain
  split
  · rfl
  split
  · exact close_stacked wrapped state
  split
  · exact congrArg Except.ok (delimit_stacked wrapped state)
  split
  · rfl
  split
  · exact congrArg Except.ok (push_stacked wrapped state (.char c state.mark))
  · rfl

/-- A character inside of quotes is gathered beside the stack; the closing quote puts the whole text
on top as one sign. -/
theorem readQuoted_stacked (state : State) (quotation : Quotation) (c : Char) :
    (state.stacked wrapped).readQuoted quotation c =
      (state.readQuoted quotation c).stacked wrapped := by
  unfold Stack.readQuoted State.readQuoted
  split
  · exact push_stacked wrapped { state with quotation := none } _
  · rfl

/-- A step: one character does on the stack what it does to the open lists, inside of quotes and
outside of them. -/
theorem read_stacked (state : State) (c : Char) :
    (state.stacked wrapped).read c = retold wrapped (state.read c) := by
  unfold Stack.read State.read
  rw [quotation_stacked, count_stacked]
  cases state.quotation with
  | some quotation => exact congrArg Except.ok (readQuoted_stacked wrapped _ quotation c)
  | none => exact readPlain_stacked wrapped (state.count c) c

/-- A run: so does a text. The induction is on the text, and the first error ends both readings. -/
theorem readAll_stacked (state : State) (source : List Char) :
    (state.stacked wrapped).readAll source = retold wrapped (state.readAll source) := by
  induction source generalizing state with
  | nil => rfl
  | cons c rest inductionHypothesis =>
    simp only [Stack.readAll, State.readAll, read_stacked]
    cases state.read c with
    | error error => rfl
    | ok next => exact inductionHypothesis next

/-- The stack before the first character holds what the reader does. -/
theorem stacked_initial : State.initial.stacked wrapped = Stack.initial wrapped := rfl

/-- A source is scanned on the stack as the reader scans it. A text that is still being quoted at
the end is the same error for both. -/
theorem scan_stacked (source : List Char) :
    Stack.scan wrapped source = retold wrapped (scan source) := by
  unfold Stack.scan scan
  rw [← stacked_initial, readAll_stacked]
  cases State.initial.readAll source with
  | error error => rfl
  | ok state =>
    simp only [retold_ok, quotation_stacked]
    cases state.quotation <;> rfl

/-! ## The two readings agree -/

/-- Closing the open bracket around the source leaves one list, and nothing else. An open bracket of
the source itself is found first, and is the error. -/
theorem closeImplicit_stacked (state : State) :
    (state.stacked true).closeImplicit =
      match state.openings with
      | opening :: _ => .error (.fault (.atMark .unclosedBracket opening.mark))
      | [] => ((items state.pieces.reverse).mapError .fault).map fun terms =>
        { state.stacked true with cells := [.list (.list terms)] } := by
  unfold Stack.closeImplicit
  rw [nearest?_stacked]
  cases state.openings with
  | nil => simp [Stack.reduce, itemsOfCells_pile]
  | cons opening outer => simp

/-- A source is read as a list on the stack exactly as the reader reads it, errors included. The
list that is left at the end is the one that the reader makes of its pieces. -/
theorem readList_stacked (source : List Char) :
    Stack.readList source = (readList source).mapError .fault := by
  unfold Stack.readList TermLang.readList
  rw [scan_stacked]
  cases scan source with
  | error error => rfl
  | ok state =>
    simp only [retold_ok, closeImplicit_stacked]
    cases state.openings with
    | cons opening outer => rfl
    | nil => cases items state.pieces.reverse <;> rfl

/-- From below, the pieces in front of the outermost open bracket come first, then the bracket. The
induction is on the openings, with anything above them. -/
theorem finish_under (above : List Cell) {openings : List Opening} {outermost : Opening}
    (isOutermost : openings.getLast? = some outermost) :
    finish (above ++ under false openings).reverse =
      match topLists outermost.earlier.reverse with
      | .error error => .error error
      | .ok _ => .error (.atMark .unclosedBracket outermost.mark) := by
  induction openings generalizing above with
  | nil => cases isOutermost
  | cons opening outer inductionHypothesis =>
    cases outer with
    | nil =>
      obtain rfl : opening = outermost := by simpa using isOutermost
      have cells : (above ++ under false [opening]).reverse =
          (pile opening.earlier).reverse ++ .opening false opening.mark :: above.reverse := by
        simp [under, bottom]
      rw [cells, finish_pile]
      cases topLists opening.earlier.reverse <;> rfl
    | cons next more =>
      have cells : above ++ under false (opening :: next :: more) =
          (above ++ .opening false opening.mark :: pile opening.earlier) ++
            under false (next :: more) := by
        simp [under]
      rw [cells]
      exact inductionHypothesis _ (by simpa using isOutermost)

/-- What is left of a program is the lists of its top level, or an error there, or the outermost
open bracket. Without an open bracket the stack is one pile; with one, what stands in front of the
outermost comes first. -/
theorem finish_stacked (state : State) :
    finish (state.stacked false).cells.reverse =
      match topLists state.topLevel.1.reverse, state.topLevel.2 with
      | .error error, _ => .error error
      | .ok _, some opening => .error (.atMark .unclosedBracket opening.mark)
      | .ok terms, none => .ok terms := by
  unfold State.topLevel
  cases isOutermost : state.openings.getLast? with
  | none =>
    have noOpenings : state.openings = [] := List.getLast?_eq_none_iff.mp isOutermost
    have cells : (state.stacked false).cells.reverse = (pile state.pieces).reverse ++ [] := by
      simp [State.stacked, noOpenings, under, bottom]
    rw [cells, finish_pile]
    cases topLists state.pieces.reverse with
    | error error => rfl
    | ok terms => simp [finish, Except.map]
  | some outermost =>
    rw [State.stacked, finish_under _ isOutermost]
    cases topLists outermost.earlier.reverse <;> rfl

/-- A source is read as a program on the stack exactly as the reader reads it, errors included. -/
theorem readProgram_stacked (source : List Char) :
    Stack.readProgram source = (readProgram source).mapError .fault := by
  unfold Stack.readProgram TermLang.readProgram
  rw [scan_stacked]
  cases scan source with
  | error error => rfl
  | ok state =>
    simp only [retold_ok, finish_stacked]
    cases topLists state.topLevel.1.reverse with
    | error error => rfl
    | ok terms => cases state.topLevel.2 <;> rfl

end TermLang.Reader
