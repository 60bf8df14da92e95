import TermLang.Reader.Atom

/-!
# Reading a source

The reader walks over the characters once and keeps a stack of open lists. A closing bracket
turns the pieces since the nearest opening bracket into one finished list, which becomes a
piece of the list around it. `readList` reads a source as if it stood inside one more pair of
brackets; `readProgram` reads a source whose top level holds lists only.
-/

namespace TermLang

namespace Reader

/-- An opening bracket that waits for its closing one. -/
structure Opening where
  /-- Where the bracket stands. -/
  mark : Mark
  /-- The pieces of the list around it that came before, the latest first. -/
  earlier : List Piece
  deriving Inhabited, Repr

/-- A quoted text that has not ended yet. -/
structure Quotation where
  /-- Where the opening quote stands. -/
  mark : Mark
  /-- The characters so far, the latest first. -/
  text : List Char
  deriving Inhabited, Repr

/-- What the reader knows after some characters. -/
structure State where
  /-- The current line. -/
  line : Nat
  /-- The characters read so far, newlines apart. -/
  column : Nat
  /-- The pieces of the innermost open list, the latest first. -/
  pieces : List Piece
  /-- The open brackets, the innermost first. -/
  openings : List Opening
  /-- The quoted text the reader is in, if any. -/
  quotation : Option Quotation
  deriving Inhabited, Repr

namespace State

/-- Before the first character. -/
def initial : State :=
  ⟨1, 0, [], [], none⟩

/-- The place of the character read last. -/
def mark (state : State) : Mark :=
  ⟨state.line, state.column⟩

/-- Counts a character: a newline starts a line, any other one fills a column. -/
def count (state : State) (c : Char) : State :=
  if c = '\n' then { state with line := state.line + 1 }
  else { state with column := state.column + 1 }

/-- Adds a piece to the innermost open list. -/
def push (state : State) (piece : Piece) : State :=
  { state with pieces := piece :: state.pieces }

/-- Closes the innermost open list. -/
def close (state : State) : Except ParseError State :=
  match state.openings with
  | [] => .error (.atMark .missingBracket state.mark)
  | opening :: outer =>
    match items state.pieces.reverse with
    | .error error => .error error
    | .ok terms =>
      .ok { state with pieces := .list (.list terms) :: opening.earlier, openings := outer }

/-- Reads a character outside quoted texts, after it was counted. -/
def readPlain (state : State) (c : Char) : Except ParseError State :=
  if c = '(' then
    .ok { state with pieces := [], openings := ⟨state.mark, state.pieces⟩ :: state.openings }
  else if c = ')' then state.close
  else if isDivider c then .ok (state.push .divider)
  else if c = '"' then .ok { state with quotation := some ⟨state.mark, []⟩ }
  else if isLetter c || isDecimalDigit c || isSymbol c then
    .ok (state.push (.sign (.char c state.mark)))
  else .error (.invalidCharacter c state.mark)

/-- Reads a character inside a quoted text, after it was counted. -/
def readQuoted (state : State) (quotation : Quotation) (c : Char) : State :=
  if c = '"' then
    { state with quotation := none }.push (.sign (.quoted quotation.text.reverse quotation.mark))
  else { state with quotation := some { quotation with text := c :: quotation.text } }

/-- Reads one character. -/
def read (state : State) (c : Char) : Except ParseError State :=
  match state.quotation with
  | some quotation => .ok ((state.count c).readQuoted quotation c)
  | none => (state.count c).readPlain c

/-- Reads characters until one of them is an error. -/
def readAll (state : State) : List Char → Except ParseError State
  | [] => .ok state
  | c :: rest =>
    match state.read c with
    | .error error => .error error
    | .ok next => next.readAll rest

/-- The error of a quoted text that the source ends in. -/
def unfinished (quotation : Quotation) : ParseError :=
  { ParseError.atMark .invalidSymbol quotation.mark with
    text := String.ofList ('"' :: quotation.text.reverse) }

/-- The pieces of the top level, the latest first, and the outermost open bracket. -/
def topLevel (state : State) : List Piece × Option Opening :=
  match state.openings.getLast? with
  | none => (state.pieces, none)
  | some outermost => (outermost.earlier, some outermost)

end State

/-- Reads a whole source and checks that no quoted text is left open. -/
def scan (source : List Char) : Except ParseError State :=
  match State.initial.readAll source with
  | .error error => .error error
  | .ok state =>
    match state.quotation with
    | some quotation => .error (State.unfinished quotation)
    | none => .ok state

/-- The lists of the top level in order. The first sign outside of a list is an error. -/
def topLists : List Piece → Except ParseError (List Term)
  | [] => .ok []
  | .divider :: rest => topLists rest
  | .list term :: rest => (topLists rest).map (term :: ·)
  | .sign sign :: _ => .error (.otherAt sign.mark "atom outside of a list")

end Reader

/-- Reads a source as the items of one list. A bracket that is never closed is reported at the
innermost one. -/
def readList (source : List Char) : Except ParseError Term :=
  match Reader.scan source with
  | .error error => .error error
  | .ok state =>
    match state.openings with
    | opening :: _ => .error (.atMark .unclosedBracket opening.mark)
    | [] => (Reader.items state.pieces.reverse).map .list

/-- Reads a source as a program: lists and nothing else at the top level. A bracket that is
never closed is reported at the outermost one, unless an atom stands outside all brackets. -/
def readProgram (source : List Char) : Except ParseError Term :=
  match Reader.scan source with
  | .error error => .error error
  | .ok state =>
    let (pieces, outermost) := state.topLevel
    match Reader.topLists pieces.reverse with
    | .error error => .error error
    | .ok terms =>
      match outermost with
      | some opening => .error (.atMark .unclosedBracket opening.mark)
      | none => .ok (.list terms)

end TermLang
