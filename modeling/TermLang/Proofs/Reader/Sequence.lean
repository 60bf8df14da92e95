import TermLang.Proofs.Reader.Blanks
import TermLang.Proofs.Text.Encoding

/-!
# Sources one behind the other

A program that stands in front of a source does not change how the source is read: its forms come
first, and whatever is wrong with the source is wrong in the same way, at a place that is shifted by
the lines and the columns of the program.

The reader keeps places in its signs, its open brackets and its open quote, and never looks at them;
so shifting all of them is the same as shifting the errors that come of them. The pieces that the
program leaves behind lie below everything that is read later. No bracket is open among them, so
that they are reached again only at the top level, when the source has been read.
-/

namespace TermLang

/-- The mark of the same character when a text is put in front of the source. -/
def Mark.shifted (text : List Char) (mark : Mark) : Mark :=
  ⟨mark.line + text.count '\n', mark.column + text.countP (· ≠ '\n')⟩

namespace Sign

variable (text : List Char)

/-- The same sign when a text is put in front of the source. -/
def shifted : Sign → Sign
  | .char c mark => .char c (mark.shifted text)
  | .quoted inside mark => .quoted inside (mark.shifted text)

/-- A character stays the same one; only the place at which it stands is shifted. -/
@[simp]
theorem shifted_char (c : Char) (mark : Mark) :
    (Sign.char c mark).shifted text = .char c (mark.shifted text) := rfl

/-- What stands between two quotes stays as it is; only the place of the first quote is shifted. -/
@[simp]
theorem shifted_quoted (inside : List Char) (mark : Mark) :
    (Sign.quoted inside mark).shifted text = .quoted inside (mark.shifted text) := rfl

/-- The place of a shifted sign is the shifted place of the sign, whichever kind of sign it is. -/
@[simp]
theorem mark_shifted (sign : Sign) : (sign.shifted text).mark = sign.mark.shifted text := by
  cases sign <;> rfl

/-- A sign starts with the same character wherever it stands, so an error names the same one. -/
@[simp]
theorem first_shifted (sign : Sign) : (sign.shifted text).first = sign.first := by
  cases sign <;> rfl

/-- A sign is spelled the same wherever it stands, so the text that an error quotes is the same. -/
@[simp]
theorem source_shifted (sign : Sign) : (sign.shifted text).source = sign.source := by
  cases sign <;> rfl

/-- Whether a sign is one plain character, and which, does not depend on its place. -/
@[simp]
theorem char?_shifted (sign : Sign) : (sign.shifted text).char? = sign.char? := by
  cases sign <;> rfl

end Sign

/-- The same piece when a text is put in front of the source. -/
def Piece.shifted (text : List Char) : Piece → Piece
  | .divider => .divider
  | .sign part => .sign (part.shifted text)
  | .list term => .list term

namespace ParseError

variable (text : List Char)

/-- The same error when a text is put in front of the source: the newlines of the text are further
lines, and its other characters further columns. Its kind, its character and its text are kept. -/
def shifted (error : ParseError) : ParseError :=
  { error with
    line := error.line + text.count '\n'
    column := error.column + text.countP (· ≠ '\n') }

/-- An error that says nothing but a place is shifted with that place. -/
@[simp]
theorem shifted_atMark (kind : Kind) (mark : Mark) :
    (atMark kind mark).shifted text = atMark kind (mark.shifted text) := rfl

/-- An error about a character goes on to name that character. -/
@[simp]
theorem shifted_invalidCharacter (c : Char) (mark : Mark) :
    (invalidCharacter c mark).shifted text = invalidCharacter c (mark.shifted text) := rfl

/-- An error with a message of its own keeps the message. -/
@[simp]
theorem shifted_otherAt (mark : Mark) (message : String) :
    (otherAt mark message).shifted text = otherAt (mark.shifted text) message := rfl

/-- An error about a sign names its first character, which is the same at the shifted place. -/
@[simp]
theorem shifted_invalidSign (sign : Sign) :
    (invalidSign sign).shifted text = invalidSign (sign.shifted text) := by
  simp [invalidSign]

/-- An error about a run quotes the whole run. All its signs are shifted, which changes neither the
first character nor the quoted text. -/
@[simp]
theorem shifted_invalidRun (first : Sign) (rest : List Sign) :
    (invalidRun first rest).shifted text =
      invalidRun (first.shifted text) (rest.map (Sign.shifted text)) := by
  simp [invalidRun, shifted, atMark, Mark.shifted, List.flatMap_map]

end ParseError

namespace Reader

open ParseError

/-! ## Atoms and items -/

variable (text : List Char)

/-- Whether signs spell a word depends on what they are and not on where they stand. The first sign
that spoils the word is the same one, so the error is that of the word, shifted. The induction is on
the signs. -/
theorem word_shifted (signs : List Sign) :
    word (signs.map (Sign.shifted text)) = (word signs).mapError (ParseError.shifted text) := by
  induction signs with
  | nil => rfl
  | cons sign rest inductionHypothesis =>
    cases sign with
    | quoted inside mark => simp [word]
    | char c mark =>
      simp only [List.map_cons, Sign.shifted_char, word]
      split
      · rw [inductionHypothesis, mapError_map]
      · simp

/-- Signs are read as the digits of a number in the same way wherever they stand, with or without a
point in front of them. The first sign that is no digit spoils the number in both places. -/
theorem numeral_shifted (pointSeen : Bool) (signs : List Sign) :
    numeral pointSeen (signs.map (Sign.shifted text)) =
      (numeral pointSeen signs).mapError (ParseError.shifted text) := by
  induction signs generalizing pointSeen with
  | nil => rfl
  | cons sign rest inductionHypothesis =>
    cases sign with
    | quoted inside mark => simp [numeral]
    | char c mark =>
      simp only [List.map_cons, Sign.shifted_char, numeral]
      split
      · rw [inductionHypothesis, mapError_map]
      split
      · rw [inductionHypothesis, mapError_map]
      · simp

/-- A number is the same wherever it stands. A spelling that fits no number, although all its signs
are digits, is blamed on the place of the first sign, and that place is shifted. -/
theorem numberAtom_shifted (negative : Bool) (mark : Mark) (signs : List Sign) :
    numberAtom negative (mark.shifted text) (signs.map (Sign.shifted text)) =
      (numberAtom negative mark signs).mapError (ParseError.shifted text) := by
  simp only [numberAtom, bind, Except.bind, numeral_shifted]
  cases numeral false signs with
  | error error => rfl
  | ok spelled =>
    simp only [mapError_ok]
    split
    · rfl
    · simp

/-- An operator is told from the plain characters of all its signs, which do not depend on the
place. If they are no operator, the error quotes the run. -/
theorem operatorAtom_shifted (first : Sign) (rest : List Sign) :
    operatorAtom (first.shifted text) (rest.map (Sign.shifted text)) =
      (operatorAtom first rest).mapError (ParseError.shifted text) := by
  have same : (first.shifted text :: rest.map (Sign.shifted text)).mapM Sign.char? =
      (first :: rest).mapM Sign.char? := by
    rw [← List.map_cons, List.mapM_map]
    simp [Function.comp_def]
  simp only [operatorAtom, same]
  split
  · split
    · rfl
    split
    · rfl
    · simp
  · simp

/-- Whether a run starts with a digit is told from its first character alone. -/
theorem startsWithDigit_shifted (signs : List Sign) :
    startsWithDigit (signs.map (Sign.shifted text)) = startsWithDigit signs := by
  cases signs with
  | nil => rfl
  | cons sign rest => cases sign <;> rfl

/-- What atom a run is does not depend on where it stands.

Proof: the first character decides which rule for atoms is tried, and it is the same in both places.
Each of the rules is carried over by its own lemma above, with the errors that it gives. -/
theorem atom_shifted (first : Sign) (rest : List Sign) :
    atom (first.shifted text) (rest.map (Sign.shifted text)) =
      (atom first rest).mapError (ParseError.shifted text) := by
  cases first with
  | quoted inside mark =>
    cases rest with
    | nil => rfl
    | cons next more => simp [atom]
  | char c mark =>
    have whole := word_shifted text (.char c mark :: rest)
    have number := numberAtom_shifted text false mark (.char c mark :: rest)
    have operator := operatorAtom_shifted text (.char c mark) rest
    simp only [List.map_cons, Sign.shifted_char] at whole number operator
    simp only [Sign.shifted_char, atom, startsWithDigit_shifted, List.isEmpty_map]
    split
    · exact number
    split
    · rw [whole, mapError_map]
    split
    · rw [whole, mapError_map]
    split
    · split
      · simp
      · rw [word_shifted, mapError_map]
    split
    · rw [whole, mapError_map]
    split
    · exact numberAtom_shifted text true mark rest
    · exact operator

/-- The same segment when a text is put in front of the source. -/
def Segment.shifted : Segment → Segment
  | .run first rest => .run (first.shifted text) (rest.map (Sign.shifted text))
  | .list term => .list term

/-- Pieces fall into the same runs and lists wherever they stand, since only dividers and lists end
a run. The induction is on the pieces; a sign goes in front of the run behind it, if one follows at
once. -/
theorem segments_shifted (pieces : List Piece) :
    segments (pieces.map (Piece.shifted text)) = (segments pieces).map (Segment.shifted text) := by
  induction pieces with
  | nil => rfl
  | cons piece rest inductionHypothesis =>
    cases piece with
    | divider => exact inductionHypothesis
    | list term => exact congrArg (Segment.list term :: ·) inductionHypothesis
    | sign sign =>
      cases rest with
      | nil => rfl
      | cons next others =>
        cases next with
        | divider => exact congrArg (Segment.run (sign.shifted text) [] :: ·) inductionHypothesis
        | list term => exact congrArg (Segment.run (sign.shifted text) [] :: ·) inductionHypothesis
        | sign following =>
          simp only [List.map_cons, Piece.shifted] at inductionHypothesis ⊢
          rw [segments, segments, inductionHypothesis]
          cases segments (.sign following :: others) with
          | nil => rfl
          | cons first later => cases first <;> rfl

/-- What items pieces make does not depend on where they stand: they fall into the same segments,
and each of these is the same item, or the same error at a shifted place. -/
theorem items_shifted (pieces : List Piece) :
    items (pieces.map (Piece.shifted text)) =
      (items pieces).mapError (ParseError.shifted text) := by
  rw [items, segments_shifted]
  refine mapM_mapError (ParseError.shifted text) ?_ (segments pieces)
  intro segment
  cases segment with
  | run first more => exact atom_shifted text first more
  | list term => rfl

/-- The forms of pieces behind others come behind theirs. An error of the later pieces is the error
of the whole, shifted, since the earlier pieces have none.

Proof: induction on the earlier pieces, which are all dividers and lists because forms were made of
them; behind their end, induction on the later ones. -/
theorem topLists_append {earlier : List Piece} {forms : List Term}
    (made : topLists earlier = .ok forms) (later : List Piece) :
    topLists (earlier ++ later.map (Piece.shifted text)) =
      ((topLists later).map (forms ++ ·)).mapError (ParseError.shifted text) := by
  induction earlier generalizing forms with
  | nil =>
    cases made
    induction later with
    | nil => rfl
    | cons piece rest inductionHypothesis =>
      simp only [List.nil_append, List.map_cons] at inductionHypothesis ⊢
      cases piece with
      | divider => exact inductionHypothesis
      | list term =>
        simp only [Piece.shifted, topLists, inductionHypothesis]
        cases topLists rest <;> rfl
      | sign sign => simp [Piece.shifted, topLists, Except.map]
  | cons piece rest inductionHypothesis =>
    cases piece with
    | divider => exact inductionHypothesis made
    | sign sign => cases made
    | list term =>
      obtain ⟨others, madeRest, rfl⟩ := (map_ok_iff _ _ _).mp made
      simp only [List.cons_append, topLists, inductionHypothesis madeRest]
      cases topLists later <;> rfl

/-! ## States -/

/-- The pieces below those of the innermost list: none, unless that is the top level. -/
def below (base : List Piece) : List Opening → List Piece
  | [] => base
  | _ :: _ => []

/-- The same open brackets when a text is put in front of the source that leaves some pieces at the
top level. -/
def openingsBehind (base : List Piece) : List Opening → List Opening
  | [] => []
  | opening :: outer =>
    ⟨opening.mark.shifted text, opening.earlier.map (Piece.shifted text) ++ below base outer⟩ ::
      openingsBehind base outer

/-- The same state when a text is put in front of the source that leaves some pieces at the top
level. -/
def State.behind (base : List Piece) (state : State) : State where
  line := state.line + text.count '\n'
  column := state.column + text.countP (· ≠ '\n')
  pieces := state.pieces.map (Piece.shifted text) ++ below base state.openings
  openings := openingsBehind text base state.openings
  quotation := state.quotation.map fun quotation =>
    { quotation with mark := quotation.mark.shifted text }

variable (base : List Piece)

/-- Counting a character and putting a text in front can be exchanged: both only add to the line and
the column. -/
theorem count_behind (state : State) (c : Char) :
    (state.behind text base).count c = (state.count c).behind text base := by
  by_cases newline : c = '\n'
  · simp only [State.count, newline, if_true, State.behind, Nat.add_right_comm]
  · simp only [State.count, newline, if_false, State.behind, Nat.add_right_comm]

/-- The place that a state has reached is shifted like all others. -/
theorem mark_behind (state : State) :
    (state.behind text base).mark = state.mark.shifted text := rfl

/-- Closing a list never reaches below it: the pieces that the text in front has left lie below the
outermost open bracket. A bracket that closes nothing is an error in both places, and so are items
that cannot be made. -/
theorem close_behind (state : State) :
    (state.behind text base).close =
      (state.close.map (State.behind text base)).mapError (ParseError.shifted text) := by
  cases openings : state.openings with
  | nil =>
    have none : (state.behind text base).openings = [] := by
      simp only [State.behind, openings, openingsBehind]
    simp only [State.close, none, openings, mark_behind]
    rfl
  | cons opening outer =>
    have inside : (state.behind text base).pieces = state.pieces.map (Piece.shifted text) := by
      simp [State.behind, openings, below]
    simp only [State.close, inside, ← List.map_reverse, items_shifted, openings]
    simp only [State.behind, openings, openingsBehind]
    cases items state.pieces.reverse <;> rfl

/-- A character outside of quotes, after it was counted, does the same to a shifted state. Only a
closing bracket can fail, and that is `close_behind`. -/
theorem readPlain_behind (state : State) (c : Char) :
    (state.behind text base).readPlain c =
      ((state.readPlain c).map (State.behind text base)).mapError (ParseError.shifted text) := by
  unfold State.readPlain
  split
  · rfl
  split
  · exact close_behind text base state
  split
  · rfl
  split
  · rfl
  split
  · rfl
  · rfl

/-- A character inside of quotes, after it was counted, does the same to a shifted state: it is
gathered, or it ends the quoted text, whose first place is kept shifted. -/
theorem readQuoted_behind (state : State) (quotation : Quotation) (c : Char) :
    (state.behind text base).readQuoted { quotation with mark := quotation.mark.shifted text } c =
      (state.readQuoted quotation c).behind text base := by
  unfold State.readQuoted
  split
  · rfl
  · rfl

/-- A step: a text in front of the source shifts what is read, and nothing else. -/
theorem read_behind (state : State) (c : Char) :
    (state.behind text base).read c =
      ((state.read c).map (State.behind text base)).mapError (ParseError.shifted text) := by
  unfold State.read
  rw [count_behind]
  cases inside : state.quotation with
  | none =>
    simp only [State.behind, inside, Option.map_none]
    exact readPlain_behind text base (state.count c) c
  | some quotation =>
    simp only [State.behind, inside, Option.map_some]
    exact congrArg Except.ok (readQuoted_behind text base (state.count c) quotation c)

/-- A run: a text in front of the source shifts what is read, and nothing else. The induction is on
the source, and the first error ends it in both places. -/
theorem readAll_behind (state : State) (source : List Char) :
    (state.behind text base).readAll source =
      ((state.readAll source).map (State.behind text base)).mapError
        (ParseError.shifted text) := by
  induction source generalizing state with
  | nil => rfl
  | cons c rest inductionHypothesis =>
    simp only [State.readAll, read_behind]
    cases state.read c with
    | error error => rfl
    | ok next => exact inductionHypothesis next

/-- The outermost open bracket of a shifted state, and the pieces in front of it. The pieces that
the text in front has left come first in either case, whether a bracket is open or none.

Proof: the outermost bracket is the last in the list of open ones, and by induction on that list it
is the one in front of which the pieces of the text were put. -/
theorem topLevel_behind (state : State) :
    (state.behind text base).topLevel =
      (state.topLevel.1.map (Piece.shifted text) ++ base,
        state.topLevel.2.map fun opening =>
          ⟨opening.mark.shifted text, opening.earlier.map (Piece.shifted text) ++ base⟩) := by
  have outermost (openings : List Opening) :
      (openingsBehind text base openings).getLast? = openings.getLast?.map fun opening =>
        ⟨opening.mark.shifted text, opening.earlier.map (Piece.shifted text) ++ base⟩ := by
    induction openings with
    | nil => rfl
    | cons opening outer inductionHypothesis =>
      cases outer with
      | nil => rfl
      | cons next others =>
        simp only [openingsBehind, List.getLast?_cons_cons] at inductionHypothesis ⊢
        exact inductionHypothesis
  unfold State.topLevel
  simp only [State.behind, outermost]
  cases bottom : state.openings.getLast? with
  | none =>
    rw [List.getLast?_eq_none_iff.mp bottom]
    rfl
  | some opening => rfl

/-! ## Sources -/

/-- A text that was read without an open bracket leaves the state from which the source behind it is
read: the initial state, shifted, with the pieces of the text at the top level. What was counted is
said by `Counts`, and there is nothing else in a state. -/
theorem eq_behind_initial {state : State} (counts : state.Counts text)
    (closed : state.openings = []) (outside : state.quotation = none) :
    state = State.initial.behind text state.pieces := by
  obtain ⟨line, column⟩ := counts
  rw [Text.length_lines] at line
  rw [Text.length_flatten_lines] at column
  obtain ⟨_, _, pieces, _, _⟩ := state
  simp only at closed outside line column
  simp only [State.behind, State.initial, closed, outside, line, column, below, openingsBehind,
    List.map_nil, List.nil_append, Option.map_none, Nat.add_comm, Nat.zero_add]

/-- A source that is read as a program leaves its forms at the top level and no bracket open. For an
open bracket is an error whatever stands in front of it. -/
theorem scan_of_readProgram {source : List Char} {forms : List Term}
    (read : readProgram source = .ok (.list forms)) :
    ∃ state, scan source = .ok state ∧ state.openings = [] ∧
      topLists state.pieces.reverse = .ok forms := by
  unfold readProgram at read
  split at read
  · cases read
  · rename_i state scanned
    cases bottom : state.openings.getLast? with
    | some outermost =>
      simp only [State.topLevel, bottom] at read
      split at read <;> cases read
    | none =>
      simp only [State.topLevel, bottom] at read
      split at read
      · cases read
      · rename_i made
        cases read
        exact ⟨state, scanned, List.getLast?_eq_none_iff.mp bottom, made⟩

/-- Behind a text without an open bracket a source is scanned as it is alone, shifted.

Proof: the text leaves the initial state, shifted, by `eq_behind_initial`; from there the source is
read by `readAll_behind`. No quote is open after the text, so that one which is open at the end is
that of the source. -/
theorem scan_append {text : List Char} {state : State} (scanned : scan text = .ok state)
    (closed : state.openings = []) (source : List Char) :
    scan (text ++ source) =
      ((scan source).map (State.behind text state.pieces)).mapError (ParseError.shifted text) := by
  obtain ⟨fares, isOutside⟩ := fares_scan text
  rw [scanned] at fares
  have tracks : Tracks state text := fares
  have start := eq_behind_initial text tracks.counts closed (isOutside state scanned)
  have run : State.initial.readAll text = .ok state := by
    unfold scan at scanned
    split at scanned
    · cases scanned
    · split at scanned
      · cases scanned
      · cases scanned
        assumption
  have further : State.initial.readAll (text ++ source) =
      ((State.initial.readAll source).map (State.behind text state.pieces)).mapError
        (ParseError.shifted text) := by
    rw [State.readAll_append, run, ← readAll_behind, ← start]
  unfold scan
  rw [further]
  cases State.initial.readAll source with
  | error error => rfl
  | ok next =>
    cases inside : next.quotation with
    | none => simp [Except.map, State.behind, inside]
    | some quotation =>
      simp only [Except.map, mapError_ok, State.behind, inside, Option.map_some]
      rfl

/-- Behind a program a source is read as it is alone: its forms follow those of the program, and its
error is shifted. -/
theorem readProgram_append {text : List Char} {forms : List Term}
    (read : readProgram text = .ok (.list forms)) (source : List Char) :
    readProgram (text ++ source) =
      ((readProgram source).map fun term => .list (forms ++ term.items)).mapError
        (ParseError.shifted text) := by
  obtain ⟨state, scanned, closed, made⟩ := scan_of_readProgram read
  unfold readProgram
  rw [scan_append scanned closed]
  cases scan source with
  | error error => rfl
  | ok next =>
    simp only [Except.map, mapError_ok, topLevel_behind, List.reverse_append, ← List.map_reverse,
      topLists_append text made]
    cases topLists next.topLevel.1.reverse with
    | error error => rfl
    | ok others => cases next.topLevel.2 <;> rfl

/-- A program ends with a blank or a bracket, if it is not empty. Otherwise its last piece would be
a sign, and a sign at the top level is no form. -/
theorem endsApart_of_readProgram {source : List Char} {forms : List Term}
    (read : readProgram source = .ok (.list forms)) : EndsApart source := by
  obtain ⟨state, scanned, closed, made⟩ := scan_of_readProgram read
  obtain ⟨before, inside, rfl, opened, laid⟩ := exists_parts_of_scan scanned
  rw [closed] at opened
  cases opened
  exact laid.endsApart made endsApart_nil

/-- Blanks and brackets are ASCII characters. -/
theorem ascii_of_endsApart {source : List Char} (apart : EndsApart source) :
    ∀ last ∈ source.getLast?, last.toNat < 0x80 := by
  intro last isLast
  rcases apart.1 last isLast with divides | rfl | rfl
  · rcases divider_cases divides with rfl | rfl | rfl | rfl <;> decide
  · decide
  · decide

/-- Reading is compositional, errors included. Behind bytes that are read as a program other bytes
are read as they are alone: if they are a program, its forms follow; if not, the error is of the
same kind, with the same character and text, below all the newlines in front and behind all the
other code points. -/
theorem reads_alike_behind_program {first second : List UInt8} {forms : List Term}
    (read : readProgram (Text.decode first).chars = .ok (.list forms)) :
    (∀ others, readProgram (Text.decode second).chars = .ok (.list others) →
      readProgram (Text.decode (first ++ second)).chars = .ok (.list (forms ++ others))) ∧
    ∀ error, readProgram (Text.decode second).chars = .error error →
      readProgram (Text.decode (first ++ second)).chars =
        .error { error with
          line := error.line + (Text.decode first).chars.count '\n'
          column := error.column + (Text.decode first).chars.countP (· ≠ '\n') } := by
  have ascii := ascii_of_endsApart (endsApart_of_readProgram read)
  rw [Text.decode_append ascii, Text.chars_append, readProgram_append read]
  constructor
  · intro others readSecond
    rw [readSecond]
    rfl
  · intro error failed
    rw [failed]
    rfl

/-- A quoted text over two lines and a stray byte in front of a form, and in front of an error
behind two forms. -/
theorem reads_alike_behind_quotation :
    let first : List UInt8 := [0x28, 0x22, 0x0A, 0xC3, 0x22, 0x29, 0x0A]
    let form : List UInt8 := [0x28, 0x62, 0x29]
    let spoilt : List UInt8 := [0x28, 0x29, 0x0A, 0x28, 0xFF]
    let quoted : Term := .list [.str "\n\uFFFD"]
    let error : ParseError := ⟨.invalidCharacter, 0xFFFD, "", 2, 4⟩
    readProgram (Text.decode first).chars = .ok (.list [quoted]) ∧
      readProgram (Text.decode form).chars = .ok (.list [.list [.str "b"]]) ∧
      readProgram (Text.decode (first ++ form)).chars = .ok (.list [quoted, .list [.str "b"]]) ∧
      readProgram (Text.decode spoilt).chars = .error error ∧
      readProgram (Text.decode (first ++ spoilt)).chars =
        .error { error with line := 4, column := 9 } := by
  intro first form spoilt quoted error
  have read : readProgram (Text.decode first).chars = .ok (.list [quoted]) := rfl
  have readForm : readProgram (Text.decode form).chars = .ok (.list [.list [.str "b"]]) := rfl
  have failed : readProgram (Text.decode spoilt).chars = .error error := rfl
  refine ⟨read, readForm, ?_, failed, ?_⟩
  · exact (reads_alike_behind_program read).1 _ readForm
  · exact (reads_alike_behind_program read).2 _ failed

end Reader

end TermLang
