import TermLang.Proofs.Reader.Stack

/-!
# What never happens on the stack

Some branches of the functions on the stack are there for stacks that no source leads to. At every
point of a source that is read as one list, the lowest cell is the open bracket around the source,
and no other one is implicit. So an open bracket is always found, what is put together are the cells
above the latest one, and at the end the whole stack becomes one list.

The invariant is not carried along the source here. Every stack that is reached holds what a state
of the reader holds, and a state has no place for a bracket among the pieces of a list, so that the
shape of the stack can be read off.
-/

namespace TermLang.Reader

/-! ## Stacks that are reached -/

/-- The stack behind a text holds what the reader knows behind that text. So what the reader's
states track is known of the stack, and nothing has to be proved of stacks by a second induction
over the text. -/
theorem exists_state {wrapped : Bool} {before : List Char} {stack : Stack}
    (reached : (Stack.initial wrapped).readAll before = .ok stack) :
    ∃ state, Tracks state before ∧ stack = state.stacked wrapped := by
  have tracked := tracks_initial.readAll before
  rw [← stacked_initial, readAll_stacked] at reached
  obtain ⟨state, read, same⟩ := (retold_ok_iff wrapped).mp reached
  rw [read] at tracked
  exact ⟨state, tracked, same.symm⟩

/-- No piece is made up when dividers are dropped. The induction follows the dropping itself. -/
theorem mem_of_mem_thin {piece : Piece} {pieces : List Piece} (member : piece ∈ thin pieces) :
    piece ∈ pieces := by
  fun_induction thin pieces with
  | case1 => exact member
  | case2 rest inductionHypothesis => exact List.mem_cons_of_mem _ (inductionHypothesis member)
  | case3 first rest _ inductionHypothesis =>
    rcases List.mem_cons.mp member with rfl | later
    · exact List.mem_cons_self
    · exact List.mem_cons_of_mem _ (inductionHypothesis later)

/-- The signs of a pile are those of its pieces: a pile only drops dividers and puts each piece into
a cell of its own kind. -/
theorem sign_mem_of_mem_pile {sign : Sign} {pieces : List Piece}
    (member : .sign sign ∈ pile pieces) : .sign sign ∈ pieces := by
  obtain ⟨piece, among, same⟩ := List.mem_map.mp member
  cases piece with
  | sign other =>
    cases same
    exact mem_of_mem_thin among
  | divider => cases same
  | list term => cases same

/-- No open bracket is on a pile, since no piece is one. The open brackets stand between the piles.
-/
theorem not_isOpening_of_mem_pile {cell : Cell} {pieces : List Piece}
    (member : cell ∈ pile pieces) : cell.isOpening = false := by
  obtain ⟨piece, _, rfl⟩ := List.mem_map.mp member
  cases piece <;> rfl

/-- Only an open bracket can be the implicit one around a source. -/
theorem not_isImplicit_of_not_isOpening {cell : Cell} (notOpening : cell.isOpening = false) :
    cell.isImplicit = false := by
  cases cell with
  | opening implicit mark => cases notOpening
  | _ => rfl

/-- Below all lists of a wrapped source is the open bracket around it, and no other implicit one.
The induction is on the open brackets: each adds itself, which is explicit, and a pile, which holds
no bracket. -/
theorem under_wrapper (openings : List Opening) :
    ∃ above, under true openings = above ++ [wrapper] ∧
      ∀ cell ∈ above, cell.isImplicit = false := by
  induction openings with
  | nil => exact ⟨[], rfl, by simp⟩
  | cons opening outer inductionHypothesis =>
    obtain ⟨above, below, explicit⟩ := inductionHypothesis
    refine ⟨.opening false opening.mark :: (pile opening.earlier ++ above), ?_, ?_⟩
    · simp [under, below]
    · refine List.forall_mem_cons.mpr ⟨rfl, List.forall_mem_append.mpr ⟨?_, explicit⟩⟩
      intro cell member
      exact not_isImplicit_of_not_isOpening (not_isOpening_of_mem_pile member)

/-! ## Legal signs -/

/-- The signs of laid pieces are legal, since each of them covers the part of the source that it was
read from. -/
theorem Laid.legal {before source : List Char} {pieces : List Piece}
    (laid : Laid before pieces source) {sign : Sign} (member : .sign sign ∈ pieces) :
    SignLegal sign := by
  induction laid with
  | nil => cases member
  | cons head _ _ inductionHypothesis =>
    rcases List.mem_cons.mp member with rfl | later
    · cases head with
      | sign legal => exact legal
    · exact inductionHypothesis later

/-- So are those of the cells below. Each open bracket keeps the pieces that were laid in front of
it. -/
theorem Opened.legal {openings : List Opening} {before : List Char}
    (opened : Opened openings before) (wrapped : Bool) {sign : Sign}
    (member : .sign sign ∈ under wrapped openings) : SignLegal sign := by
  induction opened with
  | nil => cases wrapped <;> simp [under, bottom, wrapper] at member
  | @cons opening outer _ _ _ laid _ inductionHypothesis =>
    simp only [under, List.mem_cons, reduceCtorEq, false_or, List.mem_append] at member
    rcases member with earlier | below
    · exact laid.legal (List.mem_reverse.mpr (sign_mem_of_mem_pile earlier))
    · exact inductionHypothesis below

/-- What stands on a stack of a source: the signs are letters, digits, symbols and quoted texts. -/
theorem Tracks.legal {state : State} {source : List Char} (tracks : Tracks state source)
    (wrapped : Bool) {sign : Sign} (member : .sign sign ∈ (state.stacked wrapped).cells) :
    SignLegal sign := by
  obtain ⟨_, _, _, _, opened, laid, _⟩ := tracks.divided
  rcases List.mem_append.mp member with innermost | below
  · exact laid.legal (List.mem_reverse.mpr (sign_mem_of_mem_pile innermost))
  · exact opened.legal wrapped below

/-! ## What holds at every point -/

/-- A stack of a source that is read as one list. -/
structure Stack.Wrapped (stack : Stack) : Prop where
  /-- The lowest cell is the open bracket around the source. -/
  lowest : stack.cells.getLast? = some wrapper
  /-- No other open bracket is implicit. -/
  explicit : ∀ cell ∈ stack.cells.dropLast, cell.isImplicit = false
  /-- What will be parts of atoms are letters, digits, symbols and quoted texts. -/
  legal : ∀ sign, .sign sign ∈ stack.cells → SignLegal sign

/-- A portion that is an item or a run that may be one: no open bracket, and no run of no signs. -/
def Portion.Proper : Portion → Prop
  | .run signs => signs ≠ []
  | .list _ => True
  | .opening _ => False

/-- The latest open bracket of a stack is found, and the cells above it can be put together. -/
structure Nearest.Cuts (nearest : Nearest) (cells : List Cell) : Prop where
  /-- The bracket stands between what is above it and what is below. -/
  parts : cells = nearest.above ++ .opening nearest.implicit nearest.mark :: nearest.below
  /-- No open bracket is above it. -/
  latest : ∀ cell ∈ nearest.above, cell.isOpening = false
  /-- What is put together are lists and runs of at least one sign. -/
  proper : ∀ portion ∈ Portion.ofCells [] nearest.above.reverse, portion.Proper
  /-- If that fails, one of the runs is no atom. -/
  fails : ∀ stop, itemsOfCells nearest.above.reverse = .error stop →
    ∃ first rest error, .run (first :: rest) ∈ Portion.ofCells [] nearest.above.reverse ∧
      atom first rest = .error error ∧ stop = .fault error

/-- An open bracket is found where it is: nothing above it is one. The induction is on the cells,
from the top of the stack down. -/
theorem nearest?_eq_some {cells : List Cell} {nearest : Nearest}
    (found : nearest? cells = some nearest) :
    cells = nearest.above ++ .opening nearest.implicit nearest.mark :: nearest.below ∧
      ∀ cell ∈ nearest.above, cell.isOpening = false := by
  induction cells generalizing nearest with
  | nil => cases found
  | cons cell rest inductionHypothesis =>
    cases cell with
    | opening implicit mark =>
      cases found
      exact ⟨rfl, by simp⟩
    | _ =>
      obtain ⟨below, foundBelow, rfl⟩ := Option.map_eq_some_iff.mp found
      obtain ⟨parts, latest⟩ := inductionHypothesis foundBelow
      exact ⟨by rw [parts]; rfl, List.forall_mem_cons.mpr ⟨rfl, latest⟩⟩

/-- A run that is ended gives one run, or nothing if it has no signs. -/
theorem proper_flush (run : List Sign) : ∀ portion ∈ Portion.flush run, portion.Proper := by
  cases run with
  | nil => simp [Portion.flush]
  | cons first rest => simp [Portion.flush, Portion.Proper]

/-- Cells without an open bracket are grouped into lists and runs of at least one sign. A divider or
a list ends the run in front of it, and a run without signs is not put down. -/
theorem proper_ofCells (run : List Sign) {cells : List Cell}
    (noOpening : ∀ cell ∈ cells, cell.isOpening = false) :
    ∀ portion ∈ Portion.ofCells run cells, portion.Proper := by
  induction cells generalizing run with
  | nil => exact proper_flush run
  | cons cell rest inductionHypothesis =>
    obtain ⟨notOpening, others⟩ := List.forall_mem_cons.mp noOpening
    cases cell with
    | opening implicit mark => cases notOpening
    | divider =>
      exact List.forall_mem_append.mpr ⟨proper_flush run, inductionHypothesis [] others⟩
    | list term =>
      exact List.forall_mem_append.mpr ⟨proper_flush run,
        List.forall_mem_cons.mpr ⟨trivial, inductionHypothesis [] others⟩⟩
    | sign sign => exact inductionHypothesis (run ++ [sign]) others

/-- Proper portions fail only where one of their runs is no atom. A list is an item as it is; an
open bracket or an empty run, which would fail in other ways, is not proper. -/
theorem exists_run_of_error {portions : List Portion} {stop : Stop}
    (proper : ∀ portion ∈ portions, portion.Proper)
    (failed : portions.mapM Portion.term = .error stop) :
    ∃ first rest error, .run (first :: rest) ∈ portions ∧ atom first rest = .error error ∧
      stop = .fault error := by
  obtain ⟨portion, member, wrong⟩ := exists_mem_of_mapM_error failed
  have isProper := proper portion member
  cases portion with
  | opening mark => cases isProper
  | list term => cases wrong
  | run signs =>
    obtain ⟨first, rest, rfl⟩ := List.exists_cons_of_ne_nil isProper
    cases isAtom : atom first rest with
    | ok term => simp [Portion.term, runAtom, isAtom] at wrong
    | error error =>
      refine ⟨first, rest, error, member, isAtom, ?_⟩
      simpa [Portion.term, runAtom, isAtom] using wrong.symm

/-- Whatever stands on a stack, no open bracket is among the cells above the nearest one. So those
cells can be put together, and only a run that is no atom is in the way. -/
theorem Nearest.cuts {cells : List Cell} {nearest : Nearest}
    (found : nearest? cells = some nearest) : nearest.Cuts cells := by
  obtain ⟨parts, latest⟩ := nearest?_eq_some found
  have proper : ∀ portion ∈ Portion.ofCells [] nearest.above.reverse, portion.Proper := by
    refine proper_ofCells [] ?_
    intro cell member
    exact latest cell (List.mem_reverse.mp member)
  exact ⟨parts, latest, proper, fun _ failed => exists_run_of_error proper failed⟩

/-- The stack of a state has the open bracket around the source at its end, below all lists.

Proof: the cells are the pile of the innermost list, then what is under it, which ends in that
bracket by `under_wrapper`. No pile holds an open bracket, and the signs are legal because the state
tracks the source. -/
theorem Tracks.wrapped {state : State} {source : List Char} (tracks : Tracks state source) :
    (state.stacked true).Wrapped := by
  obtain ⟨above, below, explicit⟩ := under_wrapper state.openings
  have cells : (state.stacked true).cells = (pile state.pieces ++ above) ++ [wrapper] := by
    simp [State.stacked, below]
  refine ⟨by simp [cells], ?_, fun sign member => tracks.legal true member⟩
  rw [cells, List.dropLast_concat]
  refine List.forall_mem_append.mpr ⟨?_, explicit⟩
  intro cell member
  exact not_isImplicit_of_not_isOpening (not_isOpening_of_mem_pile member)

/-! ## Errors -/

/-- No atom that is wrong is an error of a closing bracket. -/
theorem kind_of_atom_error {first : Sign} {rest : List Sign} {error : ParseError}
    (failed : atom first rest = .error error) : error.kind ≠ .missingBracket := by
  obtain ⟨sign, _, rfl⟩ | rfl | ⟨_, _, _, _, _, rfl⟩ := atom_error failed
  · simp [ParseError.invalidSign, ParseError.invalidCharacter, ParseError.atMark]
  · simp [ParseError.invalidRun, ParseError.atMark]
  · simp [ParseError.otherAt, ParseError.atMark]

/-- An error of a source is not at the place in front of its first character. It points at a
character of the source, and columns of characters are counted from one. -/
theorem place_of_error {source : List Char} {error : ParseError}
    (failed : TermLang.readList source = .error error) : (error.line, error.column) ≠ (1, 0) := by
  obtain ⟨earlier, c, later, _, pointsAt⟩ := readList_error failed
  have column := pointsAt.column
  simp only [Mark.behind] at column
  intro atWrapper
  simp only [Prod.mk.injEq] at atWrapper
  omega

/-! ## The branches that are not taken -/

/-- In a source that is read as one list there always is an open bracket, if not one of the source,
then the one around it. -/
theorem exists_nearest (state : State) :
    ∃ nearest, nearest? (state.stacked true).cells = some nearest := by
  rw [nearest?_stacked]
  cases state.openings with
  | nil => exact ⟨_, rfl⟩
  | cons opening outer => exact ⟨_, rfl⟩

/-- The open bracket around a source is always found, so that no error of it is one of a closing
bracket. What is put together then is all that is on the stack, and one list is left. -/
theorem closeImplicit_cases (state : State) :
    (∀ error, (state.stacked true).closeImplicit = .error (.fault error) →
      error.kind ≠ .missingBracket) ∧
    ∀ closed, (state.stacked true).closeImplicit = .ok closed →
      ∃ terms, finish closed.cells.reverse = .ok [.list terms] := by
  have found := nearest?_stacked true state
  rw [closeImplicit_stacked]
  cases openings : state.openings with
  | cons opening outer =>
    refine ⟨?_, by simp⟩
    rintro error ⟨⟩
    simp [ParseError.atMark]
  | nil =>
    rw [openings] at found
    have cuts := Nearest.cuts found
    rw [← itemsOfCells_pile]
    constructor
    · intro error failed
      obtain ⟨first, rest, inner, _, isAtom, same⟩ :=
        cuts.fails (.fault error) ((map_error_iff _ _ _).mp failed)
      cases same
      exact kind_of_atom_error isAtom
    · intro closed done
      obtain ⟨terms, _, rfl⟩ := (map_ok_iff _ _ _).mp done
      exact ⟨terms, rfl⟩

/-- The branches for stacks that no source leads to are never taken. At every point of a source that
is read as one list, the lowest cell is the open bracket around the source and no other one is
implicit, and every sign is a letter, a digit, a symbol or a quoted text. So there is a nearest open
bracket; the cells above it, which are all that is put together there, hold no open bracket, their
runs are not empty, and only a run that is no atom is an error. At the end no closing bracket is
said to be missing, and exactly one list is left. Both readings are therefore those of the reader,
without an empty list being asked for an item, and no error has the place of the open bracket around
the source. -/
theorem guards_are_unreachable (source : List Char) :
    (∀ before stack, before <+: source → (Stack.initial true).readAll before = .ok stack →
      stack.Wrapped ∧ ∃ nearest, nearest? stack.cells = some nearest ∧ nearest.Cuts stack.cells) ∧
    (∀ stack, Stack.scan true source = .ok stack →
      (∀ error, stack.closeImplicit = .error (.fault error) → error.kind ≠ .missingBracket) ∧
      ∀ closed, stack.closeImplicit = .ok closed →
        ∃ terms, finish closed.cells.reverse = .ok [.list terms]) ∧
    Stack.readList source = (readList source).mapError .fault ∧
    Stack.readProgram source = (readProgram source).mapError .fault ∧
    ∀ error, readList source = .error error → (error.line, error.column) ≠ (1, 0) := by
  refine ⟨?_, ?_, readList_stacked source, readProgram_stacked source,
    fun error failed => place_of_error failed⟩
  · intro before stack _ reached
    obtain ⟨state, tracks, rfl⟩ := exists_state reached
    obtain ⟨nearest, found⟩ := exists_nearest state
    exact ⟨tracks.wrapped, nearest, found, Nearest.cuts found⟩
  · intro stack scanned
    rw [scan_stacked] at scanned
    obtain ⟨state, _, rfl⟩ := (retold_ok_iff true).mp scanned
    exact closeImplicit_cases state

/-- Two lists that are open at the end, behind a string with a bracket in it. -/
theorem guards_of_open_lists :
    let source : List Char := "(a (b \"(\" c".toList
    ∃ stack nearest, Stack.scan true source = .ok stack ∧ stack.Wrapped ∧
      nearest? stack.cells = some nearest ∧ nearest.mark = ⟨1, 4⟩ ∧ nearest.Cuts stack.cells ∧
      Stack.readList source = .error (.fault ⟨.unclosedBracket, 0, "", 1, 4⟩) := by
  intro source
  have always := guards_are_unreachable source
  have read : readList source = .error ⟨.unclosedBracket, 0, "", 1, 4⟩ := rfl
  have reached : (Stack.initial true).readAll source = .ok _ := rfl
  obtain ⟨wrapped, nearest, found, cuts⟩ := always.1 source _ (List.prefix_refl source) reached
  have mark : nearest.mark = ⟨1, 4⟩ := by
    cases found
    rfl
  exact ⟨_, nearest, rfl, wrapped, found, mark, cuts, by rw [always.2.2.1, read]; rfl⟩

end TermLang.Reader
