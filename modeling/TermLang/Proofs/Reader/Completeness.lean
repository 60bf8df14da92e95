import TermLang.Proofs.Reader.Spelling
import TermLang.Reader

/-!
# Every source of the grammar is read

A derivation in the grammar says what the reader will do: from any state outside of quotes it reads
the text without an error, leaves the open brackets as they were, and adds pieces to the innermost
list that later make up exactly the derived terms. The statement is about any state, since a list is
read in the middle of others.

The pieces carry marks, and the marks depend on what was read before; they are left open here.
-/

namespace TermLang.Reader

open Grammar

/-! ## Pieces into items -/

/-- Pieces that cannot continue a run in front of them. -/
def StartsApart (pieces : List Piece) : Prop := ∀ sign rest, pieces ≠ .sign sign :: rest

/-- A run of signs that nothing continues is one segment. The induction is on the signs behind the
first, and what is behind the run starts apart from it. -/
theorem segments_run (first : Sign) (rest : List Sign) {pieces : List Piece}
    (apart : StartsApart pieces) :
    segments ((first :: rest).map .sign ++ pieces) = .run first rest :: segments pieces := by
  induction rest generalizing first with
  | nil =>
    cases pieces with
    | nil => rfl
    | cons piece others =>
      cases piece with
      | divider => rfl
      | list term => rfl
      | sign sign => exact absurd rfl (apart sign others)
  | cons next more inductionHypothesis =>
    have tail := inductionHypothesis next
    simp only [List.map_cons, List.cons_append] at tail ⊢
    rw [segments, tail]

/-- A finished list is an item of its own, whatever stands beside it; the other pieces make the
other items. -/
theorem items_list_ok_iff (term : Term) (pieces : List Piece) (terms : List Term) :
    items (.list term :: pieces) = .ok terms ↔
      ∃ rest, items pieces = .ok rest ∧ terms = term :: rest := by
  simp only [items, segments, List.mapM_cons, Segment.term, bind, Except.bind, pure, Except.pure]
  cases (segments pieces).mapM Segment.term <;> simp [eq_comm]

/-- A run that nothing continues is one item, if it is an atom. If it is none, there are no items at
all. -/
theorem items_run_ok_iff (first : Sign) (more : List Sign) {pieces : List Piece}
    (apart : StartsApart pieces) (terms : List Term) :
    items ((first :: more).map .sign ++ pieces) = .ok terms ↔
      ∃ term rest, atom first more = .ok term ∧ items pieces = .ok rest ∧ terms = term :: rest := by
  simp only [items, segments_run first more apart, List.mapM_cons, Segment.term, bind, Except.bind,
    pure, Except.pure]
  cases atom first more with
  | error error => simp
  | ok term => cases (segments pieces).mapM Segment.term <;> simp [eq_comm]

/-! ## One character -/

namespace State

/-- Counting a character changes the line and the column only: the pieces that were read stay. -/
@[simp]
theorem count_pieces (state : State) (c : Char) : (state.count c).pieces = state.pieces := by
  unfold count
  split <;> rfl

/-- Nor does counting a character open or close a bracket. -/
@[simp]
theorem count_openings (state : State) (c : Char) : (state.count c).openings = state.openings := by
  unfold count
  split <;> rfl

/-- Nor does it begin or end a quoted text; that is done by what the character is read as. -/
@[simp]
theorem count_quotation (state : State) (c : Char) :
    (state.count c).quotation = state.quotation := by
  unfold count
  split <;> rfl

/-- Reading goes on where it stopped. So a text can be taken apart anywhere, and an error in the
first part is the error of the whole. -/
theorem readAll_append (state : State) (before after : List Char) :
    state.readAll (before ++ after) =
      match state.readAll before with
      | .error error => .error error
      | .ok next => next.readAll after := by
  induction before generalizing state with
  | nil => rfl
  | cons c rest inductionHypothesis =>
    simp only [List.cons_append, readAll]
    cases state.read c with
    | error error => rfl
    | ok next => exact inductionHypothesis next

end State

/-! ## Whole texts -/

/-- From `state` the text is read without an error, adding the pieces to the innermost list. -/
structure Reads (state : State) (source : List Char) (pieces : List Piece) (next : State) :
    Prop where
  run : state.readAll source = .ok next
  added : next.pieces = pieces.reverse ++ state.pieces
  openings : next.openings = state.openings
  outside : next.quotation = none

namespace Reads

variable {state middle next : State} {source after : List Char} {pieces more : List Piece}

/-- Nothing is read as nothing, from every state outside of quotes. -/
theorem nothing (outside : state.quotation = none) : Reads state [] [] state :=
  ⟨rfl, rfl, rfl, outside⟩

/-- Texts are read one behind the other: the pieces of the second come behind those of the first, in
the same innermost list. -/
theorem trans (first : Reads state source pieces middle) (second : Reads middle after more next) :
    Reads state (source ++ after) (pieces ++ more) next where
  run := by rw [State.readAll_append, first.run]; exact second.run
  added := by rw [second.added, first.added, List.reverse_append, List.append_assoc]
  openings := second.openings.trans first.openings
  outside := second.outside

/-- One character that is read as one piece. -/
theorem single {c : Char} {piece : Piece} (outside : state.quotation = none)
    (read : (state.count c).readPlain c = .ok ((state.count c).push piece)) :
    Reads state [c] [piece] ((state.count c).push piece) where
  run := by simp [State.readAll, State.read, outside, read]
  added := by simp [State.push]
  openings := by simp [State.push]
  outside := by simp [State.push, outside]

/-- A blank is read as a divider. -/
theorem blank {c : Char} (outside : state.quotation = none) (divides : isDivider c = true) :
    ∃ next, Reads state [c] [.divider] next := by
  obtain ⟨notOpening, notClosing⟩ : c ≠ '(' ∧ c ≠ ')' := by
    constructor
    · rintro rfl
      exact absurd divides (by decide)
    · rintro rfl
      exact absurd divides (by decide)
  refine ⟨_, single outside ?_⟩
  simp only [State.readPlain, notOpening, notClosing, divides, if_false, if_true]

/-- A letter, a digit or a symbol is read as a sign that remembers its place. It is none of the
characters that are looked for first: brackets, blanks and the quote. -/
theorem char {c : Char} (outside : state.quotation = none) (sign : isSignChar c = true) :
    ∃ next mark, Reads state [c] [.sign (.char c mark)] next := by
  obtain ⟨notOpening, notClosing⟩ : c ≠ '(' ∧ c ≠ ')' := by
    constructor
    · rintro rfl
      exact absurd sign (by decide)
    · rintro rfl
      exact absurd sign (by decide)
  have notQuote : c ≠ '"' := by rintro rfl; exact absurd sign (by decide)
  have notDivider : isDivider c = false := by
    rw [← Bool.not_eq_true]
    intro divides
    simp only [isDivider, Bool.or_eq_true, beq_iff_eq] at divides
    rcases divides with ((rfl | rfl) | rfl) | rfl <;> exact absurd sign (by decide)
  refine ⟨_, (state.count c).mark, single outside ?_⟩
  simp only [isSignChar] at sign
  simp only [State.readPlain, notOpening, notClosing, notDivider, notQuote, sign, if_false, if_true,
    Bool.false_eq_true]

/-- A text of letters, digits and symbols is read as a plain run. The induction is on the text, one
sign for each character. -/
theorem plain {text : List Char} (outside : state.quotation = none)
    (signs : ∀ c ∈ text, isSignChar c = true) :
    ∃ next run, Plain run text ∧ Reads state text (run.map .sign) next := by
  induction text generalizing state with
  | nil => exact ⟨state, [], (plain_nil_iff []).mpr rfl, nothing outside⟩
  | cons c rest inductionHypothesis =>
    obtain ⟨first, others⟩ := List.forall_mem_cons.mp signs
    obtain ⟨middle, mark, head⟩ := char outside first
    obtain ⟨next, run, plainRest, tail⟩ := inductionHypothesis head.outside others
    have isPlain := (plain_cons_iff _ _ _).mpr ⟨c, mark, rest, rfl, plainRest, rfl⟩
    exact ⟨next, .char c mark :: run, isPlain, head.trans tail⟩

/-- Inside of quotes every other character is kept, in reverse order, and nothing else changes but
what was counted. -/
theorem readAll_inside {text : List Char} (unquoted : '"' ∉ text) {quotation : Quotation}
    (inside : state.quotation = some quotation) :
    ∃ next, state.readAll text = .ok next ∧ next.pieces = state.pieces ∧
      next.openings = state.openings ∧
        next.quotation = some ⟨quotation.mark, text.reverse ++ quotation.text⟩ := by
  induction text generalizing state quotation with
  | nil => exact ⟨state, rfl, rfl, rfl, inside⟩
  | cons c rest inductionHypothesis =>
    have notQuote : c ≠ '"' := fun same => unquoted (by simp [same])
    have restUnquoted : '"' ∉ rest := fun member => unquoted (List.mem_cons_of_mem c member)
    let kept : State :=
      { state.count c with quotation := some ⟨quotation.mark, c :: quotation.text⟩ }
    have step : state.read c = .ok kept := by
      simp [State.read, inside, State.readQuoted, notQuote, kept]
    have stillInside : kept.quotation = some ⟨quotation.mark, c :: quotation.text⟩ := rfl
    obtain ⟨next, run, pieces, openings, text⟩ := inductionHypothesis restUnquoted stillInside
    refine ⟨next, ?_, ?_, ?_, ?_⟩
    · simp only [State.readAll, step, run]
    · simp [pieces, kept]
    · simp [openings, kept]
    · simp [text]

/-- A quoted text is read as one sign, with the place of its first quote. Brackets and blanks in it
are kept as characters. -/
theorem quoted {text : List Char} (outside : state.quotation = none) (unquoted : '"' ∉ text) :
    ∃ next mark, Reads state ('"' :: (text ++ ['"'])) [.sign (.quoted text mark)] next := by
  let opened : State :=
    { state.count '"' with quotation := some ⟨(state.count '"').mark, []⟩ }
  have opening : state.read '"' = .ok opened := by
    have notDivider : isDivider '"' = false := by decide
    simp [State.read, outside, State.readPlain, notDivider, opened]
  have nowInside : opened.quotation = some ⟨(state.count '"').mark, []⟩ := rfl
  obtain ⟨kept, run, pieces, openings, inside⟩ := readAll_inside unquoted nowInside
  let closed : State := { kept.count '"' with quotation := none }.push
    (.sign (.quoted text (state.count '"').mark))
  have closing : kept.read '"' = .ok closed := by
    simp [State.read, inside, State.readQuoted, closed]
  refine ⟨closed, (state.count '"').mark, ?_, ?_, ?_, ?_⟩
  · simp only [State.readAll, opening, State.readAll_append, run, closing]
  · simp [State.push, pieces, opened, closed]
  · simp [State.push, openings, opened, closed]
  · simp [State.push, closed]

/-- The spelling of an atom is read as a run that is the atom. A quoted text is a run of one sign;
every other spelling is a plain run, and the rules for atoms read it back. -/
theorem atom {text : List Char} {term : Term} (outside : state.quotation = none)
    (spelled : Atom text term) :
    ∃ next first rest, Reads state text ((first :: rest).map .sign) next ∧
      Reader.atom first rest = .ok term := by
  cases spelled with
  | quoted unquoted =>
    obtain ⟨next, mark, read⟩ := quoted outside unquoted
    exact ⟨next, _, [], read, rfl⟩
  | bare bare =>
    obtain ⟨nonempty, signs⟩ := signChar_of_bare bare
    obtain ⟨next, run, isPlain, read⟩ := plain outside signs
    obtain ⟨c, others, rfl⟩ := List.exists_cons_of_ne_nil nonempty
    cases run with
    | nil => cases (plain_nil_iff _).mp isPlain
    | cons first rest =>
      obtain ⟨_, mark, _, rfl, plainRest, same⟩ := (plain_cons_iff _ _ _).mp isPlain
      cases same
      exact ⟨next, _, rest, read, atom_of_bare bare plainRest⟩

/-- What is read between two brackets becomes one finished list. The body is read from the state in
which the bracket has just been opened, so its pieces are all that the list holds; closing it puts
the pieces from before back. -/
theorem bracketed {inside : List Char} {terms : List Term}
    (outside : state.quotation = none)
    (body : ∀ state : State, state.quotation = none →
      ∃ next pieces, Reads state inside pieces next ∧ items pieces = .ok terms) :
    ∃ next, Reads state ('(' :: (inside ++ [')'])) [.list (.list terms)] next := by
  let opened : State :=
    { state.count '(' with
      pieces := []
      openings := ⟨(state.count '(').mark, state.pieces⟩ :: state.openings }
  have opening : state.read '(' = .ok opened := by
    simp [State.read, outside, State.readPlain, opened]
  obtain ⟨full, pieces, read, made⟩ := body opened (by simp [opened, outside])
  let closed : State :=
    { full.count ')' with
      pieces := .list (.list terms) :: state.pieces
      openings := state.openings }
  have closing : full.read ')' = .ok closed := by
    have gathered : full.pieces.reverse = pieces := by simp [read.added, opened]
    simp [State.read, read.outside, State.readPlain, State.close, read.openings, opened, gathered,
      made, closed]
  refine ⟨closed, ?_, ?_, ?_, ?_⟩
  · simp only [State.readAll, opening, State.readAll_append, read.run, closing]
  · simp [closed]
  · simp [closed]
  · simp [closed, read.outside]

/-- Items are read as pieces that make up their terms. Behind an atom that they touch, they do not
start with a sign. The induction follows the derivation; the body of a list is read from the state
in which its bracket has just been opened. -/
theorem items {touching : Bool} {source : List Char} {terms : List Term}
    (derived : Items touching source terms) (state : State) (outside : state.quotation = none) :
    ∃ next pieces, Reads state source pieces next ∧ Reader.items pieces = .ok terms ∧
      (touching = true → StartsApart pieces) := by
  induction derived generalizing state with
  | done touching =>
    refine ⟨state, [], nothing outside, rfl, ?_⟩
    intro _ sign rest
    simp
  | blank touching divides rest inductionHypothesis =>
    obtain ⟨middle, head⟩ := blank outside divides
    obtain ⟨next, pieces, tail, made, _⟩ := inductionHypothesis middle head.outside
    refine ⟨next, .divider :: pieces, head.trans tail, made, ?_⟩
    intro _ sign rest
    simp
  | atom spelled rest inductionHypothesis =>
    obtain ⟨middle, first, others, head, isAtom⟩ := atom outside spelled
    obtain ⟨next, pieces, tail, made, apart⟩ := inductionHypothesis middle head.outside
    refine ⟨next, _, head.trans tail, ?_, by simp⟩
    exact (items_run_ok_iff first others (apart rfl) _).mpr ⟨_, _, isAtom, made, rfl⟩
  | list touching body rest bodyRead inductionHypothesis =>
    obtain ⟨middle, head⟩ := bracketed outside fun state outside => by
      obtain ⟨next, pieces, read, made, _⟩ := bodyRead state outside
      exact ⟨next, pieces, read, made⟩
    obtain ⟨next, pieces, tail, made, _⟩ := inductionHypothesis middle head.outside
    have whole := head.trans tail
    rw [List.cons_append, List.append_assoc] at whole
    refine ⟨next, _, whole, (items_list_ok_iff _ _ _).mpr ⟨_, made, rfl⟩, ?_⟩
    intro _ sign rest
    simp

/-- A program is read as dividers and finished lists, which are its forms. The induction follows the
derivation, and the body of each form is read by `items`. -/
theorem program {source : List Char} {forms : List Term} (derived : Program source forms)
    (state : State) (outside : state.quotation = none) :
    ∃ next pieces, Reads state source pieces next ∧ topLists pieces = .ok forms := by
  induction derived generalizing state with
  | done => exact ⟨state, [], nothing outside, rfl⟩
  | blank divides rest inductionHypothesis =>
    obtain ⟨middle, head⟩ := blank outside divides
    obtain ⟨next, pieces, tail, made⟩ := inductionHypothesis middle head.outside
    exact ⟨next, .divider :: pieces, head.trans tail, made⟩
  | list body rest inductionHypothesis =>
    obtain ⟨middle, head⟩ := bracketed outside fun state outside => by
      obtain ⟨next, pieces, read, made, _⟩ := items body state outside
      exact ⟨next, pieces, read, made⟩
    obtain ⟨next, pieces, tail, made⟩ := inductionHypothesis middle head.outside
    have whole := head.trans tail
    rw [List.cons_append, List.append_assoc] at whole
    exact ⟨next, _, whole, by simp [topLists, made, Except.map]⟩

end Reads

/-- The reader reads every sequence of items as the list of its terms: nothing is open at the end,
and the pieces that were added are all there are. -/
theorem readList_of_items {source : List Char} {terms : List Term}
    (derived : Items false source terms) : readList source = .ok (.list terms) := by
  obtain ⟨next, pieces, read, made, _⟩ := Reads.items derived State.initial rfl
  have gathered : next.pieces.reverse = pieces := by simp [read.added, State.initial]
  have closed : next.openings = [] := read.openings
  simp [readList, scan, read.run, read.outside, closed, gathered, made, Except.map]

/-- The reader reads every program as the list of its forms. No bracket is open at the end, so the
top level is all that was read. -/
theorem readProgram_of_program {source : List Char} {forms : List Term}
    (derived : Program source forms) : readProgram source = .ok (.list forms) := by
  obtain ⟨next, pieces, read, made⟩ := Reads.program derived State.initial rfl
  have gathered : next.pieces.reverse = pieces := by simp [read.added, State.initial]
  have closed : next.openings = [] := read.openings
  simp [readProgram, scan, read.run, read.outside, State.topLevel, closed, gathered, made]

end TermLang.Reader
