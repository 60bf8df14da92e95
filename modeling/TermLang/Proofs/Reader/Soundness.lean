import TermLang.Proofs.Reader.Completeness

/-!
# What is read is a source of the grammar

The reader keeps a stack of open lists and classifies runs only when a list is closed, so that what
it knows after some characters is not yet a derivation. The invariant says what it is instead: the
pieces of every open list cover a stretch of the characters read so far, the stretches follow each
other with one opening bracket between them, and a finished list covers a derived list. Every
character that is read without an error keeps the invariant. When nothing is left open, the pieces
of the top level cover the whole source, and grouping them gives a derivation.

Together with the reading of every derivation this makes the reader and the grammar agree.
-/

namespace TermLang.Reader

open Grammar

/-- A piece and the characters it was made of. -/
inductive PieceCovers : Piece → List Char → Prop where
  | divider {c : Char} (divides : isDivider c = true) : PieceCovers .divider [c]
  | sign {sign : Sign} (legal : SignLegal sign) : PieceCovers (.sign sign) sign.source
  | list {inside : List Char} {terms : List Term} (body : Items false inside terms) :
      PieceCovers (.list (.list terms)) ('(' :: (inside ++ [')']))

/-- Pieces in order and the characters they were made of. -/
inductive Covers : List Piece → List Char → Prop where
  | nil : Covers [] []
  | cons {piece : Piece} {pieces : List Piece} {chunk source : List Char}
      (head : PieceCovers piece chunk) (tail : Covers pieces source) :
      Covers (piece :: pieces) (chunk ++ source)

/-- A piece behind others covers what follows them. The reader adds pieces at this end, and the
induction is on those in front. -/
theorem Covers.snoc {pieces : List Piece} {piece : Piece} {source chunk : List Char}
    (covers : Covers pieces source) (last : PieceCovers piece chunk) :
    Covers (pieces ++ [piece]) (source ++ chunk) := by
  induction covers with
  | nil => simpa using Covers.cons last .nil
  | cons head tail inductionHypothesis =>
    rw [List.append_assoc]
    exact .cons head inductionHypothesis

/-- What was read before the innermost open list began, the bracket in front of it included. -/
inductive Below : List Opening → List Char → Prop where
  | nil : Below [] []
  | cons {opening : Opening} {outer : List Opening} {before around : List Char}
      (rest : Below outer before) (covers : Covers opening.earlier.reverse around) :
      Below (opening :: outer) (before ++ around ++ ['('])

/-- The part of a quoted text that was read, its opening quote included. -/
inductive Pending : Option Quotation → List Char → Prop where
  | none : Pending none []
  | some {quotation : Quotation} (unquoted : '"' ∉ quotation.text) :
      Pending (some quotation) ('"' :: quotation.text.reverse)

/-- The characters read so far, as a state holds them. -/
inductive Holds (state : State) : List Char → Prop where
  | intro {before inside pending : List Char} (below : Below state.openings before)
      (covers : Covers state.pieces.reverse inside) (quoted : Pending state.quotation pending) :
      Holds state (before ++ inside ++ pending)

/-! ## Derivations from pieces -/

/-- A run that is an atom has the spelling of one: a quoted text by itself, or a plain run that the
rules for atoms have read. -/
theorem spelled_of_atom {first : Sign} {rest : List Sign} {term : Term} (legal : SignLegal first)
    (read : atom first rest = .ok term) : Atom (spelling (first :: rest)) term := by
  cases first with
  | quoted text mark =>
    cases rest with
    | nil =>
      cases read
      simpa [spelling, Sign.source] using Atom.quoted legal
    | cons next more => simp [atom] at read
  | char c mark =>
    obtain ⟨text, plain, bare⟩ := bare_of_atom read
    have whole : Plain (.char c mark :: rest) (c :: text) :=
      (plain_cons_iff _ _ _).mpr ⟨c, mark, text, rfl, plain, rfl⟩
    rw [whole.spelling_eq]
    exact .bare bare

/-- Pieces that start with a sign start with a whole run, and cover its spelling first. The
induction is on the pieces; the run ends at the first piece that is no sign, or at the end. -/
theorem Covers.run {sign : Sign} {pieces : List Piece} {source : List Char}
    (covers : Covers (.sign sign :: pieces) source) :
    ∃ more others rest, pieces = more.map .sign ++ others ∧ StartsApart others ∧
      SignLegal sign ∧ source = spelling (sign :: more) ++ rest ∧ Covers others rest := by
  induction pieces generalizing sign source with
  | nil =>
    cases covers with
    | cons head tail =>
      cases head with
      | sign legal =>
        refine ⟨[], [], _, rfl, fun _ _ => by simp, legal, ?_, tail⟩
        simp [spelling]
  | cons piece others inductionHypothesis =>
    cases covers with
    | @cons _ _ _ tailSource head tail =>
      cases head with
      | sign legal =>
        by_cases continued : ∃ next, piece = .sign next
        · obtain ⟨next, rfl⟩ := continued
          obtain ⟨more, remaining, rest, same, apart, _, covered, others⟩ :=
            inductionHypothesis tail
          refine ⟨next :: more, remaining, rest, by simp [same], apart, legal, ?_, others⟩
          simp [covered, spelling]
        · refine ⟨[], piece :: others, tailSource, rfl, ?_, legal, by simp [spelling], tail⟩
          rintro next rest same
          cases same
          exact continued ⟨next, rfl⟩

/-- Pieces that make up terms cover items of the grammar. The induction is on the number of pieces,
since a run takes several of them at once. -/
theorem Covers.items {pieces : List Piece} {source : List Char} {terms : List Term}
    (covers : Covers pieces source) (made : items pieces = .ok terms) (touching : Bool)
    (apart : touching = true → StartsApart pieces) : Items touching source terms := by
  induction length : pieces.length using Nat.strongRecOn
    generalizing pieces source terms touching with
  | ind size inductionHypothesis =>
    cases covers with
    | nil =>
      cases made
      exact .done touching
    | @cons piece others chunk rest head tail =>
      have fewer : others.length < size := by simp [← length]
      cases head with
      | divider divides =>
        exact .blank touching divides
          (inductionHypothesis others.length fewer tail made false (by simp) rfl)
      | list body =>
        obtain ⟨more, madeRest, rfl⟩ := (items_list_ok_iff _ _ _).mp made
        have derived := inductionHypothesis others.length fewer tail madeRest false (by simp) rfl
        rw [List.cons_append, List.append_assoc]
        exact .list touching body derived
      | sign legal =>
        cases touching with
        | true => exact absurd rfl (apart rfl _ others)
        | false =>
          obtain ⟨run, remaining, restSource, rfl, restApart, _, covered, restCovers⟩ :=
            Covers.run (Covers.cons (PieceCovers.sign legal) tail)
          obtain ⟨term, more, isAtom, madeRest, rfl⟩ :=
            (items_run_ok_iff _ run restApart terms).mp made
          have shorter : remaining.length < size := by
            simp only [List.length_append, List.length_map] at fewer
            omega
          have derived := inductionHypothesis remaining.length shorter restCovers madeRest true
            (fun _ => restApart) rfl
          rw [covered]
          exact .atom (spelled_of_atom legal isAtom) derived

/-- Dividers and lists cover a program. The induction is on the pieces, none of which is a sign,
because forms were made of them. -/
theorem Covers.program {pieces : List Piece} {source : List Char} {forms : List Term}
    (covers : Covers pieces source) (made : topLists pieces = .ok forms) :
    Program source forms := by
  induction covers generalizing forms with
  | nil =>
    cases made
    exact .done
  | cons head tail inductionHypothesis =>
    cases head with
    | divider divides => exact .blank divides (inductionHypothesis made)
    | sign legal => cases made
    | list body =>
      obtain ⟨rest, madeRest, rfl⟩ := (map_ok_iff _ _ _).mp made
      rw [List.cons_append, List.append_assoc]
      exact .list body (inductionHypothesis madeRest)

/-! ## One character and whole texts -/

/-- Before the first character nothing is held, and nothing was read. -/
theorem holds_initial : Holds State.initial [] :=
  @Holds.intro State.initial [] [] [] .nil .nil .none

/-- A piece that is added outside of quotes covers the character that was read, behind all that the
innermost list covers. -/
theorem Holds.push {state : State} {c : Char} {source : List Char} {piece : Piece}
    (holds : Holds state source) (outside : state.quotation = none)
    (covers : PieceCovers piece [c]) :
    Holds ((state.count c).push piece) (source ++ [c]) := by
  obtain ⟨below, inside, quoted⟩ := holds
  rw [outside] at quoted
  cases quoted
  have grown := inside.snoc covers
  have next : Holds ((state.count c).push piece) (_ ++ (_ ++ [c]) ++ []) :=
    .intro (by simpa [State.push] using below) (by simpa [State.push] using grown)
      (by simpa [State.push, outside] using Pending.none)
  simpa using next

/-- Closing a list turns what the innermost list covers into one derived list. It goes behind the
pieces from before the bracket was opened, and covers the two brackets with what stands between
them. -/
theorem Holds.close {state next : State} {source : List Char} (holds : Holds state source)
    (outside : state.quotation = none) (closed : state.close = .ok next) :
    Holds next (source ++ [')']) := by
  obtain ⟨below, inside, quoted⟩ := holds
  rw [outside] at quoted
  cases quoted
  unfold State.close at closed
  split at closed
  · cases closed
  · rename_i opening outer isOpen
    split at closed
    · cases closed
    · rename_i terms made
      cases closed
      rw [isOpen] at below
      cases below with
      | cons rest around =>
        have body := inside.items made false (by simp)
        have grown := around.snoc (.list body)
        have result : Holds { state with
            pieces := .list (.list terms) :: opening.earlier, openings := outer } (_ ++ _ ++ []) :=
          .intro rest (by simpa using grown) (by simpa [outside] using Pending.none)
        simpa using result

/-- A character outside of quotes that is read without an error is held. An opening bracket begins a
list that covers nothing yet, and a quote begins a text; a closing bracket is `close`, and all else
is added as one piece. -/
theorem Holds.plain {state next : State} {c : Char} {source : List Char}
    (holds : Holds state source) (outside : state.quotation = none)
    (read : (state.count c).readPlain c = .ok next) : Holds next (source ++ [c]) := by
  unfold State.readPlain at read
  split at read
  · rename_i opens
    subst opens
    cases read
    obtain ⟨below, inside, quoted⟩ := holds
    rw [outside] at quoted
    cases quoted
    have deeper : Below (⟨(state.count '(').mark, state.pieces⟩ :: state.openings) _ :=
      .cons below inside
    have result : Holds { state.count '(' with
        pieces := []
        openings := ⟨(state.count '(').mark, state.pieces⟩ :: state.openings } (_ ++ [] ++ []) :=
      .intro deeper .nil (by simpa [outside] using Pending.none)
    simpa using result
  split at read
  · rename_i closes
    subst closes
    have counted : Holds (state.count ')') source := by
      obtain ⟨below, inside, quoted⟩ := holds
      exact .intro (by simpa using below) (by simpa using inside) (by simpa using quoted)
    exact counted.close (by simpa using outside) read
  split at read
  · rename_i divides
    cases read
    exact holds.push outside (.divider divides)
  split at read
  · rename_i quotes
    subst quotes
    cases read
    obtain ⟨below, inside, quoted⟩ := holds
    rw [outside] at quoted
    cases quoted
    have result : Holds { state.count '"' with
        quotation := some ⟨(state.count '"').mark, []⟩ } (_ ++ _ ++ ['"']) :=
      .intro (by simpa using below) (by simpa using inside) (.some (by simp))
    simpa using result
  split at read
  · rename_i sign
    cases read
    exact holds.push outside (@PieceCovers.sign (.char c (state.count c).mark) sign)
  · cases read

/-- A character inside of quotes is held. The closing quote makes the text a sign, and every other
character goes on with the text, in which there is no quote. -/
theorem Holds.quoted {state : State} {c : Char} {source : List Char} {quotation : Quotation}
    (holds : Holds state source) (inside : state.quotation = some quotation) :
    Holds ((state.count c).readQuoted quotation c) (source ++ [c]) := by
  obtain ⟨below, covers, quoted⟩ := holds
  rw [inside] at quoted
  cases quoted with
  | some unquoted =>
    unfold State.readQuoted
    split
    · rename_i closes
      subst closes
      have legal : SignLegal (.quoted quotation.text.reverse quotation.mark) := by
        simpa [SignLegal] using unquoted
      have grown := covers.snoc (.sign legal)
      have result : Holds ({ state.count '"' with quotation := none }.push
          (.sign (.quoted quotation.text.reverse quotation.mark))) (_ ++ _ ++ []) :=
        .intro (by simpa [State.push] using below) (by simpa [State.push] using grown)
          (by simpa [State.push] using Pending.none)
      simpa [Sign.source] using result
    · rename_i notQuote
      have longer : '"' ∉ c :: quotation.text := by
        simp only [List.mem_cons, not_or]
        exact ⟨fun same => notQuote same.symm, unquoted⟩
      have result : Holds { state.count c with
          quotation := some { quotation with text := c :: quotation.text } } (_ ++ _ ++ _) :=
        .intro (by simpa using below) (by simpa using covers) (.some longer)
      simpa using result

/-- A step: every character that is read without an error is held, inside of quotes or outside of
them. -/
theorem Holds.read {state next : State} {c : Char} {source : List Char} (holds : Holds state source)
    (step : state.read c = .ok next) : Holds next (source ++ [c]) := by
  unfold State.read at step
  split at step
  · rename_i quotation inside
    cases step
    exact holds.quoted inside
  · rename_i outside
    exact holds.plain outside step

/-- A run: every text that is read without an error is held. The induction is on the text, from any
state that holds what was read before. -/
theorem Holds.readAll {state next : State} {source rest : List Char} (holds : Holds state source)
    (run : state.readAll rest = .ok next) : Holds next (source ++ rest) := by
  induction rest generalizing state source with
  | nil =>
    cases run
    simpa using holds
  | cons c others inductionHypothesis =>
    simp only [State.readAll] at run
    split at run
    · cases run
    · rename_i middle step
      have reached := inductionHypothesis (holds.read step) run
      simpa using reached

/-- A source that is read to its end is covered by what the state holds, outside of quotes. -/
theorem holds_of_scan {source : List Char} {state : State} (scanned : scan source = .ok state) :
    Holds state source ∧ state.quotation = none := by
  unfold scan at scanned
  split at scanned
  · cases scanned
  · rename_i reached run
    split at scanned
    · cases scanned
    · rename_i outside
      cases scanned
      exact ⟨by simpa using holds_initial.readAll run, outside⟩

/-- Without an open bracket the pieces of the top level cover the whole source: nothing stands below
them, and no string is open. -/
theorem Holds.covers {state : State} {source : List Char} (holds : Holds state source)
    (outside : state.quotation = none) (closed : state.openings = []) :
    Covers state.pieces.reverse source := by
  obtain ⟨below, inside, quoted⟩ := holds
  rw [outside] at quoted
  rw [closed] at below
  cases quoted
  cases below
  simpa using inside

/-- What is read as a list is a sequence of items: no bracket is open at the end, so the pieces
cover the source, and what they make is derived. -/
theorem items_of_readList {source : List Char} {term : Term} (read : readList source = .ok term) :
    ∃ terms, term = .list terms ∧ Items false source terms := by
  unfold readList at read
  split at read
  · cases read
  · rename_i state scanned
    obtain ⟨holds, outside⟩ := holds_of_scan scanned
    split at read
    · cases read
    · rename_i closed
      obtain ⟨terms, made, rfl⟩ := (map_ok_iff _ _ _).mp read
      exact ⟨terms, rfl, (holds.covers outside closed).items made false (by simp)⟩

/-- What is read as a program is one. If a bracket were open, there would be an error, whatever
stands at the top level in front of it. -/
theorem program_of_readProgram {source : List Char} {term : Term}
    (read : readProgram source = .ok term) :
    ∃ forms, term = .list forms ∧ Program source forms := by
  unfold readProgram at read
  split at read
  · cases read
  · rename_i state scanned
    obtain ⟨holds, outside⟩ := holds_of_scan scanned
    cases bottom : state.openings.getLast? with
    | some outermost =>
      simp only [State.topLevel, bottom] at read
      split at read <;> cases read
    | none =>
      have closed : state.openings = [] := List.getLast?_eq_none_iff.mp bottom
      simp only [State.topLevel, bottom] at read
      split at read
      · cases read
      · rename_i forms made
        cases read
        exact ⟨forms, rfl, (holds.covers outside closed).program made⟩

/-- The reader accepts exactly the grammar and builds the derived terms: a source is read as a
program with some forms exactly when it is one, and as a list with some items exactly when it is a
sequence of them. -/
theorem reads_exactly_grammar (source : List Char) (term : Term) :
    (readProgram source = .ok term ↔ ∃ forms, term = .list forms ∧ Program source forms) ∧
      (readList source = .ok term ↔ ∃ terms, term = .list terms ∧ Items false source terms) := by
  refine ⟨⟨program_of_readProgram, ?_⟩, ⟨items_of_readList, ?_⟩⟩
  · rintro ⟨forms, rfl, derived⟩
    exact readProgram_of_program derived
  · rintro ⟨terms, rfl, derived⟩
    exact readList_of_items derived

end TermLang.Reader
