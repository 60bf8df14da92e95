import TermLang.Proofs.Reader.Nesting
import TermLang.Proofs.Reader.Program

/-!
# Errors of brackets are exact

When nothing is wrong with a source but its brackets, the running depth decides what is read. If it
becomes negative, the error is at the bracket where it does; if it ends above zero, the error is at
a bracket that is left open; otherwise the source is read.

A source whose runs are atoms is a sequence of blanks, brackets and atoms. Such a sequence is made
of items up to the first bracket without a partner: one that closes too much, or one that is never
closed, behind which there may be more of the same kind. Items are read without an error wherever
they stand, so only the bracket matters.

Runs that are no atoms are not covered. They are errors of their own, and which error comes first
depends on where lists are closed.
-/

namespace TermLang

namespace Grammar

/-! ## Sources whose runs are atoms -/

/-- A blank or a bracket. -/
abbrev Separates (c : Char) : Prop := isDivider c = true ∨ c = '(' ∨ c = ')'

/-- A text in which strings end, without blanks and brackets outside of them. -/
def Unbroken (text : List Char) : Prop :=
  Unquoted text ∧ ∀ c ∈ outside false text, ¬ Separates c

/-- Nothing, a blank or a bracket stands at the beginning of a text. -/
def BeginsApart (after : List Char) : Prop := ∀ first ∈ after.head?, Separates first

/-- Strings end, and every run between blanks and brackets is an atom, a string being part of the
run that it stands in. So no character outside of strings is illegal either. -/
structure Worded (source : List Char) : Prop where
  unquoted : Unquoted source
  runs : ∀ before run after, source = before ++ (run ++ after) → EndsApart before →
    BeginsApart after → Unbroken run → run ≠ [] → ∃ term, Atom run term

/-- Whether strings end is told from the number of quotes. -/
instance : DecidablePred Unquoted := fun text =>
  inferInstanceAs (Decidable (text.count '"' % 2 = 0))

-- The quantifiers are over the members of a text; inference would go through all characters.
/-- Whether a text sets apart what is behind it is told from its last character and its quotes. -/
instance : DecidablePred EndsApart := fun before =>
  @instDecidableAnd _ _ (Option.decidableForallMem before.getLast?)
    (inferInstanceAs (Decidable (Unquoted before)))

/-- Whether a text starts apart is told from its first character. -/
instance : DecidablePred BeginsApart := fun after => Option.decidableForallMem after.head?

/-- Whether a text is unbroken is told from its characters outside of strings, one by one. -/
instance : DecidablePred Unbroken := fun text =>
  @instDecidableAnd _ _ (inferInstanceAs (Decidable (Unquoted text)))
    (List.decidableBAll _ (outside false text))

/-- The runs of a source can be found by where they start and how long they are. So a fixed source
needs a look at finitely many of its parts only, each of which has to be among some atoms. -/
theorem Worded.of_atoms {source : List Char} (atoms : List (List Char))
    (spelled : ∀ text ∈ atoms, ∃ term, Atom text term) (unquoted : Unquoted source)
    (runs : ∀ (start : Fin source.length) (size : Fin (source.length + 1)),
      EndsApart (source.take start) → BeginsApart (source.drop (start + size)) →
        Unbroken ((source.drop start).take size) → (source.drop start).take size ≠ [] →
          (source.drop start).take size ∈ atoms) : Worded source := by
  refine ⟨unquoted, ?_⟩
  rintro before run after rfl apart fresh unbroken present
  have size := List.length_pos_iff.mpr present
  have found := runs ⟨before.length, by simp; omega⟩ ⟨run.length, by simp; omega⟩
  simp only [List.take_left, List.drop_left, List.drop_length_add_append] at found
  exact spelled run (found apart fresh unbroken present)

/-- A sequence of blanks, brackets and atoms, `touching` an atom in front of it or not. -/
inductive Lexed : (touching : Bool) → List Char → Prop where
  | done (touching : Bool) : Lexed touching []
  | blank (touching : Bool) {c : Char} {source : List Char} (divides : isDivider c = true)
      (rest : Lexed false source) : Lexed touching (c :: source)
  | opening (touching : Bool) {source : List Char} (rest : Lexed false source) :
      Lexed touching ('(' :: source)
  | closing (touching : Bool) {source : List Char} (rest : Lexed false source) :
      Lexed touching (')' :: source)
  | atom {text source : List Char} {term : Term} (spelled : Atom text term)
      (rest : Lexed true source) : Lexed false (text ++ source)

/-- One quote more or less turns a text inside out: what was even is odd, and the other way round.
-/
theorem succ_mod_two_iff (quotes : Nat) (quoted : Bool) :
    (quotes + 1) % 2 = quoted.toNat ↔ quotes % 2 = (!quoted).toNat := by
  cases quoted with
  | false =>
    rw [Bool.not_false, Bool.toNat_true, Bool.toNat_false]
    omega
  | true =>
    rw [Bool.not_true, Bool.toNat_true, Bool.toNat_false]
    omega

/-- A text in which strings end starts with a run that nothing continues; the run is empty in front
of a blank or a bracket.

Proof: induction on the text. A quote changes whether the rest is inside of a string, and goes into
the run. A blank or a bracket outside of strings ends the run; every other character goes into it.
-/
theorem exists_run {quoted : Bool} {text : List Char} (ends : text.count '"' % 2 = quoted.toNat) :
    ∃ run after, text = run ++ after ∧ run.count '"' % 2 = quoted.toNat ∧
      (∀ c ∈ outside quoted run, ¬ Separates c) ∧ BeginsApart after := by
  induction text generalizing quoted with
  | nil => exact ⟨[], [], rfl, ends, by simp [outside], by simp [BeginsApart]⟩
  | cons c rest inductionHypothesis =>
    by_cases quote : c = '"'
    · subst quote
      rw [List.count_cons_self, succ_mod_two_iff] at ends
      obtain ⟨run, after, rfl, runEnds, free, apart⟩ := inductionHypothesis ends
      refine ⟨'"' :: run, after, rfl, ?_, ?_, apart⟩
      · rw [List.count_cons_self, succ_mod_two_iff]
        exact runEnds
      · rw [outside, if_pos rfl]
        exact free
    · by_cases separates : quoted = false ∧ Separates c
      · obtain ⟨rfl, separates⟩ := separates
        exact ⟨[], c :: rest, rfl, rfl, by simp [outside], by simpa [BeginsApart] using separates⟩
      · rw [List.count_cons_of_ne quote] at ends
        obtain ⟨run, after, rfl, runEnds, free, apart⟩ := inductionHypothesis ends
        refine ⟨c :: run, after, rfl, ?_, ?_, apart⟩
        · rw [List.count_cons_of_ne quote]
          exact runEnds
        · rw [outside, if_neg quote]
          cases quoted with
          | true => exact free
          | false =>
            refine List.forall_mem_cons.mpr ⟨?_, free⟩
            intro atEnd
            exact separates ⟨rfl, atEnd⟩

/-- A blank or a bracket outside of strings sets what is behind it apart. -/
theorem endsApart_concat {before : List Char} {c : Char} (unquoted : Unquoted before)
    (separates : Separates c) : EndsApart (before ++ [c]) := by
  constructor
  · intro last isLast
    rw [List.getLast?_concat] at isLast
    cases isLast
    exact separates
  · have notQuote : c ≠ '"' := by
      rintro rfl
      exact absurd separates (by decide)
    rw [List.count_append, List.count_cons_of_ne notQuote, List.count_nil]
    exact unquoted

/-- A blank or a bracket goes in front of a sequence, also behind an atom, which it ends. -/
theorem Lexed.behind_separator (touching : Bool) {c : Char} {source : List Char}
    (separates : Separates c) (rest : Lexed false source) : Lexed touching (c :: source) := by
  rcases separates with divides | rfl | rfl
  · exact .blank touching divides rest
  · exact .opening touching rest
  · exact .closing touching rest

/-- The rest of a source whose runs are atoms is a sequence, from every place on where an atom may
start. The induction is on the length of the rest, since a run is passed at once. -/
theorem Worded.lexed_behind {before source : List Char} (worded : Worded (before ++ source))
    (apart : EndsApart before) : Lexed false source := by
  induction length : source.length using Nat.strongRecOn generalizing before source with
  | ind size inductionHypothesis =>
    cases source with
    | nil => exact .done false
    | cons c rest =>
      rw [List.length_cons] at length
      by_cases separates : Separates c
      · have further : Worded (before ++ [c] ++ rest) := by simpa using worded
        refine .behind_separator false separates ?_
        exact inductionHypothesis rest.length (by omega) further
          (endsApart_concat apart.2 separates) rfl
      · have unquoted : Unquoted (c :: rest) := by
          have whole := worded.unquoted
          have front := apart.2
          rw [Unquoted, List.count_append] at whole
          rw [Unquoted]
          omega
        -- The run up to the next separator outside of quotes. It is not empty, as none stands here.
        obtain ⟨run, after, parts, runEnds, free, fresh⟩ := @exists_run false (c :: rest) unquoted
        have present : run ≠ [] := by
          rintro rfl
          rw [List.nil_append] at parts
          exact separates (fresh c (by simp [← parts]))
        rw [parts] at worded ⊢
        obtain ⟨term, spelled⟩ :=
          worded.runs before run after rfl apart fresh ⟨runEnds, free⟩ present
        refine .atom spelled ?_
        cases after with
        | nil => exact .done true
        | cons d more =>
          have next : Separates d := fresh d rfl
          have further : Worded (before ++ run ++ [d] ++ more) := by simpa using worded
          have shorter : more.length < size := by
            have lengths := congrArg List.length parts
            rw [List.length_append, List.length_cons, List.length_cons] at lengths
            omega
          refine .behind_separator true next ?_
          exact inductionHypothesis more.length shorter further
            (endsApart_concat (unquoted_append apart.2 runEnds) next) rfl

/-! ## Up to the first bracket without a partner -/

/-- What comes behind a bracket that is never closed: items, and perhaps another such bracket with
more behind it. -/
inductive Hanging : List Char → Prop where
  | items {source : List Char} {terms : List Term} (derived : Items false source terms) :
      Hanging source
  | opening {inside after : List Char} {terms : List Term} (derived : Items false inside terms)
      (rest : Hanging after) : Hanging (inside ++ '(' :: after)

/-- A sequence consists of items, or of items up to a bracket without a partner. -/
inductive Outcome (touching : Bool) : List Char → Prop where
  | items {source : List Char} {terms : List Term} (derived : Items touching source terms) :
      Outcome touching source
  | excess {inside after : List Char} {terms : List Term} (derived : Items touching inside terms)
      (rest : Lexed false after) : Outcome touching (inside ++ ')' :: after)
  | unclosed {inside after : List Char} {terms : List Term} (derived : Items touching inside terms)
      (rest : Hanging after) : Outcome touching (inside ++ '(' :: after)

/-- What makes items of items changes nothing else. So a blank, an atom or a whole list may be put
in front of a sequence, whatever the outcome of the sequence is. -/
theorem Outcome.behind {touching next : Bool} {front source : List Char}
    (outcome : Outcome next source)
    (step : ∀ text terms, Items next text terms → ∃ more, Items touching (front ++ text) more) :
    Outcome touching (front ++ source) := by
  cases outcome with
  | items derived =>
    obtain ⟨_, longer⟩ := step _ _ derived
    exact .items longer
  | excess derived rest =>
    obtain ⟨_, longer⟩ := step _ _ derived
    rw [← List.append_assoc]
    exact .excess longer rest
  | unclosed derived rest =>
    obtain ⟨_, longer⟩ := step _ _ derived
    rw [← List.append_assoc]
    exact .unclosed longer rest

/-- An atom is spelled with something: a quoted text has its quotes, and every bare atom a first
character. -/
theorem Atom.ne_nil {text : List Char} {term : Term} (spelled : Atom text term) : text ≠ [] := by
  cases spelled with
  | quoted unquoted => simp
  | bare bare => exact (Reader.signChar_of_bare bare).1

/-- Every sequence has an outcome. An opening bracket looks at what comes behind it: if that has a
bracket too much, the two are partners, and the outcome is that of the rest. -/
theorem Lexed.outcome {touching : Bool} {source : List Char} (lexed : Lexed touching source) :
    Outcome touching source := by
  induction length : source.length using Nat.strongRecOn generalizing touching source with
  | ind size inductionHypothesis =>
    cases lexed with
    | done => exact .items (.done touching)
    | @blank _ c rest divides lexed =>
      rw [List.length_cons] at length
      have later := inductionHypothesis rest.length (by omega) lexed rfl
      refine @Outcome.behind touching false [c] rest later ?_
      intro text terms derived
      exact ⟨terms, .blank touching divides derived⟩
    | closing _ lexed => exact .excess (.done touching) lexed
    | @atom word rest term spelled lexed =>
      have present : 0 < word.length := List.length_pos_iff.mpr spelled.ne_nil
      rw [List.length_append] at length
      have later := inductionHypothesis rest.length (by omega) lexed rfl
      refine later.behind ?_
      intro text terms derived
      exact ⟨term :: terms, .atom spelled derived⟩
    | @opening _ rest lexed =>
      rw [List.length_cons] at length
      cases inductionHypothesis rest.length (by omega) lexed rfl with
      | items derived => exact .unclosed (.done touching) (.items derived)
      | unclosed derived hanging => exact .unclosed (.done touching) (.opening derived hanging)
      | @excess inside after terms derived lexedAfter =>
        -- The bracket in excess behind the items is the partner of this one.
        rw [List.length_append, List.length_cons] at length
        have later := inductionHypothesis after.length (by omega) lexedAfter rfl
        have paired : Outcome touching ('(' :: (inside ++ [')']) ++ after) := by
          refine later.behind ?_
          intro text others rest
          refine ⟨.list terms :: others, ?_⟩
          rw [List.cons_append, List.append_assoc]
          exact .list touching derived rest
        rwa [List.cons_append, List.append_assoc] at paired

end Grammar

namespace Reader

open Grammar

/-! ## How each outcome is read -/

/-- Items and one bracket too much: the bracket is the error. The items leave the reader without an
open bracket, at the place behind them. -/
theorem scan_excess {inside after : List Char} {terms : List Term}
    (derived : Items false inside terms) :
    scan (inside ++ ')' :: after) = .error (.atMark .missingBracket (Mark.behind inside)) := by
  obtain ⟨next, pieces, read, _, _⟩ := Reads.items derived State.initial rfl
  have fares := tracks_initial.readAll inside
  rw [read.run] at fares
  have tracks : Tracks next inside := by simpa [Fares] using fares
  have mark := tracks.counts.mark (show ')' ≠ '\n' by decide)
  have closed : next.openings = [] := read.openings
  have failed : next.read ')' = .error (.atMark .missingBracket (Mark.behind inside)) := by
    simp [State.read, read.outside, State.readPlain, State.close, closed, mark]
  simp only [scan, State.readAll_append, read.run, State.readAll, failed]

/-- Items and an opening bracket are read, and the bracket is open. This holds from every state
outside of strings, with or without other open brackets. -/
theorem readAll_opening {inside : List Char} {terms : List Term}
    (derived : Items false inside terms) {state : State} (outside : state.quotation = none) :
    ∃ opened, state.readAll (inside ++ ['(']) = .ok opened ∧ opened.quotation = none ∧
      opened.openings ≠ [] := by
  obtain ⟨middle, _, read, _, _⟩ := Reads.items derived state outside
  let opened : State :=
    { middle.count '(' with
      pieces := []
      openings := ⟨(middle.count '(').mark, middle.pieces⟩ :: middle.openings }
  have opening : middle.read '(' = .ok opened := by
    simp [State.read, read.outside, State.readPlain, opened]
  refine ⟨opened, ?_, ?_, ?_⟩
  · simp only [State.readAll_append, read.run, State.readAll, opening]
  · simp [opened, read.outside]
  · simp [opened]

/-- What comes behind a bracket that is never closed is read, and leaves it open. The induction is
on the further brackets of this kind; items leave the open brackets as they are. -/
theorem readAll_hanging {source : List Char} (hanging : Hanging source) {state : State}
    (outside : state.quotation = none) (isOpen : state.openings ≠ []) :
    ∃ next, state.readAll source = .ok next ∧ next.quotation = none ∧ next.openings ≠ [] := by
  induction hanging generalizing state with
  | items derived =>
    obtain ⟨next, _, read, _, _⟩ := Reads.items derived state outside
    exact ⟨next, read.run, read.outside, read.openings ▸ isOpen⟩
  | opening derived _ inductionHypothesis =>
    obtain ⟨opened, run, stillOutside, stillOpen⟩ := readAll_opening derived outside
    obtain ⟨next, later, finally_, leftOpen⟩ := inductionHypothesis stillOutside stillOpen
    refine ⟨next, ?_, finally_, leftOpen⟩
    rw [← List.singleton_append, ← List.append_assoc, State.readAll_append, run]
    exact later

/-- Items and a bracket that is never closed: the source is scanned with brackets left open. Nothing
of it is an error yet; the error comes with the end of the source. -/
theorem scan_unclosed {inside after : List Char} {terms : List Term}
    (derived : Items false inside terms) (hanging : Hanging after) :
    ∃ state, scan (inside ++ '(' :: after) = .ok state ∧ state.openings ≠ [] := by
  obtain ⟨opened, run, outside, isOpen⟩ := @readAll_opening inside terms derived .initial rfl
  obtain ⟨next, later, stillOutside, leftOpen⟩ := readAll_hanging hanging outside isOpen
  have whole : State.initial.readAll (inside ++ '(' :: after) = .ok next := by
    rw [← List.singleton_append, ← List.append_assoc, State.readAll_append, run]
    exact later
  refine ⟨next, ?_, leftOpen⟩
  simp only [scan, whole, stillOutside]

/-! ## What the depth decides -/

/-- No atom stands outside of all brackets. -/
def AtomsInside (source : List Char) : Prop :=
  ∀ before c after, source = before ++ c :: after → StartsAtom before c → 0 < depth before

/-- Where no atom stands outside of all brackets, the pieces of the top level are lists and
dividers. A sign among them would start an atom, and the text in front of it, made of whole lists,
has the depth zero. -/
theorem topLists_of_atomsInside {source after : List Char} {pieces : List Piece}
    (laid : Laid [] pieces source) (inside : AtomsInside (source ++ after)) :
    ∃ forms, topLists pieces = .ok forms := by
  cases made : topLists pieces with
  | ok forms => exact ⟨forms, rfl⟩
  | error error =>
    obtain ⟨earlier, forms, sign, later, rfl, madeEarlier, rfl⟩ := topLists_error made
    obtain ⟨text, rest, rfl, laidText, laidRest⟩ := laid.split
    have apart := laidText.endsApart madeEarlier endsApart_nil
    cases laidRest with
    | @cons _ _ tail _ _ head _ _ =>
      cases head with
      | sign legal =>
        obtain ⟨⟨more, spelled⟩, _, starts⟩ := source_of_legal legal
        have parts : text ++ (sign.source ++ tail) ++ after =
            text ++ sign.first :: (more ++ tail ++ after) := by
          simp [spelled]
        have deep := inside text sign.first (more ++ tail ++ after) parts ⟨apart, starts⟩
        rw [laidText.covers.level.depth_eq] at deep
        exact absurd deep (by decide)

/-- The depth first becomes negative behind a level text. An earlier bracket would stand in a front
of that text, where the depth is never negative; a later one would not be the first. -/
theorem eq_of_first_negative {inside after before behind : List Char} (level : Level inside)
    (same : inside ++ ')' :: after = before ++ ')' :: behind) (never : NeverNegative before)
    (negative : depth (before ++ [')']) < 0) : before = inside := by
  rcases parts_cases same with ⟨between, rfl, _⟩ | ⟨rfl, _⟩ | ⟨between, rfl, _⟩
  · have front : inside ++ [')'] <+: inside ++ ')' :: between := ⟨between, by simp⟩
    have there := never _ front
    rw [depth_append level.unquoted, level.depth_eq] at there
    exact absurd there (by decide)
  · rfl
  · have front : before ++ [')'] <+: before ++ ')' :: between := ⟨between, by simp⟩
    have := level.neverNegative _ front
    omega

/-- A level text and one bracket too much bring the depth below zero at that bracket, whatever
follows. -/
theorem not_neverNegative_of_excess {inside : List Char} (level : Level inside)
    (after : List Char) : ¬ NeverNegative (inside ++ ')' :: after) := by
  intro never
  have there := never (inside ++ [')']) ⟨after, by simp⟩
  rw [depth_append level.unquoted, level.depth_eq] at there
  exact absurd there (by decide)

/-- A source whose runs are atoms is level and read as a list, or has a bracket too much, at which
the scan fails, or is scanned with brackets left open. These are the three outcomes of a sequence,
and the depth tells them apart. -/
theorem worded_cases {source : List Char} (worded : Worded source) :
    (Level source ∧ ∃ terms, readList source = .ok (.list terms)) ∨
    (∃ inside after, source = inside ++ ')' :: after ∧ Level inside ∧
      scan source = .error (.atMark .missingBracket (Mark.behind inside))) ∨
    (NeverNegative source ∧ 0 < depth source ∧
      ∃ state, scan source = .ok state ∧ state.openings ≠ []) := by
  have lexed := @Worded.lexed_behind [] source worded endsApart_nil
  cases lexed.outcome with
  | items derived => exact .inl ⟨derived.level, _, readList_of_items derived⟩
  | excess derived rest => exact .inr (.inl ⟨_, _, rfl, derived.level, scan_excess derived⟩)
  | unclosed derived hanging =>
    obtain ⟨state, scanned, isOpen⟩ := scan_unclosed derived hanging
    obtain ⟨never, depth⟩ := depth_of_scan scanned
    have some_ := List.length_pos_iff.mpr isOpen
    exact .inr (.inr ⟨never, by omega, state, scanned, isOpen⟩)

/-- What cannot be scanned can be read neither way, since both readings start with the scan and hand
on its error. -/
theorem readings_of_scan_error {source : List Char} {error : ParseError}
    (failed : scan source = .error error) :
    readList source = .error error ∧ readProgram source = .error error := by
  constructor
  · rw [readList, failed]
  · rw [readProgram, failed]

/-- With brackets left open, a list reports the innermost one. That is the first in the reader's
list of open brackets. -/
theorem readList_of_open {source : List Char} {state : State} (scanned : scan source = .ok state)
    (isOpen : state.openings ≠ []) :
    ∃ before after, Innermost source before after ∧
      readList source = .error (.atMark .unclosedBracket (Mark.behind before)) := by
  obtain ⟨opening, outer, openings⟩ := List.exists_cons_of_ne_nil isOpen
  obtain ⟨before, after, innermost, marked⟩ := innermost_of_scan scanned openings
  refine ⟨before, after, innermost, ?_⟩
  rw [readList, scanned]
  simp only [openings, marked]

/-- With brackets left open, a program reports the outermost one, unless an atom stands outside of
all brackets; then it reports the atom. The outermost one is the last in the reader's list of open
brackets, and the pieces in front of it are the top level. -/
theorem readProgram_of_open {source : List Char} {state : State} (scanned : scan source = .ok state)
    (isOpen : state.openings ≠ []) :
    ∃ before after, Outermost source before after ∧
      (AtomsInside source →
        readProgram source = .error (.atMark .unclosedBracket (Mark.behind before))) ∧
      ∃ error, readProgram source = .error error := by
  have bottom := List.getLast?_eq_some_getLast isOpen
  obtain ⟨before, after, outermost, marked, laid⟩ := outermost_of_scan scanned bottom
  refine ⟨before, after, outermost, ?_, ?_⟩
  · intro inside
    rw [outermost.parts] at inside
    obtain ⟨forms, made⟩ := topLists_of_atomsInside laid inside
    rw [readProgram, scanned]
    simp only [State.topLevel, bottom, made, marked]
  · rw [readProgram, scanned]
    simp only [State.topLevel, bottom]
    split
    · exact ⟨_, rfl⟩
    · exact ⟨_, rfl⟩

/-- A reading fails for want of more input. -/
def Incomplete (result : Except ParseError Term) : Prop :=
  ∃ error, result = .error error ∧ (Fault.parse error).isIncomplete = true

/-- Only a bracket that is never closed asks for more input. -/
theorem incomplete_iff {result : Except ParseError Term} :
    Incomplete result ↔ ∃ error, result = .error error ∧ error.kind = .unclosedBracket := by
  simp [Incomplete, Fault.isIncomplete, Fault.parseError?]

/-- A program asks for more input only where the list does. Both have then been scanned with
brackets left open, and only the bracket that they name differs. -/
theorem Incomplete.readList {source : List Char} (incomplete : Incomplete (readProgram source)) :
    Incomplete (readList source) := by
  obtain ⟨error, failed, unclosed⟩ := incomplete_iff.mp incomplete
  obtain ⟨inner, failedList, alike⟩ := unclosedBracket_of_readProgram failed unclosed
  exact incomplete_iff.mpr ⟨inner, failedList, alike⟩

/-- A depth that becomes negative is an error of the scan, at the bracket where it first does. Of
the three cases of a source only the one with a bracket too much has such a depth, and
`eq_of_first_negative` says that its bracket is this one. -/
theorem scan_of_negative {source before after : List Char} (worded : Worded source)
    (parts : source = before ++ ')' :: after) (never : NeverNegative before)
    (negative : depth (before ++ [')']) < 0) :
    scan source = .error (.atMark .missingBracket (Mark.behind before)) := by
  have front : before ++ [')'] <+: source := ⟨after, by simp [parts]⟩
  rcases worded_cases worded with
    ⟨level, _⟩ | ⟨inside, rest, same, level, failed⟩ | ⟨neverAtAll, _⟩
  · have := level.neverNegative _ front
    omega
  · rw [eq_of_first_negative level (same.symm.trans parts) never negative]
    exact failed
  · have := neverAtAll _ front
    omega

/-- A depth that ends above zero is no error of the scan, and leaves brackets open. A level source
would end at zero, and one with a bracket too much would be negative there. -/
theorem scan_of_positive {source : List Char} (worded : Worded source)
    (never : NeverNegative source) (positive : 0 < depth source) :
    ∃ state, scan source = .ok state ∧ state.openings ≠ [] := by
  rcases worded_cases worded with ⟨level, _⟩ | ⟨inside, rest, rfl, level, _⟩ | ⟨_, _, scanned⟩
  · have := level.depth_eq
    omega
  · exact absurd never (not_neverNegative_of_excess level rest)
  · exact scanned

/-- A depth that is never negative and ends at zero is no error of a list, since only a level source
has such a depth. -/
theorem readList_of_flat {source : List Char} (worded : Worded source)
    (never : NeverNegative source) (flat : depth source = 0) :
    ∃ term, readList source = .ok term := by
  rcases worded_cases worded with
    ⟨_, terms, read⟩ | ⟨inside, rest, rfl, level, _⟩ | ⟨_, positive, _⟩
  · exact ⟨_, read⟩
  · exact absurd never (not_neverNegative_of_excess level rest)
  · omega

/-- A list asks for more input only when the depth ends above zero. A level source is read, and a
bracket too much is another error. -/
theorem open_of_incomplete {source : List Char} (worded : Worded source)
    (incomplete : Incomplete (readList source)) : NeverNegative source ∧ 0 < depth source := by
  obtain ⟨error, failed, unclosed⟩ := incomplete_iff.mp incomplete
  rcases worded_cases worded with
    ⟨_, terms, read⟩ | ⟨inside, rest, _, _, scanFailed⟩ | ⟨never, positive, _⟩
  · rw [read] at failed
    cases failed
  · rw [(readings_of_scan_error scanFailed).1] at failed
    cases failed
    cases unclosed
  · exact ⟨never, positive⟩

/-- Errors of brackets are exact, where nothing else is wrong. If the running depth first becomes
negative at some bracket, that is the error. If it ends above zero, a list reports the innermost
bracket that is left open, and a program the outermost one, unless an atom stands outside of all
brackets; no open bracket is closed silently. Otherwise the list is read. More input is asked for
exactly in the second case. -/
theorem bracket_errors_are_exact {source : List Char} (worded : Worded source) :
    (∀ before after, source = before ++ ')' :: after → NeverNegative before →
      depth (before ++ [')']) < 0 →
        readList source = .error (.atMark .missingBracket (Mark.behind before)) ∧
        readProgram source = .error (.atMark .missingBracket (Mark.behind before))) ∧
    (NeverNegative source → 0 < depth source →
      (∃ before after, Innermost source before after ∧
        readList source = .error (.atMark .unclosedBracket (Mark.behind before))) ∧
      (∃ before after, Outermost source before after ∧
        (AtomsInside source →
          readProgram source = .error (.atMark .unclosedBracket (Mark.behind before)))) ∧
      ∀ term, readProgram source ≠ .ok term) ∧
    (NeverNegative source → depth source = 0 → ∃ term, readList source = .ok term) ∧
    (Incomplete (readList source) ↔ NeverNegative source ∧ 0 < depth source) ∧
    (Incomplete (readProgram source) → NeverNegative source ∧ 0 < depth source) ∧
    (AtomsInside source → NeverNegative source ∧ 0 < depth source →
      Incomplete (readProgram source)) := by
  refine ⟨?_, ?_, readList_of_flat worded, ⟨open_of_incomplete worded, ?_⟩, ?_, ?_⟩
  · intro before after parts never negative
    exact readings_of_scan_error (scan_of_negative worded parts never negative)
  · intro never positive
    obtain ⟨state, scanned, isOpen⟩ := scan_of_positive worded never positive
    obtain ⟨before, after, outermost, failed, error, someError⟩ :=
      readProgram_of_open scanned isOpen
    refine ⟨readList_of_open scanned isOpen, ⟨before, after, outermost, failed⟩, ?_⟩
    intro term read
    rw [someError] at read
    cases read
  · rintro ⟨never, positive⟩
    obtain ⟨state, scanned, isOpen⟩ := scan_of_positive worded never positive
    obtain ⟨before, after, _, failed⟩ := readList_of_open scanned isOpen
    exact incomplete_iff.mpr ⟨_, failed, rfl⟩
  · intro incomplete
    exact open_of_incomplete worded incomplete.readList
  · rintro inside ⟨never, positive⟩
    obtain ⟨state, scanned, isOpen⟩ := scan_of_positive worded never positive
    obtain ⟨before, after, _, failed, _⟩ := readProgram_of_open scanned isOpen
    exact incomplete_iff.mpr ⟨_, failed inside, rfl⟩

/-- Two lists that are never closed; a bracket in a string does not count. -/
theorem bracket_errors_of_nested_lists :
    let source : List Char := "(\"(\" (b".toList
    Worded source ∧ NeverNegative source ∧ 0 < depth source ∧ AtomsInside source ∧
      (∃ before after, Innermost source before after ∧
        readList source = .error (.atMark .unclosedBracket (Mark.behind before))) ∧
      (∃ before after, Outermost source before after ∧
        readProgram source = .error (.atMark .unclosedBracket (Mark.behind before))) ∧
      Incomplete (readProgram source) := by
  intro source
  have worded : Worded source := by
    refine .of_atoms ["\"(\"".toList, ['b']] ?_ (by decide) (by decide)
    refine List.forall_mem_cons.mpr ⟨⟨_, @Atom.quoted ['('] (by decide)⟩, ?_⟩
    refine List.forall_mem_singleton.mpr ⟨_, .bare (.str ?_ ?_ ?_ ?_)⟩
    all_goals decide
  obtain ⟨state, scanned⟩ : ∃ state, scan source = .ok state := ⟨_, rfl⟩
  have never := (depth_of_scan scanned).1
  have positive : 0 < depth source := by decide
  have atoms : AtomsInside source := by
    have deep : ∀ size : Fin 7, size ≠ 0 → 0 < depth (source.take size) := by decide
    intro before c after parts starts
    have lengths := congrArg List.length parts
    rw [List.length_append, List.length_cons] at lengths
    have front : source.take before.length = before := by simp [parts]
    cases before with
    | nil =>
      obtain ⟨rfl, _⟩ := List.cons.inj parts
      exact absurd starts.2 (by decide)
    | cons first more =>
      have found := deep ⟨(first :: more).length, by simp [source] at lengths ⊢; omega⟩ (by simp)
      rwa [front] at found
  obtain ⟨_, whenOpen, _, _, _, incomplete⟩ := bracket_errors_are_exact worded
  obtain ⟨innermost, ⟨before, after, outermost, failed⟩, _⟩ := whenOpen never positive
  exact ⟨worded, never, positive, atoms, innermost, ⟨before, after, outermost, failed atoms⟩,
    incomplete atoms ⟨never, positive⟩⟩

end Reader

end TermLang
