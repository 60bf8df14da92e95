import TermLang.Fault.Snippet
import TermLang.Proofs.Reader.Soundness

/-!
# What errors say of their characters

A mark counts lines, and columns that run on across lines; the mark of a character is fixed by the
text in front of it. An error that has the mark of a character says something of that character, by
its kind: the code point of an invalid one, a bracket, the start of a run that is found there as a
whole, or the start of an atom.

Runs become atoms only when the list around them is closed, so that most errors are about pieces.
Pieces laid behind a text are marked by what stands in front of them; whichever of them is the
error, it points at a character they were made of.

Whether pieces give an error at all, and which one of several, is not said here.
-/

namespace TermLang

/-- The mark of a character behind a text. -/
def Mark.behind (before : List Char) : Mark :=
  ⟨(Text.lines before).length, (Text.lines before).flatten.length + 1⟩

/-! ## What an error says -/

open Reader Grammar

/-- Nothing, a blank or a bracket stands at the end of a text, outside of quotes. -/
def EndsApart (before : List Char) : Prop :=
  (∀ last ∈ before.getLast?, isDivider last = true ∨ last = '(' ∨ last = ')') ∧
    before.count '"' % 2 = 0

/-- A character is the first one of an atom. -/
def StartsAtom (before : List Char) (c : Char) : Prop :=
  EndsApart before ∧ (isSignChar c = true ∨ c = '"')

namespace ParseError

/-- What an error says of the character `c` that stands between two texts. -/
def Offends (error : ParseError) (before : List Char) (c : Char) (after : List Char) : Prop :=
  match error.kind with
  | .invalidCharacter => error.code = c.toNat
  | .unclosedBracket => c = '('
  | .missingBracket => c = ')'
  | .invalidSymbol => error.text ≠ "" ∧ error.text.toList <+: c :: after
  | .other => StartsAtom before c ∧
      (error.text = "atom outside of a list" ∧ (∃ forms, Program before forms) ∨
        ∃ numeral decimal, Numeral numeral decimal ∧ decimal.toFloat? = none ∧
          numeral <+: c :: after ∧
            error.text = "bad number " ++ Text.quoted (String.ofList numeral))

/-- An error is marked at the character it is about. -/
structure PointsAt (error : ParseError) (before : List Char) (c : Char) (after : List Char) :
    Prop where
  inline : c ≠ '\n'
  line : error.line = (Mark.behind before).line
  column : error.column = (Mark.behind before).column
  offends : error.Offends before c after

/-- An error points into a text that stands behind another one. -/
def PointsInto (error : ParseError) (before text : List Char) : Prop :=
  ∃ earlier c later, text = earlier ++ c :: later ∧ error.PointsAt (before ++ earlier) c later

namespace PointsInto

variable {error : ParseError} {before text : List Char}

/-- An error with the mark of a character points at that character, if it says of it what an error
of its kind should. -/
theorem of_mark {mark : Mark} {c : Char} {after : List Char} (marked : mark = Mark.behind before)
    (line : error.line = mark.line) (column : error.column = mark.column) (inline : c ≠ '\n')
    (offends : error.Offends before c after) : error.PointsInto before (c :: after) := by
  subst marked
  refine ⟨[], c, after, rfl, inline, ?_, ?_, ?_⟩
  · simpa using line
  · simpa using column
  · simpa using offends

/-- What is read later does not change what an error points at: the errors that quote the source
quote a beginning of what follows, and more may follow. -/
theorem append (points : error.PointsInto before text) (more : List Char) :
    error.PointsInto before (text ++ more) := by
  obtain ⟨earlier, c, later, rfl, inline, line, column, offends⟩ := points
  refine ⟨earlier, c, later ++ more, by simp, inline, line, column, ?_⟩
  unfold Offends at offends ⊢
  cases kind : error.kind with
  | invalidCharacter => simpa [kind] using offends
  | unclosedBracket => simpa [kind] using offends
  | missingBracket => simpa [kind] using offends
  | invalidSymbol =>
    simp only [kind] at offends
    exact ⟨offends.1, offends.2.trans (List.prefix_append (c :: later) more)⟩
  | other =>
    simp only [kind] at offends
    obtain ⟨starts, outside | ⟨numeral, decimal, spelled, far, found, text⟩⟩ := offends
    · exact ⟨starts, .inl outside⟩
    · exact ⟨starts, .inr ⟨numeral, decimal, spelled, far,
        found.trans (List.prefix_append (c :: later) more), text⟩⟩

/-- What stands in front may be counted to either side, as part of the text that is pointed into or
as standing in front of it. -/
theorem behind {middle : List Char} (points : error.PointsInto (before ++ middle) text) :
    error.PointsInto before (middle ++ text) := by
  obtain ⟨earlier, c, later, rfl, pointsAt⟩ := points
  exact ⟨middle ++ earlier, c, later, by simp, by simpa using pointsAt⟩

/-- What points into the end of a text points into the text, with nothing in front. -/
theorem whole (points : error.PointsInto before text) : error.PointsInto [] (before ++ text) := by
  apply behind
  exact points

end PointsInto

end ParseError

namespace Reader

open ParseError

/-! ## Runs -/

/-- Every sign of a run behind a text is marked by what stands in front of it. -/
def Marked : (before : List Char) → List Sign → Prop
  | _, [] => True
  | before, sign :: rest =>
    SignLegal sign ∧ sign.mark = Mark.behind before ∧ Marked (before ++ sign.source) rest

/-- A sign starts with a character that can start an atom, and is no newline. A plain sign is that
character alone; a quoted text starts with its quote. -/
theorem source_of_legal {sign : Sign} (legal : SignLegal sign) :
    (∃ more, sign.source = sign.first :: more) ∧ sign.first ≠ '\n' ∧
      (isSignChar sign.first = true ∨ sign.first = '"') := by
  cases sign with
  | char c mark =>
    refine ⟨⟨[], rfl⟩, ?_, .inl legal⟩
    rintro rfl
    have newlineLegal : isSignChar '\n' = true := legal
    exact absurd newlineLegal (by decide)
  | quoted text mark =>
    have quoteInline : '"' ≠ '\n' := by decide
    exact ⟨⟨text ++ ['"'], rfl⟩, quoteInline, .inr rfl⟩

/-- An error is about one sign of a run. -/
def AtSign (signs : List Sign) (error : ParseError) : Prop :=
  ∃ sign ∈ signs, error = .invalidSign sign

/-- The first sign of a run may be what an error is about. -/
theorem AtSign.head (sign : Sign) (rest : List Sign) : AtSign (sign :: rest) (.invalidSign sign) :=
  ⟨sign, List.mem_cons_self, rfl⟩

/-- What is about a sign of the rest of a run is about a sign of the run. -/
theorem AtSign.tail {sign : Sign} {rest : List Sign} {error : ParseError}
    (atSign : AtSign rest error) : AtSign (sign :: rest) error := by
  obtain ⟨other, member, same⟩ := atSign
  exact ⟨other, List.mem_cons_of_mem sign member, same⟩

/-- An error at a sign of a run points at the first character of that sign. The induction is on the
signs in front of it, whose spelling is what stands between. -/
theorem Marked.atSign {before : List Char} {signs : List Sign} {error : ParseError}
    (marked : Marked before signs) (atSign : AtSign signs error) :
    error.PointsInto before (spelling signs) := by
  obtain ⟨sign, member, rfl⟩ := atSign
  induction signs generalizing before with
  | nil => cases member
  | cons first rest inductionHypothesis =>
    obtain ⟨legal, mark, restMarked⟩ := marked
    cases member with
    | head =>
      obtain ⟨⟨more, source⟩, inline, _⟩ := source_of_legal legal
      have spelled : spelling (sign :: rest) = sign.first :: (more ++ spelling rest) := by
        simp [spelling, source]
      rw [spelled]
      exact .of_mark mark rfl rfl inline rfl
    | tail _ later =>
      have points := (inductionHypothesis restMarked later).behind
      simpa [spelling] using points

/-- A mapped result fails exactly as the result does. -/
theorem map_error_iff {ε α β : Type} (change : α → β) (result : Except ε α) (error : ε) :
    result.map change = .error error ↔ result = .error error := by
  cases result <;> simp [Except.map]

/-- The error of a word is about one of its signs: the first that may not stand in a word. A quoted
text may not, whatever it holds. -/
theorem word_error {signs : List Sign} {error : ParseError} (failed : word signs = .error error) :
    AtSign signs error := by
  induction signs with
  | nil => cases failed
  | cons sign rest inductionHypothesis =>
    cases sign with
    | quoted text mark =>
      cases failed
      exact .head _ rest
    | char c mark =>
      simp only [word] at failed
      split at failed
      · exact .tail (inductionHypothesis ((map_error_iff _ _ _).mp failed))
      · cases failed
        exact .head _ rest

/-- The error of a numeral is about one of its signs: the first that is no digit, or a second point.
-/
theorem numeral_error {pointSeen : Bool} {signs : List Sign} {error : ParseError}
    (failed : numeral pointSeen signs = .error error) : AtSign signs error := by
  induction signs generalizing pointSeen with
  | nil => cases failed
  | cons sign rest inductionHypothesis =>
    cases sign with
    | quoted text mark =>
      cases failed
      exact .head _ rest
    | char c mark =>
      simp only [numeral] at failed
      split at failed
      · exact .tail (inductionHypothesis ((map_error_iff _ _ _).mp failed))
      split at failed
      · exact .tail (inductionHypothesis ((map_error_iff _ _ _).mp failed))
      · cases failed
        exact .head _ rest

/-- The error of a number is about one of its signs, or there is no double near it. In the second
case all signs are digits, so the whole run is a numeral, and the error quotes it. -/
theorem numberAtom_error {negative : Bool} {mark : Mark} {signs : List Sign} {error : ParseError}
    (failed : numberAtom negative mark signs = .error error) :
    AtSign signs error ∨
      ∃ text, Plain signs text ∧ NumeralTail false text ∧
        (decimalOf negative text).toFloat? = none ∧
          error = .otherAt mark
            ("bad number " ++ Text.quoted (String.ofList (Number.signOf negative ++ text))) := by
  simp only [numberAtom, bind, Except.bind] at failed
  split at failed
  · rename_i inner spelled
    cases failed
    exact .inl (numeral_error spelled)
  · rename_i text spelled
    split at failed
    · cases failed
    · rename_i far
      obtain ⟨plain, tail⟩ := (numeral_ok_iff _ _ _).mp spelled
      cases failed
      refine .inr ⟨text, plain, tail, far, ?_⟩
      cases negative <;> rfl

/-- A run that is no operator is the error as a whole, since none of its signs is wrong by itself.
-/
theorem operatorAtom_error {first : Sign} {rest : List Sign} {error : ParseError}
    (failed : operatorAtom first rest = .error error) : error = .invalidRun first rest := by
  simp only [operatorAtom] at failed
  split at failed
  · split at failed
    · cases failed
    · split at failed
      · cases failed
      · cases failed
        rfl
  · cases failed
    rfl

/-- What is wrong with a run that is no atom: one of its signs, or the run as a whole, or it is a
numeral with no double near it.

Proof: the first sign decides which kind of atom is tried, and each kind has its own lemma above. A
minus sign in front of a digit belongs to the numeral that the error quotes. -/
theorem atom_error {first : Sign} {rest : List Sign} {error : ParseError}
    (failed : atom first rest = .error error) :
    AtSign (first :: rest) error ∨ error = .invalidRun first rest ∨
      ∃ numeral decimal, Numeral numeral decimal ∧ decimal.toFloat? = none ∧
        spelling (first :: rest) = numeral ∧
          error = .otherAt first.mark
            ("bad number " ++ Text.quoted (String.ofList numeral)) := by
  cases first with
  | quoted text mark =>
    cases rest with
    | nil => cases failed
    | cons next more =>
      cases failed
      exact .inl (.tail (.head next more))
  | char c mark =>
    simp only [atom] at failed
    split at failed
    · rename_i digit
      obtain atSign | ⟨text, plain, tail, far, rfl⟩ := numberAtom_error failed
      · exact .inl atSign
      · have spelled := plain.spelling_eq
        obtain ⟨_, _, more, same, _, rfl⟩ := (plain_cons_iff _ _ _).mp plain
        cases same
        have numeral := (numeral_iff (c :: more) _).mpr ⟨false, c, more, rfl, digit, tail, rfl⟩
        exact .inr (.inr ⟨c :: more, _, numeral, far, spelled, rfl⟩)
    split at failed
    · exact .inl (word_error ((map_error_iff _ _ _).mp failed))
    split at failed
    · exact .inl (word_error ((map_error_iff _ _ _).mp failed))
    split at failed
    · split at failed
      · -- A point alone is no keyword, and the run as a whole is wrong.
        cases failed
        exact .inr (.inl rfl)
      · exact .inl (.tail (word_error ((map_error_iff _ _ _).mp failed)))
    split at failed
    · exact .inl (word_error ((map_error_iff _ _ _).mp failed))
    split at failed
    · rename_i minus
      obtain ⟨rfl, beforeDigit⟩ := minus
      obtain atSign | ⟨text, plain, tail, far, rfl⟩ := numberAtom_error failed
      · exact .inl (.tail atSign)
      · have spelled : spelling (.char '-' mark :: rest) = '-' :: text := by
          rw [← plain.spelling_eq]
          rfl
        cases rest with
        | nil => exact absurd beforeDigit (by decide)
        | cons sign signs =>
          obtain ⟨digit, _, more, rfl, _, rfl⟩ := (plain_cons_iff _ _ _).mp plain
          have numeral := (numeral_iff ('-' :: digit :: more) _).mpr
            ⟨true, digit, more, rfl, beforeDigit, tail, rfl⟩
          exact .inr (.inr ⟨_, _, numeral, far, spelled, rfl⟩)
    · exact .inr (.inl (operatorAtom_error failed))

/-- The error of a run points into the run. If it is about the whole run, it points at the first
sign, where the run was marked and where an atom could start. -/
theorem Marked.atom {before : List Char} {first : Sign} {rest : List Sign} {error : ParseError}
    (apart : EndsApart before) (marked : Marked before (first :: rest))
    (failed : atom first rest = .error error) :
    error.PointsInto before (spelling (first :: rest)) := by
  have ⟨legal, mark, _⟩ := marked
  obtain ⟨⟨more, source⟩, inline, starts⟩ := source_of_legal legal
  have spelled : spelling (first :: rest) = first.first :: (more ++ spelling rest) := by
    simp [spelling, source]
  obtain atSign | rfl | ⟨numeral, decimal, isNumeral, far, same, rfl⟩ := atom_error failed
  · exact marked.atSign atSign
  · have whole : (ParseError.invalidRun first rest).text.toList = spelling (first :: rest) := by
      simp [ParseError.invalidRun, spelling]
    rw [spelled] at whole ⊢
    refine .of_mark mark rfl rfl inline ⟨?_, whole ▸ List.prefix_rfl⟩
    intro empty
    simp [empty] at whole
  · rw [spelled] at same ⊢
    refine .of_mark mark rfl rfl inline
      ⟨⟨apart, starts⟩, .inr ⟨numeral, decimal, isNumeral, far, ?_, rfl⟩⟩
    exact same ▸ List.prefix_rfl

/-! ## Pieces -/

/-- Pieces in order behind a text, the characters they were made of, and each sign marked by what
stands in front of it. -/
inductive Laid : (before : List Char) → List Piece → List Char → Prop where
  | nil (before : List Char) : Laid before [] []
  | cons {before chunk source : List Char} {piece : Piece} {pieces : List Piece}
      (head : PieceCovers piece chunk)
      (marked : ∀ sign, piece = .sign sign → sign.mark = Mark.behind before)
      (tail : Laid (before ++ chunk) pieces source) :
      Laid before (piece :: pieces) (chunk ++ source)

namespace Laid

variable {before source : List Char} {pieces : List Piece}

/-- Without the marks, pieces cover their characters, so that what is known of covers holds of laid
pieces. -/
theorem covers (laid : Laid before pieces source) : Covers pieces source := by
  induction laid with
  | nil => exact .nil
  | cons head _ _ inductionHypothesis => exact .cons head inductionHypothesis

/-- A piece behind others is laid if it is marked by all that stands in front of it. The induction
is on the earlier pieces. -/
theorem snoc {piece : Piece} {chunk : List Char} (laid : Laid before pieces source)
    (last : PieceCovers piece chunk)
    (marked : ∀ sign, piece = .sign sign → sign.mark = Mark.behind (before ++ source)) :
    Laid before (pieces ++ [piece]) (source ++ chunk) := by
  induction laid with
  | nil before =>
    have single := Laid.cons last (by simpa using marked) (.nil (before ++ chunk))
    simpa using single
  | cons head headMarked tail inductionHypothesis =>
    rw [List.append_assoc]
    refine .cons head headMarked (inductionHypothesis ?_)
    simpa using marked

/-- Some pieces and those behind them are laid one behind the other, and so the source falls into
two parts. -/
theorem split {earlier later : List Piece} (laid : Laid before (earlier ++ later) source) :
    ∃ text rest, source = text ++ rest ∧ Laid before earlier text ∧
      Laid (before ++ text) later rest := by
  induction earlier generalizing before source with
  | nil => exact ⟨[], source, rfl, .nil before, by simpa using laid⟩
  | cons piece others inductionHypothesis =>
    cases laid with
    | cons head marked tail =>
      obtain ⟨text, rest, rfl, laidText, laidRest⟩ := inductionHypothesis tail
      refine ⟨_ ++ text, rest, by simp, .cons head marked laidText, by simpa using laidRest⟩

/-- Pieces that start with a sign start with a whole run. Signs are taken up to the first piece that
is none, or to the end, and their marks make the run a marked one. -/
theorem run {sign : Sign} (laid : Laid before (.sign sign :: pieces) source) :
    ∃ more others rest, pieces = more.map .sign ++ others ∧ StartsApart others ∧
      Marked before (sign :: more) ∧ source = spelling (sign :: more) ++ rest ∧
        Laid (before ++ spelling (sign :: more)) others rest := by
  induction pieces generalizing before sign source with
  | nil =>
    cases laid with
    | @cons _ _ rest _ _ head marked tail =>
      cases head with
      | sign legal =>
        refine ⟨[], [], rest, rfl, fun _ _ => by simp, ⟨legal, marked sign rfl, trivial⟩, ?_, ?_⟩
        · simp [spelling]
        · simpa [spelling] using tail
  | cons piece others inductionHypothesis =>
    cases laid with
    | @cons _ _ tailSource _ _ head marked tail =>
      cases head with
      | sign legal =>
        by_cases continued : ∃ next, piece = .sign next
        · obtain ⟨next, rfl⟩ := continued
          obtain ⟨more, remaining, rest, rfl, apart, restMarked, rfl, restLaid⟩ :=
            inductionHypothesis tail
          refine ⟨next :: more, remaining, rest, rfl, apart, ⟨legal, marked sign rfl, restMarked⟩,
            ?_, ?_⟩
          · simp [spelling]
          · simpa [spelling] using restLaid
        · refine ⟨[], piece :: others, tailSource, rfl, ?_, ⟨legal, marked sign rfl, trivial⟩,
            by simp [spelling], by simpa [spelling] using tail⟩
          rintro next rest same
          cases same
          exact continued ⟨next, rfl⟩

end Laid

/-! ## Quotes come in pairs -/

/-- A blank is no quote. -/
theorem ne_quote_of_divider {c : Char} (divides : isDivider c = true) : c ≠ '"' := by
  rintro rfl
  exact absurd divides (by decide)

/-- Signs other than quoted texts hold no quote. -/
theorem count_quotes_of_signs {text : List Char} (signs : ∀ c ∈ text, isSignChar c = true) :
    text.count '"' = 0 := by
  rw [List.count_eq_zero]
  intro member
  exact absurd (signs '"' member) (by decide)

/-- The spelling of an atom holds two quotes or none: two around a quoted text, and none in a bare
atom. -/
theorem even_quotes_of_atom {text : List Char} {term : Term} (spelled : Atom text term) :
    text.count '"' % 2 = 0 := by
  cases spelled with
  | quoted unquoted => simp [List.count_eq_zero.mpr unquoted]
  | bare bare => simp [count_quotes_of_signs (signChar_of_bare bare).2]

/-- Quotes come in pairs in a sequence of items. The induction follows its derivation; neither
blanks nor brackets are quotes. -/
theorem even_quotes_of_items {touching : Bool} {source : List Char} {terms : List Term}
    (derived : Items touching source terms) : source.count '"' % 2 = 0 := by
  induction derived with
  | done => rfl
  | blank touching divides rest inductionHypothesis =>
    rw [List.count_cons_of_ne (ne_quote_of_divider divides)]
    exact inductionHypothesis
  | atom spelled rest inductionHypothesis =>
    have first := even_quotes_of_atom spelled
    rw [List.count_append]
    omega
  | list touching body rest bodyEven restEven =>
    rw [List.count_cons_of_ne (by decide), List.count_append, List.count_cons_of_ne (by decide)]
    omega

/-- Quotes come in pairs in a sign. A plain sign is no quote, and a quoted text holds none but the
two around it. -/
theorem even_quotes_of_legal {sign : Sign} (legal : SignLegal sign) :
    sign.source.count '"' % 2 = 0 := by
  cases sign with
  | char c mark =>
    have signs : ∀ d ∈ [c], isSignChar d = true := by
      intro d member
      exact List.mem_singleton.mp member ▸ legal
    simp [Sign.source, count_quotes_of_signs signs]
  | quoted text mark =>
    have unquoted : '"' ∉ text := legal
    simp [Sign.source, List.count_eq_zero.mpr unquoted]

/-- Quotes come in pairs in a run, since they do in each of its signs. -/
theorem Marked.even_quotes {before : List Char} {signs : List Sign} (marked : Marked before signs) :
    (spelling signs).count '"' % 2 = 0 := by
  induction signs generalizing before with
  | nil => rfl
  | cons sign rest inductionHypothesis =>
    obtain ⟨legal, _, restMarked⟩ := marked
    have first := even_quotes_of_legal legal
    have others := inductionHypothesis restMarked
    simp only [spelling, List.flatMap_cons, List.count_append] at others ⊢
    omega

/-- Quotes come in pairs in what a piece covers. -/
theorem PieceCovers.even_quotes {piece : Piece} {chunk : List Char}
    (covers : PieceCovers piece chunk) : chunk.count '"' % 2 = 0 := by
  cases covers with
  | divider divides => simp [List.count_cons_of_ne (ne_quote_of_divider divides)]
  | sign legal => exact even_quotes_of_legal legal
  | list body => simpa [List.count_cons] using even_quotes_of_items body

/-- Quotes come in pairs in what pieces cover, since they do in what each of them covers. -/
theorem Covers.even_quotes {pieces : List Piece} {source : List Char}
    (covers : Covers pieces source) : source.count '"' % 2 = 0 := by
  induction covers with
  | nil => rfl
  | cons head tail inductionHypothesis =>
    have first := head.even_quotes
    rw [List.count_append]
    omega

/-- Behind a divider or a list an atom can start: the last character is a blank or a closing
bracket, and no string is open. -/
theorem PieceCovers.endsApart {before chunk : List Char} {piece : Piece}
    (covers : PieceCovers piece chunk) (noSign : ∀ sign, piece ≠ .sign sign)
    (even : before.count '"' % 2 = 0) : EndsApart (before ++ chunk) := by
  constructor
  · intro last isLast
    cases covers with
    | divider divides =>
      rw [List.getLast?_concat] at isLast
      cases isLast
      exact .inl divides
    | sign legal => exact absurd rfl (noSign _)
    | @list inside terms body =>
      have closed : before ++ '(' :: (inside ++ [')']) = (before ++ '(' :: inside) ++ [')'] := by
        simp
      rw [closed, List.getLast?_concat] at isLast
      cases isLast
      exact .inr (.inr rfl)
  · have added := covers.even_quotes
    rw [List.count_append]
    omega

/-! ## Errors of pieces -/

/-- A finished list is never the error, so what is wrong is wrong with the other pieces. -/
theorem items_list_error_iff (term : Term) (pieces : List Piece) (error : ParseError) :
    items (.list term :: pieces) = .error error ↔ items pieces = .error error := by
  simp only [items, segments, List.mapM_cons, Segment.term, bind, Except.bind, pure, Except.pure]
  cases (segments pieces).mapM Segment.term <;> simp

/-- The first run that is no atom is the error. If the first run is an atom, the error is one of
what is behind it. -/
theorem items_run_error {first : Sign} {more : List Sign} {pieces : List Piece}
    {error : ParseError} (apart : StartsApart pieces)
    (failed : items ((first :: more).map .sign ++ pieces) = .error error) :
    atom first more = .error error ∨ items pieces = .error error := by
  simp only [items, segments_run first more apart, List.mapM_cons, Segment.term, bind, Except.bind,
    pure, Except.pure] at failed
  cases isAtom : atom first more with
  | error inner =>
    simp only [isAtom, Except.error.injEq] at failed
    exact .inl (by rw [failed])
  | ok term =>
    refine .inr ?_
    cases rest : (segments pieces).mapM Segment.term with
    | error inner => simpa [isAtom, rest, items] using failed
    | ok terms => simp [isAtom, rest] at failed

/-- The error of the items of a list points into their characters. The induction is on the number
of pieces, since a run takes several of them at once; behind a run no other one can start. -/
theorem Laid.items_error {before source : List Char} {pieces : List Piece} {error : ParseError}
    (laid : Laid before pieces source) (failed : items pieces = .error error)
    (even : before.count '"' % 2 = 0) (apart : EndsApart before ∨ StartsApart pieces) :
    error.PointsInto before source := by
  induction length : pieces.length using Nat.strongRecOn generalizing before source pieces with
  | ind size inductionHypothesis =>
    cases laid with
    | nil => cases failed
    | @cons _ chunk rest piece others head marked tail =>
      have fewer : others.length < size := by simp [← length]
      cases head with
      | divider divides =>
        have divided := PieceCovers.endsApart (.divider divides) (by simp) even
        exact (inductionHypothesis others.length fewer tail failed divided.2 (.inl divided)
          rfl).behind
      | list body =>
        have closed := PieceCovers.endsApart (.list body) (by simp) even
        have failedRest := (items_list_error_iff _ _ _).mp failed
        exact (inductionHypothesis others.length fewer tail failedRest closed.2 (.inl closed)
          rfl).behind
      | @sign sign legal =>
        obtain separated | impossible := apart
        · obtain ⟨run, remaining, restSource, rfl, restApart, runMarked, covered, restLaid⟩ :=
            Laid.run (Laid.cons (PieceCovers.sign legal) marked tail)
          rw [covered]
          obtain failedRun | failedRest := items_run_error restApart failed
          · exact (runMarked.atom separated failedRun).append restSource
          · have shorter : remaining.length < size := by
              simp only [List.length_append, List.length_map] at fewer
              omega
            have evenRun := runMarked.even_quotes
            refine (inductionHypothesis remaining.length shorter restLaid failedRest ?_
              (.inr restApart) rfl).behind
            rw [List.count_append]
            omega
        · exact absurd rfl (impossible sign others)

/-- The error of a top level is about its first sign; in front of that stands a program. The
induction is on the pieces, and dividers and lists are passed. -/
theorem topLists_error {pieces : List Piece} {error : ParseError}
    (failed : topLists pieces = .error error) :
    ∃ earlier forms sign later, pieces = earlier ++ .sign sign :: later ∧
      topLists earlier = .ok forms ∧ error = .otherAt sign.mark "atom outside of a list" := by
  induction pieces with
  | nil => cases failed
  | cons piece others inductionHypothesis =>
    cases piece with
    | divider =>
      obtain ⟨earlier, forms, sign, later, rfl, made, rfl⟩ := inductionHypothesis failed
      exact ⟨.divider :: earlier, forms, sign, later, rfl, made, rfl⟩
    | list term =>
      obtain ⟨earlier, forms, sign, later, rfl, made, rfl⟩ :=
        inductionHypothesis ((map_error_iff _ _ _).mp failed)
      refine ⟨.list term :: earlier, term :: forms, sign, later, rfl, ?_, rfl⟩
      simp [topLists, made, Except.map]
    | sign sign =>
      cases failed
      exact ⟨[], [], sign, others, rfl, rfl, rfl⟩

/-- Behind dividers and lists an atom can start, if one could start in front of them. The induction
is on the pieces, none of which is a sign, because forms were made of them. -/
theorem Laid.endsApart {before source : List Char} {pieces : List Piece} {forms : List Term}
    (laid : Laid before pieces source) (made : topLists pieces = .ok forms)
    (apart : EndsApart before) : EndsApart (before ++ source) := by
  induction laid generalizing forms with
  | nil => simpa using apart
  | cons head marked tail inductionHypothesis =>
    rw [← List.append_assoc]
    cases head with
    | divider divides =>
      exact inductionHypothesis made (PieceCovers.endsApart (.divider divides) (by simp) apart.2)
    | sign legal => cases made
    | list body =>
      obtain ⟨rest, madeRest, _⟩ := (map_ok_iff _ _ _).mp made
      exact inductionHypothesis madeRest (PieceCovers.endsApart (.list body) (by simp) apart.2)

/-- An atom can start at the beginning, where nothing stands in front and no string is open. -/
theorem endsApart_nil : EndsApart [] :=
  ⟨by simp, rfl⟩

/-- An atom outside of a list is pointed at. It is the first sign of the top level; the pieces in
front of it cover a program, behind which an atom can start. -/
theorem Laid.topLists_error {source : List Char} {pieces : List Piece} {error : ParseError}
    (laid : Laid [] pieces source) (failed : topLists pieces = .error error) :
    error.PointsInto [] source := by
  obtain ⟨earlier, forms, sign, later, rfl, made, rfl⟩ := Reader.topLists_error failed
  obtain ⟨text, rest, rfl, laidText, laidRest⟩ := laid.split
  have program := laidText.covers.program made
  have apart := laidText.endsApart made endsApart_nil
  cases laidRest with
  | @cons _ _ tail _ _ head marked _ =>
    cases head with
    | sign legal =>
      obtain ⟨⟨more, source⟩, inline, starts⟩ := source_of_legal legal
      rw [source, List.cons_append]
      refine PointsInto.behind (.of_mark (marked sign rfl) rfl rfl inline ?_)
      exact ⟨⟨apart, starts⟩, .inl ⟨rfl, forms, program⟩⟩

end Reader

end TermLang
