import TermLang.Proofs.Reader.Grammar
import TermLang.Reader.Atom

/-!
# Runs of signs and the atoms they spell

The reader decides what a run of signs is by its first sign. Here that decision is shown to be the
grammar's: a run is read as an atom exactly when its characters are the atom's spelling. A quoted
text is a sign of its own, so that the characters of a run are not always one per sign; `plain` runs
are those without a quoted text.

Which error a run gives when it is no atom is not said here.
-/

namespace TermLang.Reader

open Grammar

/-- A mapped result is a success exactly when the result is, and its value is then that of the
result, changed. -/
theorem map_ok_iff {ε α β : Type} (change : α → β) (result : Except ε α) (value : β) :
    result.map change = .ok value ↔ ∃ inner, result = .ok inner ∧ change inner = value := by
  cases result <;> simp [Except.map]

section

variable {ε ε' α β : Type} (change : ε → ε')

/-- A success has no error to be changed. -/
@[simp]
theorem mapError_ok (value : α) : (Except.ok value).mapError change = .ok value := rfl

/-- The error of a failure is changed, and it stays a failure. -/
@[simp]
theorem mapError_error (error : ε) :
    (Except.error error : Except ε α).mapError change = .error (change error) := rfl

/-- What is done with a value does not matter to its error, so the two may be changed in either
order. -/
theorem mapError_map (f : α → β) (result : Except ε α) :
    (result.map f).mapError change = (result.mapError change).map f := by
  cases result <;> rfl

/-- If what stands for each item fails with the changed error, so do all of them in a row. The first
item that fails is the same in both rows. -/
theorem mapM_mapError {γ : Type} {place : α → γ} {first : α → Except ε β} {second : γ → Except ε' β}
    (same : ∀ item, second (place item) = (first item).mapError change) (items : List α) :
    (items.map place).mapM second = (items.mapM first).mapError change := by
  induction items with
  | nil => rfl
  | cons item rest inductionHypothesis =>
    simp only [List.map_cons, List.mapM_cons, bind, Except.bind, pure, Except.pure, same,
      inductionHypothesis]
    cases first item with
    | error error => rfl
    | ok value => cases rest.mapM first <;> rfl

/-- The error of items in a row is the error of one of them: the first that fails. The induction is
on the row. -/
theorem exists_mem_of_mapM_error {make : α → Except ε β} {items : List α} {error : ε}
    (failed : items.mapM make = .error error) : ∃ item ∈ items, make item = .error error := by
  induction items with
  | nil => cases failed
  | cons item rest inductionHypothesis =>
    simp only [List.mapM_cons, bind, Except.bind, pure, Except.pure] at failed
    cases made : make item with
    | error inner =>
      obtain rfl : inner = error := by simpa [made] using failed
      exact ⟨item, List.mem_cons_self, made⟩
    | ok value =>
      cases others : rest.mapM make with
      | ok values => simp [made, others] at failed
      | error inner =>
        obtain rfl : inner = error := by simpa [made, others] using failed
        obtain ⟨later, member, wrong⟩ := inductionHypothesis others
        exact ⟨later, List.mem_cons_of_mem _ member, wrong⟩

end

/-- What a source may hold outside of quotes besides blanks, brackets and quotes. -/
def isSignChar (c : Char) : Bool := isLetter c || isDecimalDigit c || isSymbol c

/-- What the reader makes signs of. -/
def SignLegal : Sign → Prop
  | .char c _ => isSignChar c = true
  | .quoted text _ => '"' ∉ text

/-- The characters of a run as they stand in the source. -/
def spelling (signs : List Sign) : List Char := signs.flatMap Sign.source

/-- A run without a quoted text, and its characters. -/
def Plain (signs : List Sign) (text : List Char) : Prop := signs.mapM Sign.char? = some text

/-- A run without signs spells nothing. -/
@[simp]
theorem plain_nil_iff (text : List Char) : Plain [] text ↔ text = [] := by
  simp [Plain, eq_comm]

/-- A plain run is a character behind its mark, and a plain run again. A quoted text in front would
leave no text for the run. -/
theorem plain_cons_iff (sign : Sign) (rest : List Sign) (text : List Char) :
    Plain (sign :: rest) text ↔
      ∃ c mark more, sign = .char c mark ∧ Plain rest more ∧ text = c :: more := by
  cases sign with
  | char c mark =>
    simp only [Plain, Sign.char?, List.mapM_cons, Option.pure_def, Option.bind_eq_bind,
      Option.bind_some, Option.bind_eq_some_iff, Option.some.injEq]
    constructor
    · rintro ⟨more, plain, rfl⟩
      exact ⟨c, mark, more, rfl, plain, rfl⟩
    · rintro ⟨_, _, more, same, plain, rfl⟩
      cases same
      exact ⟨more, plain, rfl⟩
  | quoted inside mark => simp [Plain, Sign.char?, List.mapM_cons]

/-- The characters of a plain run are its spelling. -/
theorem Plain.spelling_eq {signs : List Sign} {text : List Char} (plain : Plain signs text) :
    spelling signs = text := by
  induction signs generalizing text with
  | nil => exact ((plain_nil_iff text).mp plain).symm
  | cons sign rest inductionHypothesis =>
    obtain ⟨c, mark, more, rfl, plainRest, rfl⟩ := (plain_cons_iff sign rest text).mp plain
    have tail : spelling rest = more := inductionHypothesis plainRest
    simp only [spelling] at tail
    simp [spelling, Sign.source, tail]

/-! ## Characters -/

/-- The small letters are those of ASCII, by their codes. -/
theorem small_iff (c : Char) : isSmallLetter c = true ↔ 97 ≤ c.toNat ∧ c.toNat ≤ 122 := by
  simp [isSmallLetter, Char.le_def, UInt32.le_iff_toNat_le]

/-- So are the capital letters. -/
theorem capital_iff (c : Char) : isCapitalLetter c = true ↔ 65 ≤ c.toNat ∧ c.toNat ≤ 90 := by
  simp [isCapitalLetter, Char.le_def, UInt32.le_iff_toNat_le]

/-- So are the digits, which are the decimal ones only. -/
theorem digit_iff (c : Char) : isDecimalDigit c = true ↔ 48 ≤ c.toNat ∧ c.toNat ≤ 57 := by
  simp [isDecimalDigit, Char.le_def, UInt32.le_iff_toNat_le]

/-- Capital letters are no digits. -/
theorem not_digit_of_capital {c : Char} (capital : isCapitalLetter c = true) :
    isDecimalDigit c = false := by
  rw [← Bool.not_eq_true, digit_iff]
  rw [capital_iff] at capital
  omega

/-- Small letters are no digits. -/
theorem not_digit_of_small {c : Char} (small : isSmallLetter c = true) :
    isDecimalDigit c = false := by
  rw [← Bool.not_eq_true, digit_iff]
  rw [small_iff] at small
  omega

/-- Small letters are no capital letters. -/
theorem not_capital_of_small {c : Char} (small : isSmallLetter c = true) :
    isCapitalLetter c = false := by
  rw [← Bool.not_eq_true, capital_iff]
  rw [small_iff] at small
  omega

/-- A digit is not the point. -/
theorem ne_point_of_digit {c : Char} (digit : isDecimalDigit c = true) : c ≠ '.' := by
  rintro rfl
  exact absurd digit (by decide)

/-- Letters, digits, hyphen and underscore may all stand in a run. -/
theorem signChar_of_word {c : Char} (word : isWordChar c = true) : isSignChar c = true := by
  simp only [isWordChar, Bool.or_eq_true, beq_iff_eq] at word
  rcases word with ((letter | digit) | rfl) | rfl
  · simp [isSignChar, letter]
  · simp [isSignChar, digit]
  · decide
  · decide

/-! ## Words -/

/-- A run is a word exactly when it is plain and all its characters may stand in one. The induction
is on the signs, and a quoted text is never part of a word. -/
theorem word_ok_iff (signs : List Sign) (text : List Char) :
    word signs = .ok text ↔ Plain signs text ∧ AllWord text := by
  induction signs generalizing text with
  | nil =>
    simp only [word, plain_nil_iff, Except.ok.injEq]
    constructor
    · rintro rfl
      simp [AllWord]
    · rintro ⟨rfl, _⟩
      rfl
  | cons sign rest inductionHypothesis =>
    rw [plain_cons_iff]
    cases sign with
    | quoted inside mark => simp [word]
    | char c mark =>
      by_cases fits : isWordChar c = true
      · simp only [word, fits, if_true, map_ok_iff, inductionHypothesis]
        constructor
        · rintro ⟨more, ⟨plain, all⟩, rfl⟩
          exact ⟨⟨c, mark, more, rfl, plain, rfl⟩, List.forall_mem_cons.mpr ⟨fits, all⟩⟩
        · rintro ⟨⟨_, _, more, same, plain, rfl⟩, all⟩
          cases same
          exact ⟨more, ⟨plain, (List.forall_mem_cons.mp all).2⟩, rfl⟩
      · simp only [word, fits, if_false, Bool.false_eq_true, reduceCtorEq, false_iff]
        rintro ⟨⟨_, _, more, same, _, rfl⟩, all⟩
        cases same
        exact fits (List.forall_mem_cons.mp all).1

/-! ## Numbers -/

/-- Digits, and at most one point if none was seen. -/
def NumeralTail (pointSeen : Bool) (text : List Char) : Prop :=
  AllDigits text ∨ pointSeen = false ∧
    ∃ digits places, text = digits ++ '.' :: places ∧ AllDigits digits ∧ AllDigits places

/-- A digit in front keeps a numeral one, with or without a point behind it. In the other direction
the digit is not the point, so it belongs to the digits in front of the point. -/
theorem numeralTail_cons {pointSeen : Bool} {c : Char} {text : List Char}
    (digit : isDecimalDigit c = true) :
    NumeralTail pointSeen (c :: text) ↔ NumeralTail pointSeen text := by
  constructor
  · rintro (all | ⟨unseen, digits, places, same, all, allPlaces⟩)
    · exact .inl (List.forall_mem_cons.mp all).2
    · cases digits with
      | nil =>
        simp only [List.nil_append, List.cons.injEq] at same
        exact absurd same.1 (ne_point_of_digit digit)
      | cons first others =>
        simp only [List.cons_append, List.cons.injEq] at same
        exact .inr ⟨unseen, others, places, same.2, (List.forall_mem_cons.mp all).2, allPlaces⟩
  · rintro (all | ⟨unseen, digits, places, rfl, all, allPlaces⟩)
    · exact .inl (List.forall_mem_cons.mpr ⟨digit, all⟩)
    · have allDigits : AllDigits (c :: digits) := List.forall_mem_cons.mpr ⟨digit, all⟩
      exact .inr ⟨unseen, c :: digits, places, rfl, allDigits, allPlaces⟩

/-- Behind a point, only digits. The point itself is no digit, so it is the one point that a numeral
may have. -/
theorem numeralTail_point {text : List Char} :
    NumeralTail false ('.' :: text) ↔ NumeralTail true text := by
  constructor
  · rintro (all | ⟨_, digits, places, same, all, allPlaces⟩)
    · exact absurd (List.forall_mem_cons.mp all).1 (by decide)
    · cases digits with
      | nil =>
        simp only [List.nil_append, List.cons.injEq, true_and] at same
        exact .inl (same ▸ allPlaces)
      | cons first others =>
        simp only [List.cons_append, List.cons.injEq] at same
        exact absurd (same.1 ▸ (List.forall_mem_cons.mp all).1) (by decide)
  · rintro (all | ⟨impossible, _⟩)
    · exact .inr ⟨rfl, [], text, rfl, by simp [AllDigits], all⟩
    · exact absurd impossible (by decide)

/-- A run is a numeral exactly when it is plain, with digits and at most one point.

Proof: induction on the signs, where the reader remembers whether a point was seen. A digit and the
first point are kept, by the two lemmas above; any other sign is an error, and no numeral goes on
with it. -/
theorem numeral_ok_iff (pointSeen : Bool) (signs : List Sign) (text : List Char) :
    numeral pointSeen signs = .ok text ↔ Plain signs text ∧ NumeralTail pointSeen text := by
  induction signs generalizing pointSeen text with
  | nil =>
    simp only [numeral, plain_nil_iff, Except.ok.injEq]
    constructor
    · rintro rfl
      exact ⟨rfl, .inl (by simp [AllDigits])⟩
    · rintro ⟨rfl, _⟩
      rfl
  | cons sign rest inductionHypothesis =>
    rw [plain_cons_iff]
    cases sign with
    | quoted inside mark => simp [numeral]
    | char c mark =>
      by_cases digit : isDecimalDigit c = true
      · simp only [numeral, digit, if_true, map_ok_iff, inductionHypothesis]
        constructor
        · rintro ⟨more, ⟨plain, tail⟩, rfl⟩
          exact ⟨⟨c, mark, more, rfl, plain, rfl⟩, (numeralTail_cons digit).mpr tail⟩
        · rintro ⟨⟨_, _, more, same, plain, rfl⟩, tail⟩
          cases same
          exact ⟨more, ⟨plain, (numeralTail_cons digit).mp tail⟩, rfl⟩
      · by_cases point : c = '.' ∧ (!pointSeen) = true
        · obtain ⟨rfl, unseen⟩ := point
          simp only [Bool.not_eq_true'] at unseen
          subst unseen
          simp only [numeral, digit, if_false, Bool.false_eq_true, Bool.not_false, and_self,
            if_true, map_ok_iff, inductionHypothesis]
          constructor
          · rintro ⟨more, ⟨plain, tail⟩, rfl⟩
            exact ⟨⟨'.', mark, more, rfl, plain, rfl⟩, numeralTail_point.mpr tail⟩
          · rintro ⟨⟨_, _, more, same, plain, rfl⟩, tail⟩
            cases same
            exact ⟨more, ⟨plain, numeralTail_point.mp tail⟩, rfl⟩
        · simp only [numeral, digit, point, if_false, Bool.false_eq_true, reduceCtorEq, false_iff]
          rintro ⟨⟨_, _, more, same, _, rfl⟩, tail⟩
          cases same
          rcases tail with all | ⟨unseen, digits, places, same, all, _⟩
          · exact digit (List.forall_mem_cons.mp all).1
          · cases digits with
            | nil =>
              simp only [List.nil_append, List.cons.injEq] at same
              exact point ⟨same.1, by simp [unseen]⟩
            | cons first others =>
              simp only [List.cons_append, List.cons.injEq] at same
              exact digit (same.1 ▸ (List.forall_mem_cons.mp all).1)

/-- The characters of a numeral up to its point, and those behind it. No digit is the point, so the
first point ends the digits. -/
theorem takeWhile_digits {digits : List Char} (all : AllDigits digits) (places : List Char) :
    (digits ++ '.' :: places).takeWhile (· != '.') = digits ∧
      (digits ++ '.' :: places).dropWhile (· != '.') = '.' :: places := by
  have before : ∀ c ∈ digits, (c != '.') = true := fun c member => by
    simpa using ne_point_of_digit (all c member)
  constructor
  · rw [List.takeWhile_append_of_pos before]
    simp
  · rw [List.dropWhile_append_of_pos before]
    simp

/-- A numeral without a point spells its digits as a whole number, with the power of ten zero. -/
theorem decimalOf_whole (negative : Bool) {digits : List Char} (all : AllDigits digits) :
    decimalOf negative digits = ⟨negative, Number.digitsValue digits, 0⟩ := by
  have before : ∀ c ∈ digits, (c != '.') = true := fun c member => by
    simpa using ne_point_of_digit (all c member)
  have whole : digits.takeWhile (· != '.') = digits := by
    simpa using @List.takeWhile_append_of_pos Char (· != '.') digits [] before
  have nothing : digits.dropWhile (· != '.') = [] := by
    simpa using @List.dropWhile_append_of_pos Char (· != '.') digits [] before
  simp [decimalOf, whole, nothing]

/-- A numeral with a point counts its places off the power of ten. -/
theorem decimalOf_pointed (negative : Bool) {digits : List Char} (all : AllDigits digits)
    (places : List Char) :
    decimalOf negative (digits ++ '.' :: places) =
      ⟨negative, Number.digitsValue (digits ++ places), -(places.length : Int)⟩ := by
  obtain ⟨whole, behind⟩ := takeWhile_digits all places
  simp [decimalOf, whole, behind]

/-- The numerals of the grammar are a sign, or none, and what the reader takes for a numeral that
starts with a digit. The decimal that they stand for is the one that the reader makes of these
digits. -/
theorem numeral_iff (text : List Char) (decimal : Decimal) :
    Numeral text decimal ↔ ∃ negative first rest, text = Number.signOf negative ++ first :: rest ∧
      isDecimalDigit first = true ∧ NumeralTail false (first :: rest) ∧
        decimal = decimalOf negative (first :: rest) := by
  constructor
  · intro spelled
    cases spelled with
    | @whole negative digits present only =>
      obtain ⟨first, rest, rfl⟩ := List.exists_cons_of_ne_nil present
      exact ⟨negative, first, rest, rfl, only first (by simp), .inl only,
        (decimalOf_whole negative only).symm⟩
    | @pointed negative digits places present only onlyPlaces =>
      obtain ⟨first, rest, rfl⟩ := List.exists_cons_of_ne_nil present
      exact ⟨negative, first, rest ++ '.' :: places, rfl, only first (by simp),
        .inr ⟨rfl, first :: rest, places, rfl, only, onlyPlaces⟩,
        (decimalOf_pointed negative only places).symm⟩
  · rintro ⟨negative, first, rest, rfl, digit, all | ⟨_, digits, places, same, all, allPlaces⟩, rfl⟩
    · rw [decimalOf_whole negative all]
      exact .whole negative (by simp) all
    · rw [same, decimalOf_pointed negative all places]
      refine .pointed negative ?_ all allPlaces
      rintro rfl
      simp only [List.nil_append, List.cons.injEq] at same
      exact ne_point_of_digit digit same.1

/-- What a run of digits behind a sign is read as: the double nearest to its decimal, if there is
one. The text of a plain run is determined by the run, so there is at most one such double. -/
theorem numberAtom_ok_iff (negative : Bool) (mark : Mark) (signs : List Sign) (term : Term) :
    numberAtom negative mark signs = .ok term ↔ ∃ text value, Plain signs text ∧
      NumeralTail false text ∧ (decimalOf negative text).toFloat? = some value ∧
        term = .number value := by
  simp only [numberAtom, bind, Except.bind]
  cases spelled : numeral false signs with
  | error error =>
    simp only [reduceCtorEq, false_iff]
    rintro ⟨text, value, plain, tail, _⟩
    have read := (numeral_ok_iff false signs text).mpr ⟨plain, tail⟩
    simp [spelled] at read
  | ok text =>
    obtain ⟨plain, tail⟩ := (numeral_ok_iff false signs text).mp spelled
    have only (other : List Char) (otherPlain : Plain signs other) : other = text :=
      Option.some.inj (otherPlain.symm.trans plain)
    cases near : (decimalOf negative text).toFloat? with
    | none =>
      simp only [near, reduceCtorEq, false_iff]
      rintro ⟨other, value, otherPlain, _, some, _⟩
      rw [only other otherPlain, near] at some
      simp at some
    | some value =>
      simp only [near, Except.ok.injEq]
      constructor
      · rintro rfl
        exact ⟨text, value, plain, tail, near, rfl⟩
      · rintro ⟨other, otherValue, otherPlain, _, some, rfl⟩
        rw [only other otherPlain, near] at some
        rw [Option.some.inj some]

/-! ## Atoms -/

/-- A run that is read as an operator spells one, with two operands or with one. -/
theorem bare_of_operatorAtom {first : Sign} {rest : List Sign} {term : Term}
    (read : operatorAtom first rest = .ok term) :
    ∃ text, Plain (first :: rest) text ∧ Bare text term := by
  simp only [operatorAtom] at read
  split at read
  · rename_i text plain
    split at read
    · rename_i known
      cases read
      have spelled : Bare (String.ofList text).toList (.binaryOp (String.ofList text)) :=
        .binaryOp (by simpa using known)
      rw [String.toList_ofList] at spelled
      exact ⟨text, plain, spelled⟩
    · split at read
      · rename_i negates
        cases read
        refine ⟨text, plain, ?_⟩
        rw [← @String.toList_ofList text, negates]
        exact .unaryOp
      · cases read
  · cases read

/-- A plain run that starts with a character is read only as an atom with its spelling.

Proof: the cases are those of the reader, told by the first character. A digit or a minus sign in
front of one begins a number, a letter or an underscore a word, a point a keyword; everything else
has to be an operator. In each case the rule of the grammar with the same name applies. -/
theorem bare_of_atom {c : Char} {mark : Mark} {rest : List Sign} {term : Term}
    (read : atom (.char c mark) rest = .ok term) :
    ∃ text, Plain rest text ∧ Bare (c :: text) term := by
  have headed {signs : List Sign} {text : List Char} (plain : Plain (.char c mark :: signs) text) :
      ∃ more, Plain signs more ∧ text = c :: more := by
    obtain ⟨_, _, more, same, plainRest, rfl⟩ := (plain_cons_iff _ _ _).mp plain
    cases same
    exact ⟨more, plainRest, rfl⟩
  simp only [atom] at read
  split at read
  · rename_i digit
    obtain ⟨text, value, plain, tail, near, rfl⟩ := (numberAtom_ok_iff _ _ _ _).mp read
    obtain ⟨more, plainRest, rfl⟩ := headed plain
    have spelled := (numeral_iff (c :: more) _).mpr ⟨false, c, more, rfl, digit, tail, rfl⟩
    exact ⟨more, plainRest, .number spelled near⟩
  split at read
  · rename_i capital
    obtain ⟨text, isWord, rfl⟩ := (map_ok_iff _ _ _).mp read
    obtain ⟨plain, all⟩ := (word_ok_iff _ _).mp isWord
    obtain ⟨more, plainRest, rfl⟩ := headed plain
    exact ⟨more, plainRest, .var capital (List.forall_mem_cons.mp all).2⟩
  split at read
  · rename_i notCapital letter
    have small : isSmallLetter c = true := by
      simpa [isLetter, notCapital] using letter
    obtain ⟨text, isWord, rfl⟩ := (map_ok_iff _ _ _).mp read
    obtain ⟨plain, all⟩ := (word_ok_iff _ _).mp isWord
    obtain ⟨more, plainRest, rfl⟩ := headed plain
    refine ⟨more, plainRest, ?_⟩
    simp only [wordTerm]
    split
    · rename_i affirmed
      rw [affirmed]
      exact .affirmed
    split
    · rename_i denied
      rw [denied]
      exact .denied
    · exact .str small (List.forall_mem_cons.mp all).2 (by assumption) (by assumption)
  split at read
  · rename_i isPoint
    subst isPoint
    split at read
    · cases read
    · rename_i nonempty
      obtain ⟨text, isWord, rfl⟩ := (map_ok_iff _ _ _).mp read
      obtain ⟨plain, all⟩ := (word_ok_iff _ _).mp isWord
      refine ⟨text, plain, .keyword ?_ all⟩
      -- An empty word would leave nothing behind the point, which is no keyword.
      rintro rfl
      cases rest with
      | nil => exact nonempty rfl
      | cons sign signs =>
        obtain ⟨_, _, _, _, _, impossible⟩ := (plain_cons_iff _ _ _).mp plain
        cases impossible
  split at read
  · rename_i isUnderscore
    subst isUnderscore
    obtain ⟨text, isWord, rfl⟩ := (map_ok_iff _ _ _).mp read
    obtain ⟨plain, all⟩ := (word_ok_iff _ _).mp isWord
    obtain ⟨more, plainRest, rfl⟩ := headed plain
    exact ⟨more, plainRest, .wildcard (List.forall_mem_cons.mp all).2⟩
  split at read
  · rename_i minus
    obtain ⟨rfl, beforeDigit⟩ := minus
    obtain ⟨text, value, plain, tail, near, rfl⟩ := (numberAtom_ok_iff _ _ _ _).mp read
    refine ⟨text, plain, .number ((numeral_iff _ _).mpr ?_) near⟩
    cases rest with
    | nil => exact absurd beforeDigit (by decide)
    | cons sign signs =>
      obtain ⟨first, _, more, rfl, _, rfl⟩ := (plain_cons_iff _ _ _).mp plain
      exact ⟨true, first, more, rfl, beforeDigit, tail, rfl⟩
  · obtain ⟨text, plain, spelled⟩ := bare_of_operatorAtom read
    obtain ⟨more, plainRest, rfl⟩ := headed plain
    exact ⟨more, plainRest, spelled⟩

/-- No operator starts like an atom of another kind, and the hyphen stands alone. So the reader
comes to operators exactly when it should, and no operator is taken for a negative number. -/
theorem operator_head {symbol : String} (known : symbol ∈ negation :: binaryOperators) :
    ∃ c text, symbol.toList = c :: text ∧ isDecimalDigit c = false ∧ isCapitalLetter c = false ∧
      isLetter c = false ∧ c ≠ '.' ∧ c ≠ '_' ∧ (c = '-' → text = []) := by
  simp only [negation, binaryOperators, List.mem_cons, List.not_mem_nil, or_false] at known
  rcases known with rfl | rfl | rfl | rfl | rfl | rfl | rfl | rfl | rfl | rfl | rfl | rfl <;>
    exact ⟨_, _, rfl, by decide⟩

/-- Every operator is read as itself. By `operator_head` none of the earlier rules of the reader
applies to its first character; then its whole spelling is looked up. -/
theorem atom_operator {c : Char} {mark : Mark} {rest : List Sign} {text : List Char}
    {symbol : String} (spelled : c :: text = symbol.toList)
    (known : symbol ∈ negation :: binaryOperators) (plain : Plain rest text) :
    atom (.char c mark) rest =
      .ok (if symbol ∈ binaryOperators then .binaryOp symbol else .unaryOp symbol) := by
  obtain ⟨first, others, isSpelled, notDigit, notCapital, notLetter, notPoint, notUnderscore,
    alone⟩ := operator_head known
  obtain ⟨rfl, rfl⟩ := List.cons.inj (spelled.trans isSpelled)
  have notNegative : ¬ (c = '-' ∧ startsWithDigit rest = true) := by
    rintro ⟨hyphen, digit⟩
    have nothing : text = [] := alone hyphen
    cases rest with
    | nil => exact absurd digit (by decide)
    | cons sign signs =>
      obtain ⟨_, _, _, _, _, impossible⟩ := (plain_cons_iff _ _ _).mp plain
      rw [nothing] at impossible
      cases impossible
  have run : (Sign.char c mark :: rest).mapM Sign.char? = some (c :: text) :=
    (plain_cons_iff _ _ _).mpr ⟨c, mark, text, rfl, plain, rfl⟩
  have named : String.ofList (c :: text) = symbol := by rw [spelled, String.ofList_toList]
  simp only [atom, notDigit, notCapital, notLetter, notPoint, notUnderscore, notNegative,
    Bool.false_eq_true, if_false, operatorAtom, run, named, List.contains_eq_mem, decide_eq_true_eq]
  by_cases binary : symbol ∈ binaryOperators
  · simp [binary]
  · have negates : symbol = negation := by simpa [binary] using known
    rw [if_neg binary, if_pos negates, if_neg binary]

/-- A numeral is read as the double nearest to it. With a minus sign in front, the reader goes on to
the number only because a digit follows. -/
theorem atom_number {c : Char} {mark : Mark} {rest : List Sign} {text : List Char}
    {decimal : Decimal} {value : Float} (spelled : Numeral (c :: text) decimal)
    (near : decimal.toFloat? = some value) (plain : Plain rest text) :
    atom (.char c mark) rest = .ok (.number value) := by
  obtain ⟨negative, first, more, same, digit, tail, rfl⟩ := (numeral_iff _ _).mp spelled
  cases negative with
  | false =>
    simp only [Number.signOf, Bool.false_eq_true, if_false, List.nil_append,
      List.cons.injEq] at same
    obtain ⟨rfl, rfl⟩ := same
    have run : Plain (.char c mark :: rest) (c :: text) :=
      (plain_cons_iff _ _ _).mpr ⟨c, mark, text, rfl, plain, rfl⟩
    simp only [atom, digit, if_true]
    exact (numberAtom_ok_iff _ _ _ _).mpr ⟨c :: text, value, run, tail, near, rfl⟩
  | true =>
    simp only [Number.signOf, if_true, List.cons_append, List.nil_append, List.cons.injEq] at same
    obtain ⟨rfl, rfl⟩ := same
    have beforeDigit : startsWithDigit rest = true := by
      cases rest with
      | nil => cases (plain_nil_iff _).mp plain
      | cons sign signs =>
        obtain ⟨_, _, _, rfl, _, equal⟩ := (plain_cons_iff _ _ _).mp plain
        cases equal
        exact digit
    have minus : (isDecimalDigit '-' = false ∧ isCapitalLetter '-' = false) ∧
        isLetter '-' = false := by decide
    simp only [atom, minus, beforeDigit, Bool.false_eq_true, if_false, Char.reduceEq, and_self,
      if_true]
    exact (numberAtom_ok_iff _ _ _ _).mpr ⟨first :: more, value, plain, tail, near, rfl⟩

/-- A word with a letter in front is read as such, and its letters decide what it is. Any character
that may stand in a word will do in front. -/
theorem word_of_plain {c : Char} {mark : Mark} {rest : List Sign} {text : List Char}
    (plain : Plain rest text) (fits : isWordChar c = true) (all : AllWord text) :
    word (.char c mark :: rest) = .ok (c :: text) :=
  (word_ok_iff _ _).mpr
    ⟨(plain_cons_iff _ _ _).mpr ⟨c, mark, text, rfl, plain, rfl⟩,
      List.forall_mem_cons.mpr ⟨fits, all⟩⟩

/-- Letters may stand in words. -/
theorem word_of_letter {c : Char} (letter : isLetter c = true) : isWordChar c = true := by
  simp [isWordChar, letter]

/-- A plain run with the spelling of an atom is read as that atom. This is the converse of
`bare_of_atom`.

Proof: one case for each rule of the grammar. The first character of its spelling fails the tests
that the reader makes before the right one, and passes that. -/
theorem atom_of_bare {c : Char} {mark : Mark} {rest : List Sign} {text : List Char} {term : Term}
    (spelled : Bare (c :: text) term) (plain : Plain rest text) :
    atom (.char c mark) rest = .ok term := by
  have small {word : List Char} (letter : isSmallLetter c = true) (all : AllWord text)
      (same : c :: text = word) : atom (.char c mark) rest = .ok (wordTerm word) := by
    have isLetter : isLetter c = true := by simp [isLetter, letter]
    simp only [atom, not_digit_of_small letter, not_capital_of_small letter, isLetter,
      Bool.false_eq_true, if_false, if_true, word_of_plain plain (word_of_letter isLetter) all,
      Except.map, same]
  generalize whole : c :: text = spelling at spelled
  cases spelled with
  | number numeral near => exact atom_number (whole ▸ numeral) near plain
  | var capital all =>
    cases whole
    have isLetter : isLetter c = true := by simp [isLetter, capital]
    simp only [atom, not_digit_of_capital capital, capital, Bool.false_eq_true, if_false, if_true,
      word_of_plain plain (word_of_letter isLetter) all, Except.map]
  | affirmed =>
    cases whole
    exact small (by decide) (by simp [AllWord]; decide) rfl
  | denied =>
    cases whole
    exact small (by decide) (by simp [AllWord]; decide) rfl
  | str letter all notAffirmed notDenied =>
    cases whole
    rw [small letter all rfl]
    simp only [wordTerm, notAffirmed, notDenied, if_false]
  | wildcard all =>
    cases whole
    have underscore : (isDecimalDigit '_' = false ∧ isCapitalLetter '_' = false) ∧
        isLetter '_' = false := by decide
    simp only [atom, underscore, Bool.false_eq_true, if_false, Char.reduceEq, if_true,
      word_of_plain plain (show isWordChar '_' = true by decide) all, Except.map]
  | keyword present all =>
    cases whole
    have point : (isDecimalDigit '.' = false ∧ isCapitalLetter '.' = false) ∧
        isLetter '.' = false := by decide
    have nonempty : rest.isEmpty = false := by
      cases rest with
      | nil => exact absurd ((plain_nil_iff _).mp plain) present
      | cons sign signs => rfl
    simp only [atom, point, nonempty, Bool.false_eq_true, if_false, if_true,
      (word_ok_iff rest text).mpr ⟨plain, all⟩, Except.map]
  | binaryOp known =>
    rw [atom_operator whole (List.mem_cons_of_mem _ known) plain, if_pos known]
  | unaryOp =>
    rw [atom_operator whole (by simp) plain, if_neg (by decide)]

/-- The characters of a numeral may all stand in a run: its digits, the point and the minus sign. -/
theorem signChar_of_numeral {text : List Char} {decimal : Decimal}
    (spelled : Numeral text decimal) : ∀ c ∈ text, isSignChar c = true := by
  have digits {c : Char} (digit : isDecimalDigit c = true) : isSignChar c = true := by
    simp [isSignChar, digit]
  have sign (negative : Bool) : ∀ c ∈ Number.signOf negative, isSignChar c = true := by
    intro c member
    cases negative with
    | true =>
      obtain rfl := List.mem_singleton.mp member
      decide
    | false => cases member
  cases spelled with
  | whole negative _ only =>
    intro c member
    rcases List.mem_append.mp member with member | member
    · exact sign negative c member
    · exact digits (only c member)
  | pointed negative _ only onlyPlaces =>
    intro c member
    simp only [List.mem_append, List.mem_cons] at member
    rcases member with member | member | rfl | member
    · exact sign negative c member
    · exact digits (only c member)
    · decide
    · exact digits (onlyPlaces c member)

/-- The spelling of an atom that is not quoted is one run: it is not empty, and all its characters
may stand in a run. -/
theorem signChar_of_bare {text : List Char} {term : Term} (spelled : Bare text term) :
    text ≠ [] ∧ ∀ c ∈ text, isSignChar c = true := by
  have letters {c : Char} (letter : isLetter c = true) : isSignChar c = true := by
    simp [isSignChar, letter]
  have words {c : Char} {rest : List Char} (first : isSignChar c = true) (all : AllWord rest) :
      c :: rest ≠ [] ∧ ∀ d ∈ c :: rest, isSignChar d = true :=
    ⟨by simp, List.forall_mem_cons.mpr ⟨first, fun d member => signChar_of_word (all d member)⟩⟩
  have operators : ∀ symbol ∈ negation :: binaryOperators,
      symbol.toList ≠ [] ∧ symbol.toList.all isSignChar = true := by decide
  cases spelled with
  | number numeral _ =>
    refine ⟨?_, signChar_of_numeral numeral⟩
    rintro rfl
    obtain ⟨_, _, _, impossible, _⟩ := (numeral_iff _ _).mp numeral
    simp at impossible
  | var capital all => exact words (letters (by simp [isLetter, capital])) all
  | affirmed => exact ⟨by simp, List.all_eq_true.mp (by decide)⟩
  | denied => exact ⟨by simp, List.all_eq_true.mp (by decide)⟩
  | str small all _ _ => exact words (letters (by simp [isLetter, small])) all
  | wildcard all => exact words (by decide) all
  | keyword _ all => exact words (by decide) all
  | binaryOp known =>
    obtain ⟨present, signs⟩ := operators _ (List.mem_cons_of_mem _ known)
    exact ⟨present, List.all_eq_true.mp signs⟩
  | unaryOp =>
    obtain ⟨present, signs⟩ := operators negation List.mem_cons_self
    exact ⟨present, List.all_eq_true.mp signs⟩

end TermLang.Reader
