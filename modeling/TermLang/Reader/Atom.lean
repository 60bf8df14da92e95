import TermLang.Number.Decimal
import TermLang.Number.Whole
import TermLang.Reader.Piece

/-!
# Atoms

A run of signs between dividers and brackets is one atom. Its first sign decides what it must
be: a quoted text stands alone, a digit starts a number, a letter a name or a word, a dot a
keyword, an underscore a wildcard, a hyphen before a digit a negative number, and every other
run must spell an operator.
-/

namespace TermLang.Reader

/-- The characters of a name; the first sign that cannot be part of one is an error. -/
def word : List Sign → Except ParseError (List Char)
  | [] => .ok []
  | sign :: rest =>
    match sign with
    | .char c _ => if isWordChar c then (word rest).map (c :: ·) else .error (.invalidSign sign)
    | .quoted _ _ => .error (.invalidSign sign)

/-- Digits and at most one point; the first other sign is an error. -/
def numeral (pointSeen : Bool) : List Sign → Except ParseError (List Char)
  | [] => .ok []
  | sign :: rest =>
    match sign with
    | .char c _ =>
      if isDecimalDigit c then (numeral pointSeen rest).map (c :: ·)
      else if c = '.' ∧ !pointSeen then (numeral true rest).map (c :: ·)
      else .error (.invalidSign sign)
    | .quoted _ _ => .error (.invalidSign sign)

/-- The decimal that a numeral without its sign spells. -/
def decimalOf (negative : Bool) (numeral : List Char) : Decimal :=
  let whole := numeral.takeWhile (· != '.')
  let places := (numeral.dropWhile (· != '.')).drop 1
  ⟨negative, Number.digitsValue (whole ++ places), -(places.length : Int)⟩

/-- A number from its sign and the signs behind it. A magnitude that no double comes near is an
error at `mark`. -/
def numberAtom (negative : Bool) (mark : Mark) (signs : List Sign) : Except ParseError Term := do
  let spelled ← numeral false signs
  match (decimalOf negative spelled).toFloat? with
  | some value => .ok (.number value)
  | none =>
    let spelling := String.ofList (if negative then '-' :: spelled else spelled)
    .error (.otherAt mark ("bad number " ++ Text.quoted spelling))

/-- An operator; any other run is an error as a whole. -/
def operatorAtom (first : Sign) (rest : List Sign) : Except ParseError Term :=
  match (first :: rest).mapM Sign.char? with
  | some spelled =>
    let symbol := String.ofList spelled
    if binaryOperators.contains symbol then .ok (.binaryOp symbol)
    else if symbol = negation then .ok (.unaryOp symbol)
    else .error (.invalidRun first rest)
  | none => .error (.invalidRun first rest)

/-- A word that starts with a small letter: a truth value or a text. -/
def wordTerm (spelled : List Char) : Term :=
  if spelled = ['t', 'r', 'u', 'e'] then .bool true
  else if spelled = ['f', 'a', 'l', 's', 'e'] then .bool false
  else .str (String.ofList spelled)

/-- Whether a run goes on with a digit. -/
def startsWithDigit : List Sign → Bool
  | .char c _ :: _ => isDecimalDigit c
  | _ => false

/-- The atom that a run of signs is. -/
def atom (first : Sign) (rest : List Sign) : Except ParseError Term :=
  match first with
  | .quoted text _ =>
    match rest with
    | [] => .ok (.str (String.ofList text))
    | next :: _ => .error (.invalidSign next)
  | .char c mark =>
    if isDecimalDigit c then numberAtom false mark (first :: rest)
    else if isCapitalLetter c then
      (word (first :: rest)).map fun spelled => .var (String.ofList spelled)
    else if isLetter c then (word (first :: rest)).map wordTerm
    else if c = '.' then
      if rest.isEmpty then .error (.invalidRun first rest)
      else (word rest).map fun spelled => .keyword (String.ofList ('.' :: spelled))
    else if c = '_' then
      (word (first :: rest)).map fun spelled => .wildcard (String.ofList spelled)
    else if c = '-' ∧ startsWithDigit rest then numberAtom true mark rest
    else operatorAtom first rest

/-- What a closed list is made of: runs of signs and finished lists. -/
inductive Segment where
  /-- A run, which is never empty. -/
  | run (first : Sign) (rest : List Sign)
  /-- A finished list. -/
  | list (term : Term)
  deriving Inhabited, Repr

/-- Groups pieces into segments. Dividers and lists end a run. -/
def segments : List Piece → List Segment
  | [] => []
  | .divider :: rest => segments rest
  | .list term :: rest => .list term :: segments rest
  | .sign sign :: rest =>
    match rest with
    | .sign _ :: _ =>
      match segments rest with
      | .run next more :: others => .run sign (next :: more) :: others
      | others => .run sign [] :: others
    | _ => .run sign [] :: segments rest

/-- The term that a segment is. -/
def Segment.term : Segment → Except ParseError Term
  | .run first rest => atom first rest
  | .list term => .ok term

/-- The items of a list whose pieces are given in order. The first run that is no atom is the
error. -/
def items (pieces : List Piece) : Except ParseError (List Term) :=
  (segments pieces).mapM Segment.term

end TermLang.Reader
