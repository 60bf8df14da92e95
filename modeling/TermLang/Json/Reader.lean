import TermLang.Alphabet
import TermLang.Json

/-!
# Reading structured messages

A whole text is one value with blanks around it, or it is refused. Strings may hold any
characters but control characters; brackets may be nested to a fixed depth.
-/

namespace TermLang.Json

/-- How deep brackets may be nested. -/
def maxNesting : Nat := 10000

/-- The blanks of the notation. -/
def isGap (glyph : Glyph) : Bool :=
  glyph = .scalar ' ' || glyph = .scalar '\t' || glyph = .scalar '\n' || glyph = .scalar '\r'

/-- Drops blanks. -/
def skipGap (text : Text) : Text :=
  text.dropWhile isGap

/-- The lexeme of a string up to its closing quote, and what follows the quote. -/
def stringLexeme (state : Decoding) : Text → Option (Text × Text)
  | [] => none
  | glyph :: rest =>
    let c := glyph.char
    let onward (next : Decoding) : Option (Text × Text) :=
      (stringLexeme next rest).map fun (lexeme, after) => (glyph :: lexeme, after)
    match state with
    | .plain =>
      if c = '"' then some ([], rest)
      else if c = '\\' then onward .escape
      else if c.toNat < 0x20 then none
      else onward .plain
    | .escape =>
      if c = 'u' then onward (.digits 4 0)
      else if c ∈ ['b', 'f', 'n', 'r', 't', '\\', '/', '"'] then onward .plain
      else none
    | .digits left _ =>
      if (hexValue? c).isNone then none
      else if left ≤ 1 then onward .plain
      else onward (.digits (left - 1) 0)

/-- Drops at least one digit. -/
def dropDigits (chars : List Char) : Option (List Char) :=
  match chars with
  | c :: rest => if isDecimalDigit c then some (rest.dropWhile isDecimalDigit) else none
  | [] => none

/-- Drops the exponent of a number, if it has one. -/
def dropExponent (chars : List Char) : Option (List Char) :=
  match chars with
  | c :: rest =>
    if c = 'e' || c = 'E' then
      match rest with
      | sign :: digits => if sign = '+' || sign = '-' then dropDigits digits else dropDigits rest
      | [] => none
    else some chars
  | [] => some []

/-- Drops the fraction of a number, if it has one. -/
def dropFraction (chars : List Char) : Option (List Char) :=
  match chars with
  | '.' :: rest => dropDigits rest
  | other => some other

/-- Drops the whole part of a number: zero, or digits that do not start with zero. -/
def dropWhole (chars : List Char) : Option (List Char) :=
  match chars with
  | '0' :: rest => some rest
  | other => dropDigits other

/-- Whether characters are the lexeme of a number. -/
def isNumber (chars : List Char) : Bool :=
  let unsigned := match chars with
    | '-' :: rest => rest
    | other => other
  match dropWhole unsigned >>= dropFraction >>= dropExponent with
  | some [] => true
  | _ => false

/-- The characters that the lexeme of a number may hold. -/
def isNumberChar (glyph : Glyph) : Bool :=
  match glyph with
  | .scalar c => isDecimalDigit c || c = '-' || c = '+' || c = '.' || c = 'e' || c = 'E'
  | .stray _ => false

/-- Drops a word. -/
def dropWord (word : String) (text : Text) : Option Text :=
  let glyphs := Text.ofString word
  if text.take glyphs.length = glyphs then some (text.drop glyphs.length) else none

/-- A value that is not in brackets. -/
def scalar? (text : Text) : Option (Json × Text) :=
  match text with
  | .scalar '"' :: rest =>
    (stringLexeme .plain rest).map fun (lexeme, after) => (.string lexeme, after)
  | .scalar 'n' :: _ => (dropWord "null" text).map fun after => (.null, after)
  | .scalar 't' :: _ => (dropWord "true" text).map fun after => (.bool true, after)
  | .scalar 'f' :: _ => (dropWord "false" text).map fun after => (.bool false, after)
  | _ =>
    let lexeme := (text.takeWhile isNumberChar).map Glyph.char
    if isNumber lexeme then some (.number lexeme, text.dropWhile isNumberChar) else none

/-- A key and the colon behind it. -/
def key? (text : Text) : Option (Text × Text) :=
  match skipGap text with
  | .scalar '"' :: rest =>
    match stringLexeme .plain rest with
    | some (lexeme, after) =>
      match skipGap after with
      | .scalar ':' :: rest => some (lexeme, rest)
      | _ => none
    | none => none
  | _ => none

mutual

/-- One value at a nesting depth, and what follows it. -/
def value? : (fuel depth : Nat) → Text → Option (Json × Text)
  | 0, _, _ => none
  | fuel + 1, depth, text =>
    match skipGap text with
    | .scalar '[' :: rest =>
      if maxNesting ≤ depth then none
      else
        match skipGap rest with
        | .scalar ']' :: after => some (.array [], after)
        | other => (items? fuel (depth + 1) other).map fun (items, after) => (.array items, after)
    | .scalar '\x7b' :: rest =>
      if maxNesting ≤ depth then none
      else
        match skipGap rest with
        | .scalar '\x7d' :: after => some (.object [], after)
        | other =>
          (members? fuel (depth + 1) other).map fun (members, after) => (.object members, after)
    | other => scalar? other

/-- Values divided by commas up to a closing bracket. -/
def items? : (fuel depth : Nat) → Text → Option (List Json × Text)
  | 0, _, _ => none
  | fuel + 1, depth, text =>
    match value? fuel depth text with
    | none => none
    | some (item, after) =>
      match skipGap after with
      | .scalar ']' :: rest => some ([item], rest)
      | .scalar ',' :: rest =>
        (items? fuel depth rest).map fun (items, after) => (item :: items, after)
      | _ => none

/-- Members divided by commas up to a closing bracket. -/
def members? : (fuel depth : Nat) → Text → Option (List (Text × Json) × Text)
  | 0, _, _ => none
  | fuel + 1, depth, text =>
    match key? text with
    | none => none
    | some (key, behindKey) =>
      match value? fuel depth behindKey with
      | none => none
      | some (value, after) =>
        match skipGap after with
        | .scalar '\x7d' :: rest => some ([(key, value)], rest)
        | .scalar ',' :: rest =>
          (members? fuel depth rest).map fun (members, after) => ((key, value) :: members, after)
        | _ => none

end

/-- Reads a whole text as one value. Each step that nests or goes on takes a glyph, so twice
the length of the text is fuel enough. -/
def read? (text : Text) : Option Json :=
  match value? (2 * text.length + 2) 0 text with
  | some (value, after) => if (skipGap after).isEmpty then some value else none
  | none => none

end TermLang.Json
