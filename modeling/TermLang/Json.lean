import TermLang.Text.Glyph
import TermLang.Text.Quoted

/-!
# Structured messages

The values of the JSON notation, kept close to their text: numbers and strings hold their
lexemes, objects hold their members in order with repetitions. Writing a value that was read
therefore gives back its text without the blanks.

Strings are written so that they can stand inside markup and scripts: besides the quote, the
backslash and the control characters, the characters `<`, `>`, `&`, U+2028 and U+2029 are
escaped.
-/

namespace TermLang

/-- A value of the JSON notation. -/
inductive Json where
  /-- The null value. -/
  | null
  /-- A truth value. -/
  | bool (value : Bool)
  /-- A number by its lexeme. -/
  | number (lexeme : List Char)
  /-- A string by what stands between its quotes. -/
  | string (lexeme : Text)
  /-- Values in square brackets. -/
  | array (items : List Json)
  /-- Keys, by what stands between their quotes, and values in curly brackets. -/
  | object (members : List (Text × Json))
  deriving Inhabited, Repr

namespace Json

/-- How one character is written inside a string. -/
def escapeChar (c : Char) : List Char :=
  if c = '"' || c = '\\' then ['\\', c]
  else
    match c.toNat with
    | 0x08 => ['\\', 'b']
    | 0x0C => ['\\', 'f']
    | 0x0A => ['\\', 'n']
    | 0x0D => ['\\', 'r']
    | 0x09 => ['\\', 't']
    | code =>
      if code < 0x20 || c = '<' || c = '>' || c = '&' || code = 0x2028 || code = 0x2029 then
        '\\' :: 'u' :: Text.hexDigits 4 code
      else [c]

/-- The lexeme of a text. -/
def lexemeOf (text : List Char) : Text :=
  (text.flatMap escapeChar).map .scalar

/-- A text as a string. -/
def ofString (text : String) : Json :=
  .string (lexemeOf text.toList)

/-- A whole number. -/
def ofInt (value : Int) : Json :=
  .number (toString value).toList

/-- A natural number. -/
def ofNat (value : Nat) : Json :=
  .number (Nat.toDigits 10 value)

/-- An object from plain keys. -/
def ofMembers (members : List (String × Json)) : Json :=
  .object (members.map fun (key, value) => (lexemeOf key.toList, value))

/-- The value of a hexadecimal digit. -/
def hexValue? (c : Char) : Option Nat :=
  if '0' ≤ c ∧ c ≤ '9' then some (c.toNat - 48)
  else if 'a' ≤ c ∧ c ≤ 'f' then some (c.toNat - 87)
  else if 'A' ≤ c ∧ c ≤ 'F' then some (c.toNat - 55)
  else none

/-- A half of a code point above the basic plane that waits for its other half. -/
abbrev Surrogate := Option Nat

/-- What an unpaired half shows as. -/
def unpaired : Surrogate → List Char
  | some _ => ['\uFFFD']
  | none => []

/-- The character of a number that may be no code point. -/
def charOrReplacement (code : Nat) : Char :=
  if code.isValidChar then Char.ofNat code else '\uFFFD'

/-- Adds the escaped unit `code`: two halves that belong together make one character, and a
half without its other half shows as U+FFFD. -/
def joinUnit (high : Surrogate) (code : Nat) : List Char × Surrogate :=
  if 0xD800 ≤ code ∧ code < 0xDC00 then (unpaired high, some code)
  else if 0xDC00 ≤ code ∧ code < 0xE000 then
    match high with
    | some first =>
      ([charOrReplacement (0x10000 + (first - 0xD800) * 1024 + (code - 0xDC00))], none)
    | none => (['\uFFFD'], none)
  else (unpaired high ++ [charOrReplacement code], none)

/-- What a one-letter escape stands for. -/
def shortEscape (c : Char) : Char :=
  match c with
  | 'b' => '\x08'
  | 'f' => '\x0c'
  | 'n' => '\n'
  | 'r' => '\r'
  | 't' => '\t'
  | other => other

/-- Where the decoder of a string is. -/
inductive Decoding where
  /-- Between characters. -/
  | plain
  /-- After a backslash. -/
  | escape
  /-- In the digits of a numbered escape: how many are left, and the value so far. -/
  | digits (left value : Nat)
  deriving DecidableEq, Repr

/-- The characters that a lexeme stands for. -/
def decodeFrom (state : Decoding) (high : Surrogate) : Text → List Char
  | [] => unpaired high
  | glyph :: rest =>
    let c := glyph.char
    match state with
    | .plain =>
      if c = '\\' then decodeFrom .escape high rest
      else unpaired high ++ c :: decodeFrom .plain none rest
    | .escape =>
      if c = 'u' then decodeFrom (.digits 4 0) high rest
      else unpaired high ++ shortEscape c :: decodeFrom .plain none rest
    | .digits left value =>
      let value := 16 * value + (hexValue? c).getD 0
      if left ≤ 1 then
        let (chars, high) := joinUnit high value
        chars ++ decodeFrom .plain high rest
      else decodeFrom (.digits (left - 1) value) high rest

/-- The text that a lexeme stands for. -/
def decode (lexeme : Text) : String :=
  String.ofList (decodeFrom .plain none lexeme)

/-- Characters in front of a text. -/
def put (chars : String) (rest : Text) : Text :=
  chars.toList.map Glyph.scalar ++ rest

/-- A glyph of a lexeme as it is written: what must not stand in markup is escaped. -/
def sheltered (glyph : Glyph) : Text :=
  match glyph with
  | .scalar c =>
    let code := c.toNat
    if c = '<' || c = '>' || c = '&' || code = 0x2028 || code = 0x2029 then
      ('\\' :: 'u' :: Text.hexDigits 4 code).map .scalar
    else [glyph]
  | .stray _ => [glyph]

/-- A string between its quotes, in front of `rest`. -/
def writeString (lexeme : Text) (rest : Text) : Text :=
  .scalar '"' :: (lexeme.flatMap sheltered ++ .scalar '"' :: rest)

mutual

/-- A value without blanks, in front of `rest`. -/
def write : Json → Text → Text
  | .null, rest => put "null" rest
  | .bool true, rest => put "true" rest
  | .bool false, rest => put "false" rest
  | .number lexeme, rest => lexeme.map Glyph.scalar ++ rest
  | .string lexeme, rest => writeString lexeme rest
  | .array items, rest => .scalar '[' :: writeItems items (.scalar ']' :: rest)
  | .object members, rest => .scalar '\x7b' :: writeMembers members (.scalar '\x7d' :: rest)

/-- Values divided by commas, in front of `rest`. -/
def writeItems : List Json → Text → Text
  | [], rest => rest
  | [item], rest => write item rest
  | item :: next :: more, rest => write item (.scalar ',' :: writeItems (next :: more) rest)

/-- Members divided by commas, in front of `rest`. -/
def writeMembers : List (Text × Json) → Text → Text
  | [], rest => rest
  | [(key, value)], rest => writeString key (.scalar ':' :: write value rest)
  | (key, value) :: next :: more, rest =>
    writeString key (.scalar ':' :: write value (.scalar ',' :: writeMembers (next :: more) rest))

end

/-- The text of a value without blanks. -/
def compact (value : Json) : Text :=
  value.write []

end Json

end TermLang
