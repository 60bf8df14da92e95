import TermLang.Fault.Snippet
import TermLang.Form
import TermLang.Server.Outline
import TermLang.Server.Position

/-!
# Diagnostics

What an editor underlines. A source that cannot be read has one error, at the offending
character. A bracket that is never closed is not worth an error while somebody is typing. A
source that can be read has a warning for every keyword that names no form.
-/

namespace TermLang.Server

/-- How bad a finding is. -/
inductive Severity where
  | error
  | warning
  deriving DecidableEq, Inhabited, Repr

/-- A finding about a stretch of a source. -/
structure Diagnostic where
  /-- The stretch. -/
  range : Range
  /-- How bad it is. -/
  severity : Severity
  /-- A short name for its kind, if it has one. -/
  code : Option String
  /-- What is the matter, in words. -/
  message : String
  deriving DecidableEq, Inhabited, Repr

namespace Diagnostic

/-- The short name of a kind of parse error. -/
def codeOf : ParseError.Kind → String
  | .invalidCharacter => "INVALID_CHARACTER"
  | .invalidSymbol => "INVALID_SYMBOL"
  | .missingBracket => "MISSING_BRACKET"
  | .unclosedBracket => "UNCLOSED_BRACKET"
  | .other => "PARSE"

/-- The short name of the warning about keywords. -/
def unknownForm : String := "UNKNOWN_FORM"

/-- The glyph that starts at a byte offset. -/
def glyphAt? (text : Text) (offset : Nat) : Option Glyph :=
  (text.past offset).head?

/-- The stretch of one glyph from a byte offset on; the last glyph for the end of the text. -/
def glyphRange (text : Text) (offset : Nat) : Range :=
  match glyphAt? text offset with
  | some glyph => text.rangeOf offset (offset + glyph.width)
  | none =>
    let last := (text.getLast?.map Glyph.width).getD 0
    text.rangeOf (offset - last : Nat) offset

/-- The stretch of the offending character of a parse error. -/
def errorRange (text : Text) (error : ParseError) : Range :=
  let (line, column) := error.position text.chars
  glyphRange text (text.offsetOfColumn (Number.wordBefore line 1) (Number.wordBefore column 1))

/-- What is shown for a fault. A fault that is no parse error is shown at the start. -/
def ofFault (text : Text) (fault : Fault) : List Diagnostic :=
  match fault.parseError? with
  | none => [⟨text.rangeOf 0 0, .error, none, fault.report⟩]
  | some error =>
    if error.kind = .unclosedBracket then []
    else [⟨errorRange text error, .error, some (codeOf error.kind), fault.report⟩]

/-- The warning about a token, if it looks like a keyword and names no form. -/
def ofToken? (text : Text) (token : Token) : Option Diagnostic :=
  let name := token.text.shown
  if token.startsWith '.' && (Form.find? name).isNone then
    some ⟨text.rangeOf token.start token.stop, .warning, some unknownForm,
      "unknown form " ++ name ++ " (only a .def rule can reduce it)"⟩
  else none

end Diagnostic

end TermLang.Server
