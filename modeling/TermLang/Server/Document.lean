import TermLang.Reader
import TermLang.Server.Change
import TermLang.Server.Diagnostic
import TermLang.Term.Written

/-!
# Documents

An open document: its text, where the lines of the text start, the outline of the text, and the
program that the text reads as. Documents are made from their text and from nothing else, and no
program is ever reduced here.
-/

namespace TermLang.Server

/-- An open document. -/
structure Document where
  /-- The text. -/
  text : Text
  /-- The byte offsets at which the lines of the text start. -/
  lines : List Nat
  /-- Where tokens and brackets stand. -/
  outline : Outline
  /-- The program, or why there is none. -/
  program : Except ParseError Term

namespace Document

/-- The document with a text. -/
def ofText (text : Text) : Document :=
  ⟨text, text.lineStarts, .ofText text, readProgram text.chars⟩

/-- What an editor should underline. -/
def diagnostics (document : Document) : List Diagnostic :=
  match document.program with
  | .error error => Diagnostic.ofFault document.text (.parse error)
  | .ok _ => document.outline.tokens.filterMap (Diagnostic.ofToken? document.text)

/-- The document after a batch of changes. -/
def change (document : Document) (changes : List Change) : Document :=
  .ofText (Change.applyAll document.text changes)

/-- The byte offset of a position in a document. -/
def offsetOf (document : Document) (position : Position) : Nat :=
  document.text.offsetIn document.lines position

/-- The range between two byte offsets of a document. -/
def rangeOf (document : Document) (start stop : Int) : Range :=
  document.text.rangeIn document.lines start stop

/-- The range of a token. -/
def tokenRange (document : Document) (token : Token) : Range :=
  document.rangeOf token.start token.stop

/-- The token at a position that is no quoted text. -/
def wordAt? (document : Document) (position : Position) : Option Token :=
  match document.outline.tokenAt? (document.offsetOf position) with
  | some token => if token.isQuoted then none else some token
  | none => none

/-- The edits that bring a document into canonical layout: one for the whole text, or none if
the text has that layout already or cannot be read. -/
def formatting (document : Document) : List TextEdit :=
  match document.program with
  | .error _ => []
  | .ok program =>
    let text := program.formatted
    if document.text = Text.ofString text then []
    else [⟨document.rangeOf 0 document.text.width, text⟩]

/-- A stretch of lines that can be hidden. -/
structure Fold where
  /-- The line that stays. -/
  first : Int
  /-- The last line of the stretch. -/
  last : Int
  deriving DecidableEq, Inhabited, Repr

/-- The pairs of brackets that do not close on the line on which they open. -/
def folds (document : Document) : List Fold :=
  document.outline.spans.filterMap fun span =>
    let lines := document.rangeOf span.start (span.stop - 1 : Nat)
    if lines.start.line < lines.stop.line then some ⟨lines.start.line, lines.stop.line⟩ else none

end Document

end TermLang.Server
