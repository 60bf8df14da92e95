import TermLang.Server.Document

/-!
# Help

What an editor shows about the word under the cursor, and the words that it offers to
complete. Both come from the tables of forms and operators; quoted texts get neither.
-/

namespace TermLang.Server

/-- What is shown about a word. -/
structure Hover where
  /-- A text in markup. -/
  content : String
  /-- Where the word stands. -/
  range : Range
  deriving DecidableEq, Inhabited, Repr

namespace Hover

/-- What there is to say about a word. -/
def content? (word : String) : Option String :=
  match Form.find? word with
  | some form =>
    some ("**" ++ form.keyword ++ "** (form)\n\n`" ++ form.usage ++ "`\n\n" ++ form.doc)
  | none =>
    (Operator.doc? word).map fun doc => "**" ++ word ++ "** (operator)\n\n" ++ doc

/-- What is shown about the word at a position. -/
def at? (document : Document) (position : Position) : Option Hover :=
  match document.wordAt? position with
  | none => none
  | some token =>
    (content? token.text.shown).map fun content => ⟨content, document.tokenRange token⟩

end Hover

/-- A word that is offered. -/
inductive Completion where
  /-- The keyword of a form. -/
  | keyword (form : Form)
  /-- An operator and what it does. -/
  | operator (symbol doc : String)
  deriving DecidableEq, Inhabited, Repr

namespace Completion

/-- What is offered for the start of a word: keywords in the order of the forms, then
operators in the order of their spellings. A dot can only start a keyword. -/
def ofStart (start : List Char) : List Completion :=
  let keywords := Form.all.filter fun form => start.isPrefixOf form.keyword.toList
  let operators := Operator.docs.filter fun (symbol, _) => start.isPrefixOf symbol.toList
  keywords.map .keyword ++
    (if start.head? = some '.' then []
      else operators.map fun (symbol, doc) => .operator symbol doc)

/-- The part in front of a position of the word there. -/
def startAt (document : Document) (position : Position) : List Char :=
  match document.wordAt? position with
  | none => []
  | some token =>
    (document.text.between token.start (document.offsetOf position)).chars

end Completion

end TermLang.Server
