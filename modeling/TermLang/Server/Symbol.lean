import TermLang.Server.Document

/-!
# Symbols

The list of what a document sets up: its facts, rules, bindings and loads, wherever they are
nested. Each list with a keyword in front is read on its own, so that a document with an error
elsewhere still has its symbols.
-/

namespace TermLang.Server

/-- What a form sets up. -/
inductive SymbolKind where
  /-- A loaded file. -/
  | load
  /-- A rule. -/
  | rule
  /-- A bound variable. -/
  | binding
  /-- A fact. -/
  | fact
  deriving DecidableEq, Inhabited, Repr

/-- Something that a form sets up, and the name it is listed under. -/
structure Symbol where
  /-- What it is. -/
  kind : SymbolKind
  /-- Its name. -/
  name : String
  deriving DecidableEq, Inhabited, Repr

namespace Symbol

/-- What the operands of a form set up. -/
def ofOperands? (keyword : String) (operands : List Term) : Option Symbol :=
  match keyword, operands with
  | ".dec", fact :: _ => some ⟨.fact, fact.compact⟩
  | ".declare", fact :: _ => some ⟨.fact, fact.compact⟩
  | ".def", [pattern, _] => some ⟨.rule, pattern.compact⟩
  | ".load", path :: _ => some ⟨.load, path.spelling⟩
  | ".is", [.var name, _] => some ⟨.binding, name⟩
  | _, _ => none

/-- What a term sets up. -/
def ofTerm? (term : Term) : Option Symbol :=
  match term with
  | .list (head :: operands) => ofOperands? head.spelling operands
  | _ => none

end Symbol

/-- A symbol and where it stands. -/
structure PlacedSymbol where
  /-- The symbol. -/
  symbol : Symbol
  /-- The range of the list. -/
  range : Range
  /-- The range of the keyword. -/
  selection : Range
  deriving DecidableEq, Inhabited, Repr

namespace Document

/-- The list in a pair of brackets, read on its own. -/
def listIn? (document : Document) (span : Span) : Option Term :=
  match readProgram (document.text.between span.start span.stop).chars with
  | .ok program =>
    match program.items with
    | [term] => some term
    | _ => none
  | .error _ => none

/-- The symbol in a pair of brackets. -/
def symbolIn? (document : Document) (span : Span) : Option PlacedSymbol :=
  match span.head with
  | none => none
  | some head =>
    if head.startsWith '.' then
      ((document.listIn? span).bind Symbol.ofTerm?).map fun symbol =>
        ⟨symbol, document.rangeOf span.start span.stop, document.tokenRange head⟩
    else none

/-- The symbols of a document in order. -/
def symbols (document : Document) : List PlacedSymbol :=
  document.outline.spans.filterMap document.symbolIn?

end Document

end TermLang.Server
