import TermLang.Json
import TermLang.Server.Frame
import TermLang.Server.Help
import TermLang.Server.Symbol

/-!
# Messages

What the server sends: the answer to a request, a refusal, or the diagnostics of a document.
The order of the members of every object is fixed here.
-/

namespace TermLang.Server

/-- The name that the server goes by. -/
def serverName : String := "lex-lsp"

/-- The name that diagnostics are shown under. -/
def diagnosticSource : String := "lex"

namespace Position

/-- A position as it is sent. -/
def toJson (position : Position) : Json :=
  .ofMembers [("line", .ofInt position.line), ("character", .ofInt position.character)]

end Position

namespace Range

/-- A range as it is sent. -/
def toJson (range : Range) : Json :=
  .ofMembers [("start", range.start.toJson), ("end", range.stop.toJson)]

end Range

namespace Diagnostic

/-- The number of a severity. -/
def severityNumber : Severity → Nat
  | .error => 1
  | .warning => 2

/-- A diagnostic as it is sent. -/
def toJson (diagnostic : Diagnostic) : Json :=
  let code := match diagnostic.code with
    | some code => [("code", Json.ofString code)]
    | none => []
  .ofMembers ([("range", diagnostic.range.toJson),
      ("severity", .ofNat (severityNumber diagnostic.severity))] ++ code ++
    [("source", .ofString diagnosticSource), ("message", .ofString diagnostic.message)])

end Diagnostic

/-- A text in markup as it is sent. -/
def markup (content : String) : Json :=
  .ofMembers [("kind", .ofString "markdown"), ("value", .ofString content)]

namespace Hover

/-- What is shown about a word, as it is sent. -/
def toJson (hover : Hover) : Json :=
  .ofMembers [("contents", markup hover.content), ("range", hover.range.toJson)]

end Hover

namespace Completion

/-- An offered word as it is sent. Keywords have the number 14 and operators 24. -/
def toJson : Completion → Json
  | .keyword form =>
    .ofMembers [("label", .ofString form.keyword), ("kind", .ofNat 14),
      ("detail", .ofString form.usage), ("documentation", markup form.doc)]
  | .operator symbol doc =>
    .ofMembers [("label", .ofString symbol), ("kind", .ofNat 24), ("detail", .ofString doc)]

end Completion

namespace SymbolKind

/-- The number of a kind: module, function, variable or constant. -/
def number : SymbolKind → Nat
  | .load => 2
  | .rule => 12
  | .binding => 13
  | .fact => 14

/-- What a kind is called. -/
def detail : SymbolKind → String
  | .load => "load"
  | .rule => "rule"
  | .binding => "binding"
  | .fact => "fact"

end SymbolKind

namespace PlacedSymbol

/-- A symbol as it is sent. -/
def toJson (placed : PlacedSymbol) : Json :=
  .ofMembers [("name", .ofString placed.symbol.name),
    ("detail", .ofString placed.symbol.kind.detail), ("kind", .ofNat placed.symbol.kind.number),
    ("range", placed.range.toJson), ("selectionRange", placed.selection.toJson)]

end PlacedSymbol

namespace Document.Fold

/-- A stretch of lines as it is sent. -/
def toJson (fold : Fold) : Json :=
  .ofMembers [("startLine", .ofInt fold.first), ("endLine", .ofInt fold.last)]

end Document.Fold

namespace TextEdit

/-- An edit as it is sent. -/
def toJson (edit : TextEdit) : Json :=
  .ofMembers [("range", edit.range.toJson), ("newText", .ofString edit.text)]

end TextEdit

/-- What the server can do, and its name. -/
def capabilities : Json :=
  .ofMembers [
    ("capabilities", .ofMembers [
      ("textDocumentSync", .ofMembers [("openClose", .bool true), ("change", .ofNat 2)]),
      ("hoverProvider", .bool true),
      ("completionProvider", .ofMembers [
        ("triggerCharacters", .array [.ofString ".", .ofString "("])]),
      ("documentSymbolProvider", .bool true),
      ("documentFormattingProvider", .bool true),
      ("foldingRangeProvider", .bool true)]),
    ("serverInfo", .ofMembers [("name", .ofString serverName), ("version", .ofString version)])]

/-- The answer to a request. -/
inductive Answer where
  /-- Nothing to say. -/
  | nothing
  /-- What the server can do. -/
  | capabilities
  /-- What is shown about a word. -/
  | hover (shown : Hover)
  /-- Words that are offered. -/
  | completions (offered : List Completion)
  /-- The symbols of a document. -/
  | symbols (placed : List PlacedSymbol)
  /-- What can be hidden. -/
  | folds (stretches : List Document.Fold)
  /-- Edits to be made. -/
  | edits (wanted : List TextEdit)
  deriving DecidableEq, Inhabited, Repr

namespace Answer

/-- An answer as it is sent. -/
def toJson : Answer → Json
  | .nothing => .null
  | .capabilities => Server.capabilities
  | .hover shown => shown.toJson
  | .completions offered => .array (offered.map Completion.toJson)
  | .symbols placed => .array (placed.map PlacedSymbol.toJson)
  | .folds stretches => .array (stretches.map Document.Fold.toJson)
  | .edits wanted => .array (wanted.map TextEdit.toJson)

end Answer

/-- A message from the server. -/
inductive Message where
  /-- The answer to the request with an identifier. -/
  | answer (id : Option Json) (content : Answer)
  /-- The refusal of a request whose method is not known. -/
  | refusal (id : Json) (method : String)
  /-- The diagnostics of a document, which replace all earlier ones. -/
  | diagnostics (uri : String) (found : List Diagnostic)
  deriving Inhabited, Repr

namespace Message

/-- The version of the envelope. -/
def envelope : String × Json := ("jsonrpc", .ofString "2.0")

/-- The number of the refusal of a method. -/
def methodNotFound : Int := -32601

/-- A message as it is sent. An answer to a message without an identifier has none. -/
def toJson : Message → Json
  | .answer id content =>
    let identifier := match id with
      | some id => [("id", id)]
      | none => []
    .ofMembers ([envelope] ++ identifier ++ [("result", content.toJson)])
  | .refusal id method =>
    .ofMembers [envelope, ("id", id), ("error", .ofMembers [("code", .ofInt methodNotFound),
      ("message", .ofString ("method not found: " ++ method))])]
  | .diagnostics uri found =>
    .ofMembers [envelope, ("method", .ofString "textDocument/publishDiagnostics"),
      ("params", .ofMembers [("uri", .ofString uri),
        ("diagnostics", .array (found.map Diagnostic.toJson))])]

/-- The frame of a message. -/
def toFrame (message : Message) : List UInt8 :=
  Frame.wrap message.toJson.compact.bytes

end Message

end TermLang.Server
