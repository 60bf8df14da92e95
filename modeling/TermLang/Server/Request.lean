import TermLang.Alphabet
import TermLang.Json.Reader
import TermLang.Number.Whole
import TermLang.Server.Change

/-!
# Requests

What an editor sends: a method, parameters, and an identifier if it waits for an answer. Keys
of objects are compared without regard to letter case. Parameters are read with patience: a
member that is missing, null or of the wrong kind leaves its field as it was, and of repeated
members each adds to what the earlier ones said. The envelope is read with less of it: a method
that is no text makes the whole message void.
-/

namespace TermLang.Server

namespace Field

/-- The capital of an ASCII letter, and of the two characters outside ASCII whose case folding
is an ASCII letter. -/
def foldLetter (c : Char) : Char :=
  if c = '\u017F' then 'S'
  else if c = '\u212A' then 'K'
  else c.toUpper

/-- Whether a key names a field. -/
def names (key : Text) (field : String) : Bool :=
  (Json.decode key).toList.map foldLetter == field.toList.map foldLetter

/-- Reads the members of an object one after the other; any other value adds nothing. -/
def readMembers {α : Type} (read : α → Text → Json → α) (start : α) : Json → α
  | .object members => members.foldl (fun value (key, member) => read value key member) start
  | _ => start

/-- A text field after a value for it. -/
def text (old : String) : Json → String
  | .string lexeme => Json.decode lexeme
  | _ => old

/-- The value of the lexeme of a number that has no fraction and no exponent and fits into a
signed word. -/
def whole? (lexeme : List Char) : Option Int :=
  let (negative, digits) := match lexeme with
    | '-' :: rest => (true, rest)
    | other => (false, other)
  if digits.all isDecimalDigit then Number.word? negative digits else none

/-- A whole-number field after a value for it. -/
def int (old : Int) : Json → Int
  | .number lexeme => (whole? lexeme).getD old
  | _ => old

end Field

/-- A position after the members of an object. -/
def Position.read (old : Position) (json : Json) : Position :=
  Field.readMembers (fun position key value =>
    if Field.names key "line" then { position with line := Field.int position.line value }
    else if Field.names key "character" then
      { position with character := Field.int position.character value }
    else position) old json

/-- A range after the members of an object. -/
def Range.read (old : Range) (json : Json) : Range :=
  Field.readMembers (fun range key value =>
    if Field.names key "start" then { range with start := range.start.read value }
    else if Field.names key "end" then { range with stop := range.stop.read value }
    else range) old json

/-- The first position. -/
def Position.first : Position := ⟨0, 0⟩

/-- The empty range at the first position. -/
def Range.first : Range := ⟨.first, .first⟩

/-- A change as it is sent: without a range the whole text is replaced. -/
structure SentChange where
  /-- The range, if one was sent. -/
  range : Option Range
  /-- The new text. -/
  text : String
  deriving DecidableEq, Inhabited, Repr

namespace SentChange

/-- A change of which nothing was sent. -/
def empty : SentChange := ⟨none, ""⟩

/-- The range after a value for it. A null takes it away; every other value makes it one. -/
def readRange (old : Option Range) : Json → Option Range
  | .null => none
  | value => some ((old.getD .first).read value)

/-- A change after the members of an object. -/
def read (old : SentChange) (json : Json) : SentChange :=
  Field.readMembers (fun change key value =>
    if Field.names key "range" then { change with range := readRange change.range value }
    else if Field.names key "text" then { change with text := Field.text change.text value }
    else change) old json

/-- Changes after a list of values, each of which adds to the change at its place. -/
def readItems : (places : List SentChange) → List Json → List SentChange
  | _, [] => []
  | [], item :: rest => empty.read item :: readItems [] rest
  | place :: others, item :: rest => place.read item :: readItems others rest

/-- There are as many changes as values. -/
theorem length_readItems (places : List SentChange) (items : List Json) :
    (readItems places items).length = items.length := by
  induction items generalizing places with
  | nil => simp [readItems]
  | cons item rest ih => cases places <;> simp [readItems, ih]

/-- The change that was meant. -/
def toChange (sent : SentChange) : Change :=
  match sent.range with
  | none => .whole (.ofString sent.text)
  | some range => .part range (.ofString sent.text)

end SentChange

/-- A list of changes as it is sent. Where the list is repeated, each value adds to what its
place has been given before, and a place that a shorter list leaves out keeps what it holds for
a longer one. -/
structure SentChanges where
  /-- The changes of the last list. -/
  current : List SentChange
  /-- What the places behind them hold. -/
  leftOver : List SentChange
  deriving DecidableEq, Inhabited, Repr

namespace SentChanges

/-- No changes, and no places that hold anything. -/
def empty : SentChanges := ⟨[], []⟩

/-- All places, those in use first. -/
def places (changes : SentChanges) : List SentChange :=
  changes.current ++ changes.leftOver

/-- Changes after a value for them. A null and an empty list clear all places. -/
def read (old : SentChanges) : Json → SentChanges
  | .array [] | .null => empty
  | .array items => ⟨SentChange.readItems old.places items, old.places.drop items.length⟩
  | _ => old

end SentChanges

/-- The parameters of all methods. -/
structure Params where
  /-- The document that is meant. -/
  uri : String
  /-- The text of the document. -/
  text : String
  /-- A position in the document. -/
  position : Position
  /-- Changes of the document. -/
  changes : SentChanges
  deriving DecidableEq, Inhabited, Repr

namespace Params

/-- Parameters of which nothing was sent. -/
def empty : Params := ⟨"", "", .first, .empty⟩

/-- Parameters after the members of the object about the document. -/
def readDocument (old : Params) (json : Json) : Params :=
  Field.readMembers (fun params key value =>
    if Field.names key "uri" then { params with uri := Field.text params.uri value }
    else if Field.names key "text" then { params with text := Field.text params.text value }
    else params) old json

/-- Parameters after the members of an object. -/
def read (old : Params) (json : Json) : Params :=
  Field.readMembers (fun params key value =>
    if Field.names key "textDocument" then params.readDocument value
    else if Field.names key "position" then
      { params with position := params.position.read value }
    else if Field.names key "contentChanges" then
      { params with changes := params.changes.read value }
    else params) old json

end Params

/-- A message from the editor. -/
structure Request where
  /-- The identifier, if an answer is expected; it can be any value. -/
  id : Option Json
  /-- What is asked for. -/
  method : String
  /-- The parameters. -/
  params : Json
  deriving Inhabited, Repr

namespace Request

/-- A message of which nothing was sent. -/
def empty : Request := ⟨none, "", .null⟩

/-- A message after one of its members; none if the member makes it void. -/
def readMember? (request : Request) (key : Text) (value : Json) : Option Request :=
  if Field.names key "id" then some { request with id := some value }
  else if Field.names key "params" then some { request with params := value }
  else if Field.names key "method" then
    match value with
    | .string lexeme => some { request with method := Json.decode lexeme }
    | .null => some request
    | _ => none
  else if Field.names key "jsonrpc" then
    match value with
    | .string _ | .null => some request
    | _ => none
  else some request

/-- The message in a value. A null is a message without members. -/
def ofJson? : Json → Option Request
  | .object members =>
    members.foldlM (fun request (key, value) => request.readMember? key value) empty
  | .null => some empty
  | _ => none

/-- The message in the body of a frame. -/
def ofBody? (body : List UInt8) : Option Request :=
  (Json.read? (Text.decode body)).bind ofJson?

end Request

/-- What a message asks for. -/
inductive Call where
  /-- The editor asks what the server can do. -/
  | greet
  /-- The editor has understood. -/
  | greeted
  /-- The editor is about to end the conversation. -/
  | shutdown
  /-- The conversation ends. -/
  | exit
  /-- A document was opened. -/
  | didOpen (uri : String) (text : Text)
  /-- A document was changed. -/
  | didChange (uri : String) (changes : List Change)
  /-- A document was closed. -/
  | didClose (uri : String)
  /-- What is there to say about a position? -/
  | hover (uri : String) (position : Position)
  /-- What could be completed at a position? -/
  | completion (uri : String) (position : Position)
  /-- What does a document set up? -/
  | symbols (uri : String)
  /-- What can be hidden in a document? -/
  | folds (uri : String)
  /-- How is a document formatted? -/
  | formatting (uri : String)
  /-- A method that the server does not know. -/
  | unknown (method : String)
  deriving DecidableEq, Inhabited, Repr

/-- What a message asks for. -/
def Request.call (request : Request) : Call :=
  let params := Params.empty.read request.params
  match request.method with
  | "initialize" => .greet
  | "initialized" => .greeted
  | "shutdown" => .shutdown
  | "exit" => .exit
  | "textDocument/didOpen" => .didOpen params.uri (.ofString params.text)
  | "textDocument/didChange" =>
    .didChange params.uri (params.changes.current.map SentChange.toChange)
  | "textDocument/didClose" => .didClose params.uri
  | "textDocument/hover" => .hover params.uri params.position
  | "textDocument/completion" => .completion params.uri params.position
  | "textDocument/documentSymbol" => .symbols params.uri
  | "textDocument/foldingRange" => .folds params.uri
  | "textDocument/formatting" => .formatting params.uri
  | other => .unknown other

end TermLang.Server
