import TermLang.Server.Message
import TermLang.Server.Request

/-!
# The language server

The server keeps the open documents and answers one message after the other. Opening, changing
or closing a document makes it send the diagnostics of that document; every request is
answered at once. The conversation ends with the message to exit or with the stream.
-/

namespace TermLang.Server

/-- The open documents by their names. -/
structure Workspace where
  /-- Names with documents, the latest first. -/
  documents : List (String × Document)

namespace Workspace

/-- No document is open. -/
def empty : Workspace :=
  ⟨[]⟩

/-- The document that is open under a name. -/
def find? (workspace : Workspace) (uri : String) : Option Document :=
  (workspace.documents.find? (·.1 == uri)).map (·.2)

/-- Closes a document. -/
def erase (workspace : Workspace) (uri : String) : Workspace :=
  ⟨workspace.documents.filter (·.1 != uri)⟩

/-- Opens a document in place of the one that is open under its name. -/
def insert (workspace : Workspace) (uri : String) (document : Document) : Workspace :=
  ⟨(uri, document) :: (workspace.erase uri).documents⟩

/-- A closed document is not open. -/
@[simp]
theorem find?_erase_self (workspace : Workspace) (uri : String) :
    (workspace.erase uri).find? uri = none := by
  simp [find?, erase]

/-- Closing a document leaves the others open. -/
theorem find?_erase_of_ne (workspace : Workspace) {uri other : String} (different : other ≠ uri) :
    (workspace.erase uri).find? other = workspace.find? other := by
  simp only [find?, erase, List.find?_filter]
  congr 2
  funext entry
  by_cases same : entry.1 = other
  · simp [same, different]
  · simp [same]

/-- A document that was just opened is open. -/
@[simp]
theorem find?_insert_self (workspace : Workspace) (uri : String) (document : Document) :
    (workspace.insert uri document).find? uri = some document := by
  simp [find?, insert]

/-- Opening a document leaves the others as they are. -/
theorem find?_insert_of_ne (workspace : Workspace) {uri other : String} (document : Document)
    (different : other ≠ uri) :
    (workspace.insert uri document).find? other = workspace.find? other := by
  have unequal : (uri == other) = false := by simpa using different.symm
  rw [← find?_erase_of_ne workspace different]
  simp [find?, insert, unequal]

/-- Opens a document and shows its diagnostics. -/
def publish (workspace : Workspace) (uri : String) (document : Document) :
    Workspace × List Message :=
  (workspace.insert uri document, [.diagnostics uri document.diagnostics])

/-- What a request about documents is answered with. -/
def answer (workspace : Workspace) : Call → Answer
  | .greet => .capabilities
  | .hover uri position =>
    match (workspace.find? uri).bind fun document => Hover.at? document position with
    | some hover => .hover hover
    | none => .nothing
  | .completion uri position =>
    let start := match workspace.find? uri with
      | some document => Completion.startAt document position
      | none => []
    .completions (Completion.ofStart start)
  | .symbols uri => .symbols (((workspace.find? uri).map Document.symbols).getD [])
  | .folds uri => .folds (((workspace.find? uri).map Document.folds).getD [])
  | .formatting uri => .edits (((workspace.find? uri).map Document.formatting).getD [])
  | _ => .nothing

/-- Takes a message: the open documents after it, and what is sent because of it. -/
def respond (workspace : Workspace) (id : Option Json) (call : Call) :
    Workspace × List Message :=
  match call with
  | .greeted | .exit => (workspace, [])
  | .didOpen uri text => workspace.publish uri (.ofText text)
  | .didChange uri changes =>
    match workspace.find? uri with
    | none => (workspace, [])
    | some document =>
      if changes.isEmpty then (workspace, []) else workspace.publish uri (document.change changes)
  | .didClose uri => (workspace.erase uri, [.diagnostics uri []])
  | .unknown method =>
    match id with
    | some id => (workspace, [.refusal id method])
    | none => (workspace, [])
  | _ => (workspace, [.answer id (workspace.answer call)])

end Workspace

/-- A conversation up to some point. -/
structure Conversation where
  /-- The open documents. -/
  workspace : Workspace
  /-- What was sent, in order. -/
  sent : List Message
  /-- Whether the editor has ended the conversation. -/
  exited : Bool

namespace Conversation

/-- Before the first message. -/
def start : Conversation :=
  ⟨.empty, [], false⟩

/-- Takes the body of a frame. A body that is no message is passed over, and nothing is taken
once the conversation has ended. -/
def take (conversation : Conversation) (body : List UInt8) : Conversation :=
  if conversation.exited then conversation
  else
    match Request.ofBody? body with
    | none => conversation
    | some request =>
      if request.call = .exit then { conversation with exited := true }
      else
        let (workspace, sent) := conversation.workspace.respond request.id request.call
        { conversation with workspace, sent := conversation.sent ++ sent }

end Conversation

/-- What is reported about a frame that is cut short. -/
def cutReport : String := "read error: unexpected EOF\n"

/-- What a whole conversation leaves on the outputs. -/
structure Transcript where
  /-- The messages on the standard output. -/
  sent : List Message
  /-- What was written to the standard error output. -/
  errors : String

/-- Talks with an editor until the stream or the conversation ends. A frame that is cut short
is reported unless the conversation has ended before. -/
def converse (stream : List UInt8) : Transcript :=
  let (bodies, cut) := Frame.bodies stream
  let conversation := bodies.foldl Conversation.take .start
  ⟨conversation.sent,
    if cut && !conversation.exited then cutReport else ""⟩

/-- The bytes of a transcript on the standard output. -/
def Transcript.output (transcript : Transcript) : List UInt8 :=
  transcript.sent.flatMap Message.toFrame

end TermLang.Server
