import TermLang.Proofs.Server.Lines
import TermLang.Server

/-!
# Documents are kept up to date

Whatever an editor sends, the server's documents hold what their present texts give, and the last
diagnostics sent for a document are those of its present text; for a document that was closed they
are none. A message changes the document it is about and no other, and a request changes nothing.

The text of a document is changed on several paths, each of which makes the document anew and sends
its diagnostics, or does neither. Which text is the present one is told by `currentText?` from the
messages about the document alone, without the server's store: the last opening counts, a closing
ends it, and each batch in between is applied by the server's own `Change.applyAll`. So it is not
the meaning of a batch that is tested here, but that no path forgets to describe the text which the
batch has left. That a batch replaces the bytes between two offsets, and nothing else, is said of
`Change.Edits`, where the offsets of positions are put in order.

`Reported.respond` is the step of one message, and the law of a conversation is the induction on its
messages. What the answers to requests hold is not covered.
-/

namespace TermLang.Server

/-! ## What a text gives -/

/-- What an editor should underline in a text: nothing for a bracket that is never closed, else the
offending character of a text that cannot be read; in a text that can be read, the words that look
like keywords and name no form. -/
def Diagnostic.ofText (text : Text) : List Diagnostic :=
  match readProgram text.chars with
  | .error error =>
    if error.kind = .unclosedBracket then []
    else [⟨errorRange text error, .error, some (codeOf error.kind), (Fault.parse error).report⟩]
  | .ok _ => (Outline.ofText text).tokens.filterMap (ofToken? text)

namespace Document

/-- A document holds what a text gives. -/
structure Describes (document : Document) (text : Text) : Prop where
  /-- The lines are those of the text. -/
  lines : document.lines = text.lineStarts
  /-- The tokens and brackets are those of the text. -/
  outline : document.outline = .ofText text
  /-- The program is what the text reads as, or what keeps it from being read. -/
  program : document.program = readProgram text.chars
  /-- Positions have the offsets that a walk over the text finds. -/
  offsets : ∀ position, document.offsetOf position = text.offsetOf position
  /-- Offsets have the ranges that a walk over the text finds. -/
  ranges : ∀ start stop, document.rangeOf start stop = text.rangeOf start stop
  /-- The text is that text. -/
  text : document.text = text

/-- A document that was just made describes its text. Its lines, tokens and program are computed
from the text then; that positions found by the lines are those found by a walk is a law about any
text. -/
theorem describes_ofText (text : Text) : (ofText text).Describes text where
  lines := rfl
  outline := rfl
  program := rfl
  offsets position := Text.offsetIn_lineStarts text position
  ranges start stop := by
    simp only [Document.rangeOf, ofText, Text.rangeIn, Text.rangeOf, Text.positionIn_lineStarts]
  text := rfl

/-- The diagnostics of a document that was just made are those of its text. The server goes through
the fault that keeps a text from being read, and of a document only parse errors are possible. -/
theorem diagnostics_ofText (text : Text) :
    (ofText text).diagnostics = Diagnostic.ofText text := by
  change (match readProgram text.chars with
    | .error error => Diagnostic.ofFault text (.parse error)
    | .ok _ => (Outline.ofText text).tokens.filterMap (Diagnostic.ofToken? text)) = _
  rw [Diagnostic.ofText]
  cases readProgram text.chars with
  | error error => rfl
  | ok program => rfl

end Document

/-! ## What messages say about a document -/

/-- The document that a message is about to change. -/
def Call.subject? : Call → Option String
  | .didOpen uri _ | .didChange uri _ | .didClose uri => some uri
  | _ => none

/-- The text of a document after a message about it; none while the document is not open. -/
def Call.textAfter (text? : Option Text) : Call → Option Text
  | .didOpen _ text => some text
  | .didChange _ changes => text?.map (Change.applyAll · changes)
  | .didClose _ => none
  | _ => text?

/-- The text that a document has after messages, by those of them that are about it. -/
def currentText? (uri : String) (calls : List Call) : Option Text :=
  (calls.filter (·.subject? = some uri)).foldl Call.textAfter none

/-- A further message changes the text of its own document only. So what holds of the text after
messages can be proved by adding one message at a time. -/
theorem currentText?_concat (uri : String) (calls : List Call) (call : Call) :
    currentText? uri (calls ++ [call]) =
      if call.subject? = some uri then call.textAfter (currentText? uri calls)
      else currentText? uri calls := by
  rw [currentText?, List.filter_append, List.foldl_append, ← currentText?]
  by_cases about : call.subject? = some uri
  · rw [if_pos about, List.filter_cons_of_pos (by simpa using about)]
    rfl
  · rw [if_neg about, List.filter_cons_of_neg (by simpa using about)]
    rfl

/-- The diagnostics in a message, if they are about a document. -/
def Message.diagnosticsOf? (uri : String) : Message → Option (List Diagnostic)
  | .diagnostics about found => if about = uri then some found else none
  | _ => none

/-- The last diagnostics for a document among the messages sent. -/
def lastDiagnostics? (uri : String) (sent : List Message) : Option (List Diagnostic) :=
  sent.reverse.findSome? (Message.diagnosticsOf? uri)

/-- Of two series of messages the later one decides, if it says anything about the document. A
message that is silent about it leaves what was sent before. -/
theorem lastDiagnostics?_append (uri : String) (sent later : List Message) :
    lastDiagnostics? uri (sent ++ later) =
      (lastDiagnostics? uri later).or (lastDiagnostics? uri sent) := by
  rw [lastDiagnostics?, List.reverse_append, List.findSome?_append]
  rfl

/-- Diagnostics are the last for the document that they are about, and for no other, which is seen
from the name they are sent under. -/
theorem lastDiagnostics?_diagnostics (uri about : String) (found : List Diagnostic) :
    lastDiagnostics? uri [.diagnostics about found] = if about = uri then some found else none := by
  simp only [lastDiagnostics?, List.reverse_singleton, List.findSome?_singleton,
    Message.diagnosticsOf?]

/-- The diagnostics that an editor should have been sent last for a document. -/
def dueDiagnostics? (uri : String) (calls : List Call) : Option (List Diagnostic) :=
  match currentText? uri calls with
  | some text => some (Diagnostic.ofText text)
  | none => if .didClose uri ∈ calls then some [] else none

/-! ## One message -/

namespace Workspace

variable {workspace : Workspace} {sent : List Message} {calls : List Call} {uri : String}

/-- A document is as the messages taken have left it, and what was sent says so. -/
structure Reported (workspace : Workspace) (sent : List Message) (calls : List Call)
    (uri : String) : Prop where
  /-- The document is made from the text that the messages have left. -/
  document : workspace.find? uri = (currentText? uri calls).map .ofText
  /-- The last diagnostics sent are those that are due. -/
  diagnostics : lastDiagnostics? uri sent = dueDiagnostics? uri calls

/-- Nothing is open and nothing was sent, so nothing is due for any document. -/
theorem reported_empty (uri : String) : empty.Reported [] [] uri where
  document := rfl
  diagnostics := rfl

/-- What is due for a document stays due after a message that neither closes it nor changes its
text. For a document that was never open nothing is due, and after the last closing the empty list.
-/
theorem dueDiagnostics?_concat {call : Call}
    (sameText : currentText? uri (calls ++ [call]) = currentText? uri calls)
    (noClose : call ≠ .didClose uri) :
    dueDiagnostics? uri (calls ++ [call]) = dueDiagnostics? uri calls := by
  simp only [dueDiagnostics?, sameText, List.mem_append, List.mem_singleton, noClose.symm, or_false]

/-- Opening a document and showing its diagnostics leaves every other document and its diagnostics
alone. -/
theorem publish_of_ne (workspace : Workspace) {about : String} (document : Document)
    (different : uri ≠ about) :
    (workspace.publish about document).1.find? uri = workspace.find? uri ∧
      lastDiagnostics? uri (workspace.publish about document).2 = none := by
  refine ⟨find?_insert_of_ne _ _ different, ?_⟩
  rw [publish, lastDiagnostics?_diagnostics, if_neg different.symm]

/-- A message changes no document but the one that it is about, and sends no diagnostics of any
other.

Proof: by the kinds of messages. Those that open, change or close name their document, and all
others change none and are answered at most by a response. -/
theorem respond_of_other (workspace : Workspace) (id : Option Json) {call : Call}
    (other : call.subject? ≠ some uri) :
    (workspace.respond id call).1.find? uri = workspace.find? uri ∧
      lastDiagnostics? uri (workspace.respond id call).2 = none := by
  cases call with
  | didOpen about text =>
    have different : uri ≠ about := fun same => other (congrArg some same.symm)
    exact workspace.publish_of_ne _ different
  | didChange about changes =>
    have different : uri ≠ about := fun same => other (congrArg some same.symm)
    simp only [respond]
    split
    · exact ⟨rfl, rfl⟩
    · split
      · exact ⟨rfl, rfl⟩
      · exact workspace.publish_of_ne _ different
  | didClose about =>
    have different : uri ≠ about := fun same => other (congrArg some same.symm)
    refine ⟨find?_erase_of_ne _ different, ?_⟩
    rw [respond, lastDiagnostics?_diagnostics, if_neg different.symm]
  | unknown method =>
    cases id with
    | none => exact ⟨rfl, rfl⟩
    | some id => exact ⟨rfl, rfl⟩
  | _ => exact ⟨rfl, rfl⟩

/-- A document that is made from the text that the messages have left, and shown, is reported. Both
paths that make a document anew, opening and changing, end here. -/
theorem reported_publish (workspace : Workspace) (sent : List Message) {text : Text}
    (isCurrent : currentText? uri calls = some text) :
    (workspace.publish uri (.ofText text)).1.Reported
      (sent ++ (workspace.publish uri (.ofText text)).2) calls uri where
  document := by
    rw [publish, find?_insert_self, isCurrent]
    rfl
  diagnostics := by
    rw [publish, lastDiagnostics?_append, lastDiagnostics?_diagnostics, if_pos rfl,
      Document.diagnostics_ofText, dueDiagnostics?, isCurrent]
    rfl

/-- A document on which a message has no effect stays reported: its text, the document and what was
sent about it are the same as before. -/
theorem Reported.of_unchanged (reported : workspace.Reported sent calls uri) {call : Call}
    {later : Workspace} {answers : List Message}
    (sameText : currentText? uri (calls ++ [call]) = currentText? uri calls)
    (noClose : call ≠ .didClose uri) (sameDocument : later.find? uri = workspace.find? uri)
    (silent : lastDiagnostics? uri answers = none) :
    later.Reported (sent ++ answers) (calls ++ [call]) uri where
  document := by rw [sameDocument, reported.document, sameText]
  diagnostics := by
    rw [lastDiagnostics?_append, silent, Option.none_or, reported.diagnostics,
      dueDiagnostics?_concat sameText noClose]

/-- A batch of changes leaves a document reported: there is nothing to change if the document is not
open or the batch is empty, and otherwise the document is made anew. In the latter case its
diagnostics are sent again, even if the text is the same. -/
theorem Reported.respond_didChange (reported : workspace.Reported sent calls uri)
    (id : Option Json) (changes : List Change) :
    (workspace.respond id (.didChange uri changes)).1.Reported
      (sent ++ (workspace.respond id (.didChange uri changes)).2)
      (calls ++ [.didChange uri changes]) uri := by
  have next : currentText? uri (calls ++ [.didChange uri changes]) =
      (currentText? uri calls).map (Change.applyAll · changes) := by
    rw [currentText?_concat]
    exact if_pos rfl
  have noClose : Call.didChange uri changes ≠ .didClose uri := Call.noConfusion
  have document := reported.document
  cases isCurrent : currentText? uri calls with
  | none =>
    rw [isCurrent] at next document
    rw [Workspace.respond, document]
    exact reported.of_unchanged (next.trans isCurrent.symm) noClose rfl rfl
  | some text =>
    rw [isCurrent] at next document
    rw [Workspace.respond, document]
    cases changes with
    | nil => exact reported.of_unchanged (next.trans isCurrent.symm) noClose rfl rfl
    | cons first more => exact workspace.reported_publish sent next

/-- What holds of a document and of what was sent about it holds after a further message, whichever
document that one is about.

Proof: a message about another document has no effect on this one. A message about it opens it,
changes it or closes it, and closing sends the empty list. -/
theorem Reported.respond (reported : workspace.Reported sent calls uri) (id : Option Json)
    (call : Call) :
    (workspace.respond id call).1.Reported (sent ++ (workspace.respond id call).2)
      (calls ++ [call]) uri := by
  by_cases about : call.subject? = some uri
  case neg =>
    obtain ⟨sameDocument, silent⟩ := workspace.respond_of_other id about
    refine reported.of_unchanged ?_ ?_ sameDocument silent
    · rw [currentText?_concat, if_neg about]
    · rintro rfl
      exact about rfl
  case pos =>
    have next : currentText? uri (calls ++ [call]) = call.textAfter (currentText? uri calls) := by
      rw [currentText?_concat, if_pos about]
    cases call with
    | didOpen opened text =>
      cases about
      exact workspace.reported_publish sent next
    | didChange changed changes =>
      cases about
      exact reported.respond_didChange id changes
    | didClose closed =>
      cases about
      refine ⟨?_, ?_⟩
      · rw [next]
        exact find?_erase_self workspace uri
      · rw [Workspace.respond, lastDiagnostics?_append, lastDiagnostics?_diagnostics, if_pos rfl,
          dueDiagnostics?, next]
        simp [Call.textAfter]
    | _ => cases about

end Workspace

/-! ## A conversation -/

/-- What the message in a body asks for, if there is one. -/
def callOf? (body : List UInt8) : Option Call :=
  (Request.ofBody? body).map (·.call)

/-- The messages that are taken from bodies: those that can be read, up to the one to exit. -/
def takenCalls (bodies : List (List UInt8)) : List Call :=
  (bodies.filterMap callOf?).takeWhile (· ≠ .exit)

namespace Conversation

/-- Once the conversation has ended, nothing is taken, so the documents and what was sent about them
stay as they are. -/
theorem foldl_take_of_exited {conversation : Conversation} (ended : conversation.exited = true)
    (bodies : List (List UInt8)) : bodies.foldl take conversation = conversation := by
  induction bodies with
  | nil => rfl
  | cons body rest inductionHypothesis => rw [List.foldl_cons, take, if_pos ended,
      inductionHypothesis]

/-- A conversation that goes on keeps its documents reported, whatever bodies follow. The induction
is on the bodies: one that cannot be read is passed over, the message to exit ends the conversation,
and any other is one step. -/
theorem foldl_take_reported {conversation : Conversation} {calls : List Call} {uri : String}
    (goesOn : conversation.exited = false)
    (reported : conversation.workspace.Reported conversation.sent calls uri)
    (bodies : List (List UInt8)) :
    (bodies.foldl take conversation).workspace.Reported (bodies.foldl take conversation).sent
      (calls ++ takenCalls bodies) uri := by
  induction bodies generalizing conversation calls with
  | nil => simpa [takenCalls] using reported
  | cons body rest inductionHypothesis =>
    rw [List.foldl_cons, take, if_neg (by simp [goesOn])]
    cases isRequest : Request.ofBody? body with
    | none =>
      have passed : takenCalls (body :: rest) = takenCalls rest := by
        simp [takenCalls, callOf?, isRequest]
      rw [passed]
      exact inductionHypothesis goesOn reported
    | some request =>
      by_cases isExit : request.call = .exit
      · have last : takenCalls (body :: rest) = [] := by
          simp [takenCalls, callOf?, isRequest, isExit]
        simp only [isExit, if_true]
        rw [foldl_take_of_exited rfl, last, List.append_nil]
        exact reported
      · have further : takenCalls (body :: rest) = request.call :: takenCalls rest := by
          simp [takenCalls, callOf?, isRequest, isExit]
        simp only [isExit, if_false]
        rw [further, List.append_cons]
        exact inductionHypothesis goesOn (reported.respond request.id request.call)

/-- A body changes no document but the one that its message is about, and none at all if it holds no
message. -/
theorem find?_take_of_other (conversation : Conversation) {body : List UInt8} {uri : String}
    (other : (callOf? body).bind Call.subject? ≠ some uri) :
    (conversation.take body).workspace.find? uri = conversation.workspace.find? uri := by
  rw [take]
  split
  · rfl
  · split
    · rfl
    · rename_i request isRequest
      rw [callOf?, isRequest] at other
      split
      · rfl
      · exact (conversation.workspace.respond_of_other request.id other).1

end Conversation

/-- After any bodies whatever, every document describes the text that the messages about it have
left, and the last diagnostics sent for it are those of that text, or none if it was closed. A
further body changes no document but the one that its message is about. -/
theorem documents_describe_current_texts (bodies : List (List UInt8)) (uri : String) :
    let calls := takenCalls bodies
    let conversation := bodies.foldl Conversation.take .start
    (∀ text, currentText? uri calls = some text →
      ∃ document, conversation.workspace.find? uri = some document ∧ document.Describes text ∧
        lastDiagnostics? uri conversation.sent = some (Diagnostic.ofText text)) ∧
    (currentText? uri calls = none →
      conversation.workspace.find? uri = none ∧
        lastDiagnostics? uri conversation.sent =
          if .didClose uri ∈ calls then some [] else none) ∧
    ∀ body, (callOf? body).bind Call.subject? ≠ some uri →
      (conversation.take body).workspace.find? uri = conversation.workspace.find? uri := by
  intro calls conversation
  have start : Conversation.start.workspace.Reported Conversation.start.sent [] uri :=
    Workspace.reported_empty uri
  have reported : conversation.workspace.Reported conversation.sent calls uri :=
    Conversation.foldl_take_reported rfl start bodies
  have document := reported.document
  have diagnostics := reported.diagnostics
  rw [dueDiagnostics?] at diagnostics
  refine ⟨?_, ?_, ?_⟩
  · intro text isCurrent
    rw [isCurrent] at document diagnostics
    exact ⟨.ofText text, document, Document.describes_ofText text, diagnostics⟩
  · intro notOpen
    rw [notOpen] at document diagnostics
    exact ⟨document, diagnostics⟩
  · intro body other
    exact conversation.find?_take_of_other other

/-- A body that opens the document `a` with the text `(.lod x`. -/
def openingBody : List UInt8 :=
  (Text.ofString ("\x7b\"method\":\"textDocument/didOpen\",\"params\":\x7b\"textDocument\":" ++
    "\x7b\"uri\":\"a\",\"text\":\"(.lod x\"\x7d\x7d\x7d")).bytes

/-- A body that edits two ranges of it: a bracket is put behind the end of the line, and then the
name, whose ends are sent in reverse, is replaced by another. -/
def editingBody : List UInt8 :=
  (Text.ofString ("\x7b\"method\":\"textDocument/didChange\",\"params\":\x7b\"textDocument\":" ++
    "\x7b\"uri\":\"a\"\x7d,\"contentChanges\":[" ++
    "\x7b\"range\":\x7b\"start\":\x7b\"line\":0,\"character\":99\x7d,\"end\":\x7b\"line\":0," ++
    "\"character\":99\x7d\x7d,\"text\":\")\"\x7d," ++
    "\x7b\"range\":\x7b\"start\":\x7b\"line\":0,\"character\":7\x7d,\"end\":\x7b\"line\":0," ++
    "\"character\":6\x7d\x7d,\"text\":\"yz\"\x7d]\x7d\x7d")).bytes

/-- While the bracket is open there is nothing to underline; once an edit has closed it, the keyword
that names no form is underlined, in the text that both edits of the batch have left. Another
document is not affected. -/
theorem edited_text_is_described :
    let first := [openingBody].foldl Conversation.take .start
    let second := [openingBody, editingBody].foldl Conversation.take .start
    (∃ document, first.workspace.find? "a" = some document ∧
      document.Describes (.ofString "(.lod x") ∧
      lastDiagnostics? "a" first.sent = some (Diagnostic.ofText (.ofString "(.lod x"))) ∧
    (∃ document, second.workspace.find? "a" = some document ∧
      document.Describes (.ofString "(.lod yz)") ∧
      lastDiagnostics? "a" second.sent = some (Diagnostic.ofText (.ofString "(.lod yz)"))) ∧
    Diagnostic.ofText (.ofString "(.lod x") = [] ∧
    (Diagnostic.ofText (.ofString "(.lod yz)")).map (·.code) = [some "UNKNOWN_FORM"] ∧
    (second.workspace.find? "b" = none ∧ lastDiagnostics? "b" second.sent = none) ∧
    (first.take editingBody).workspace.find? "b" = first.workspace.find? "b" := by
  have opening : callOf? openingBody = some (.didOpen "a" (.ofString "(.lod x")) := by
    decide +kernel
  have editing : callOf? editingBody = some (.didChange "a"
      [.part ⟨⟨0, 99⟩, ⟨0, 99⟩⟩ (.ofString ")"), .part ⟨⟨0, 7⟩, ⟨0, 6⟩⟩ (.ofString "yz")]) := by
    decide +kernel
  obtain ⟨firstA, _⟩ := documents_describe_current_texts [openingBody] "a"
  obtain ⟨secondA, _⟩ := documents_describe_current_texts [openingBody, editingBody] "a"
  obtain ⟨_, _, unchanged⟩ := documents_describe_current_texts [openingBody] "b"
  obtain ⟨_, secondB, _⟩ := documents_describe_current_texts [openingBody, editingBody] "b"
  have takenFirst : takenCalls [openingBody] = [.didOpen "a" (.ofString "(.lod x")] := by
    simp [takenCalls, opening]
  have takenSecond : takenCalls [openingBody, editingBody] =
      [.didOpen "a" (.ofString "(.lod x"), .didChange "a" [.part ⟨⟨0, 99⟩, ⟨0, 99⟩⟩ (.ofString ")"),
        .part ⟨⟨0, 7⟩, ⟨0, 6⟩⟩ (.ofString "yz")]] := by
    simp [takenCalls, opening, editing]
  rw [takenFirst] at firstA
  rw [takenSecond] at secondA secondB
  have other : (callOf? editingBody).bind Call.subject? ≠ some "b" := by
    rw [editing]
    decide
  obtain ⟨notOpen, nothingSent⟩ := secondB (by decide)
  rw [if_neg (by decide)] at nothingSent
  exact ⟨firstA _ (by decide), secondA _ (by decide), by decide +kernel, by decide +kernel,
    ⟨notOpen, nothingSent⟩, unchanged editingBody other⟩

end TermLang.Server
