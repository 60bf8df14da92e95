import TermLang.Proofs.Server.Bounds
import TermLang.Proofs.Server.Framing

/-!
# Every request is answered once

A message of an editor either waits for an answer or announces something. If those that wait carry
an identifier and the others do not, the responses of the server are those to the requests, one for
each, in their order and with their identifiers. Announcements are answered by diagnostics or not
at all, and only the message to exit ends the conversation.

The ways out of the handlers differ in what the response says, not in whether there is one: this is
the step of one message, and the law of a conversation is the induction on its messages. That no
way out is missing for a cut outside of the text is said by `Document.CutsInside`.
-/

namespace TermLang

/-- The value of the member of an object with a name. -/
def Json.member? (json : Json) (name : String) : Option Json :=
  match json with
  | .object members => (members.find? fun entry => decode entry.1 = name).map (·.2)
  | _ => none

namespace Server

/-! ## Requests and announcements -/

/-- The methods of messages that announce something and wait for no answer. -/
def announcements : List String :=
  ["initialized", "exit", "textDocument/didOpen", "textDocument/didChange", "textDocument/didClose"]

/-- Whether a message waits for an answer. -/
def Call.waits : Call → Bool
  | .greeted | .exit | .didOpen _ _ | .didChange _ _ | .didClose _ => false
  | _ => true

namespace Request

/-- Whether a message waits for an answer, by its method. -/
def waits (request : Request) : Bool := request.method ∉ announcements

/-- The method tells whether what a message asks for waits for an answer, also if its parameters are
missing: a message with an unknown method waits as well. -/
theorem waits_call (request : Request) : request.call.waits = request.waits := by
  unfold call
  split
  all_goals simp_all [Call.waits, waits, announcements]

/-- The method tells whether a message asks to exit, and no other method leads there. -/
theorem call_eq_exit_iff (request : Request) :
    request.call = .exit ↔ request.method = "exit" := by
  unfold call
  split
  all_goals simp_all

/-- A message carries an identifier if it waits for an answer, and only then. -/
def WellFormed (request : Request) : Prop := request.id.isSome = request.waits

/-- Whether a message is well formed can be seen from its identifier and its method. -/
instance (request : Request) : Decidable request.WellFormed :=
  inferInstanceAs (Decidable (request.id.isSome = request.waits))

end Request

/-- The messages that are taken from bodies: those that can be read, up to the one to exit. -/
def taken (bodies : List (List UInt8)) : List Request :=
  (bodies.filterMap Request.ofBody?).takeWhile fun request => request.method ≠ "exit"

/-- A body that asks to exit. -/
def AsksToExit (body : List UInt8) : Prop :=
  ∃ request, Request.ofBody? body = some request ∧ request.method = "exit"

/-! ## Responses -/

namespace Message

/-- Whether a message of the server is a response: it has no method of its own. -/
def isResponse (message : Message) : Bool := (message.toJson.member? "method").isNone

/-- A response with an identifier. -/
structure Responds (message : Message) (id : Json) : Prop where
  /-- It is a response. -/
  isResponse : message.isResponse = true
  /-- It has the identifier. -/
  sameId : message.toJson.member? "id" = some id
  /-- It has a result or an error, not both. -/
  outcome : (message.toJson.member? "result").isSome = (message.toJson.member? "error").isNone

/-- An answer to a request holds its identifier and a result, whatever the result is; a null counts
as one. -/
theorem responds_answer (id : Json) (content : Answer) :
    (Message.answer (some id) content).Responds id where
  isResponse := rfl
  sameId := rfl
  outcome := rfl

/-- A refusal holds the identifier of the request and an error, and no result besides. -/
theorem responds_refusal (id : Json) (method : String) :
    (Message.refusal id method).Responds id where
  isResponse := rfl
  sameId := rfl
  outcome := rfl

/-- Diagnostics are no response, because they have a method of their own. -/
theorem isResponse_diagnostics (uri : String) (found : List Diagnostic) :
    (Message.diagnostics uri found).isResponse = false := rfl

end Message

/-- A response to a request has its identifier, and there is one. -/
def Answered (message : Message) (request : Request) : Prop :=
  ∃ id, request.id = some id ∧ message.Responds id

namespace Workspace

/-- A message that waits for an answer is answered at once, whichever documents are open. There is
exactly one message, also about a document that is not open and for a method that is not known. -/
theorem respond_waiting (workspace : Workspace) (id : Json) {call : Call}
    (waits : call.waits = true) :
    ∃ message, (workspace.respond (some id) call).2 = [message] ∧ message.Responds id := by
  cases call with
  | greeted | exit | didOpen | didChange | didClose => cases waits
  | unknown method => exact ⟨_, rfl, Message.responds_refusal id method⟩
  | _ => exact ⟨_, rfl, Message.responds_answer id _⟩

/-- An announcement gets no response. It may be followed by diagnostics, which the editor does not
take for one. -/
theorem respond_announcing (workspace : Workspace) (id : Option Json) {call : Call}
    (announces : call.waits = false) :
    ∀ message ∈ (workspace.respond id call).2, message.isResponse = false := by
  have published (uri : String) (document : Document) :
      ∀ message ∈ (workspace.publish uri document).2, message.isResponse = false :=
    List.forall_mem_singleton.mpr (Message.isResponse_diagnostics _ _)
  cases call with
  | greeted | exit => exact List.forall_mem_nil _
  | didOpen uri text => exact published uri _
  | didChange uri changes =>
    simp only [respond]
    split
    · exact List.forall_mem_nil _
    · split
      · exact List.forall_mem_nil _
      · exact published uri _
  | didClose uri => exact List.forall_mem_singleton.mpr (Message.isResponse_diagnostics _ _)
  | _ => cases announces

/-- A step: a well-formed message is answered once if it waits for an answer, and else not. The two
lists that are compared have one element or none, so that a conversation can put the steps together.
-/
theorem respond_answers (workspace : Workspace) {request : Request}
    (wellFormed : request.WellFormed) :
    List.Forall₂ Answered
      ((workspace.respond request.id request.call).2.filter Message.isResponse)
      ([request].filter Request.waits) := by
  cases waits : request.waits with
  | true =>
    obtain ⟨id, isId⟩ := Option.isSome_iff_exists.mp (wellFormed.trans waits)
    obtain ⟨message, isOnly, responds⟩ :=
      workspace.respond_waiting id (request.waits_call.trans waits)
    rw [isId, isOnly, List.filter_cons_of_pos responds.isResponse, List.filter_cons_of_pos waits]
    exact .cons ⟨id, isId, responds⟩ .nil
  | false =>
    have silent := workspace.respond_announcing request.id (request.waits_call.trans waits)
    rw [List.filter_eq_nil_iff.mpr (by simpa using silent),
      List.filter_cons_of_neg (by simp [waits])]
    exact .nil

end Workspace

/-! ## A conversation -/

namespace Conversation

/-- A run: whatever is open and was sent, the messages in the bodies that follow are answered once
each, and the conversation ends exactly if one of them asks to exit.

Proof: by induction on the bodies. One that cannot be read adds nothing, the message to exit ends
the run, and any other message adds what one step sends. -/
theorem foldl_take_answers {conversation : Conversation} (goesOn : conversation.exited = false)
    {bodies : List (List UInt8)} (wellFormed : ∀ request ∈ taken bodies, request.WellFormed) :
    ∃ later, (bodies.foldl take conversation).sent = conversation.sent ++ later ∧
      List.Forall₂ Answered (later.filter Message.isResponse)
        ((taken bodies).filter Request.waits) ∧
      ((bodies.foldl take conversation).exited = true ↔ ∃ body ∈ bodies, AsksToExit body) := by
  induction bodies generalizing conversation with
  | nil => exact ⟨[], (List.append_nil _).symm, .nil, by simp [goesOn]⟩
  | cons body rest inductionHypothesis =>
    rw [List.foldl_cons, take, if_neg (by simp [goesOn])]
    cases isRequest : Request.ofBody? body with
    | none =>
      have passed : taken (body :: rest) = taken rest := by
        simp [taken, isRequest]
      rw [passed] at wellFormed ⊢
      obtain ⟨later, sent, answers, exits⟩ := inductionHypothesis goesOn wellFormed
      exact ⟨later, sent, answers, by simpa [AsksToExit, isRequest] using exits⟩
    | some request =>
      by_cases isExit : request.method = "exit"
      · have last : taken (body :: rest) = [] := by
          simp [taken, isRequest, isExit]
        simp only [request.call_eq_exit_iff.mpr isExit, if_true]
        rw [foldl_take_of_exited rfl, last]
        exact ⟨[], (List.append_nil _).symm, .nil,
          by simp [AsksToExit, isRequest, isExit]⟩
      · have further : taken (body :: rest) = request :: taken rest := by
          simp [taken, isRequest, isExit]
        rw [further] at wellFormed ⊢
        obtain ⟨first, others⟩ := List.forall_mem_cons.mp wellFormed
        simp only [mt request.call_eq_exit_iff.mp isExit, if_false]
        obtain ⟨later, sent, answers, exits⟩ := @inductionHypothesis
          ⟨(conversation.workspace.respond request.id request.call).1,
            conversation.sent ++ (conversation.workspace.respond request.id request.call).2,
            conversation.exited⟩ goesOn others
        refine ⟨_, sent.trans (List.append_assoc _ _ _), ?_, ?_⟩
        · rw [List.filter_append, ← List.singleton_append, List.filter_append]
          exact List.rel_append (conversation.workspace.respond_answers first) answers
        · simpa [AsksToExit, isRequest, isExit] using exits

end Conversation

/-- What is taken from the first bodies is taken from all, since taking stops at the message to exit
and nowhere else. So a condition on all messages holds of those of every front. -/
theorem mem_taken_of_front {front bodies : List (List UInt8)} (isFront : front <+: bodies)
    {request : Request} (member : request ∈ taken front) : request ∈ taken bodies := by
  obtain ⟨behind, rfl⟩ := isFront
  rw [taken, List.filterMap_append, List.takeWhile_append]
  split
  · exact List.mem_append_left _ ((List.takeWhile_sublist _).subset member)
  · exact member

/-- Every request on a stream is answered once, in order and with its own identifier, and nothing
else is: so it is after every body, whatever is open then. The conversation goes on until a body
asks to exit, and all that is cut out of a document meanwhile lies in its text. -/
theorem requests_answered_in_order (stream : List UInt8)
    (wellFormed : ∀ request ∈ taken (Frame.bodies stream).1, request.WellFormed) :
    let bodies := (Frame.bodies stream).1
    List.Forall₂ Answered ((converse stream).sent.filter Message.isResponse)
      ((taken bodies).filter Request.waits) ∧
    ∀ front, front <+: bodies →
      let conversation := front.foldl Conversation.take .start
      List.Forall₂ Answered (conversation.sent.filter Message.isResponse)
        ((taken front).filter Request.waits) ∧
      (conversation.exited = true ↔ ∃ body ∈ front, AsksToExit body) ∧
      ∀ uri document, conversation.workspace.find? uri = some document →
        document.CutsInside := by
  intro bodies
  have soFar (front : List (List UInt8)) (isFront : front <+: bodies) :
      List.Forall₂ Answered
          ((front.foldl Conversation.take .start).sent.filter Message.isResponse)
          ((taken front).filter Request.waits) ∧
        ((front.foldl Conversation.take .start).exited = true ↔
          ∃ body ∈ front, AsksToExit body) := by
    have wellFormedFront : ∀ request ∈ taken front, request.WellFormed := by
      intro request member
      exact wellFormed request (mem_taken_of_front isFront member)
    have goesOn : Conversation.start.exited = false := rfl
    obtain ⟨later, sent, answers, exits⟩ :=
      Conversation.foldl_take_answers goesOn wellFormedFront
    rw [sent]
    exact ⟨answers, exits⟩
  refine ⟨(soFar bodies (List.prefix_refl bodies)).1, ?_⟩
  intro front isFront conversation
  obtain ⟨answers, exits⟩ := soFar front isFront
  refine ⟨answers, exits, ?_⟩
  intro uri document isOpen
  exact cutsInside_of_open isOpen

/-- A response and its request have one identifier, so the identifiers of the responses are those of
the requests, in order. -/
theorem ids_of_answered {responses : List Message} {requests : List Request}
    (answered : List.Forall₂ Answered responses requests) :
    responses.map (·.toJson.member? "id") = requests.map Request.id := by
  induction answered with
  | nil => rfl
  | cons first _ inductionHypothesis =>
    obtain ⟨id, isId, responds⟩ := first
    rw [List.map_cons, List.map_cons, inductionHypothesis, responds.sameId, isId]

/-- The body of a message from its members. -/
def bodyOf (members : List (String × Json)) : List UInt8 := (Json.ofMembers members).compact.bytes

/-- A body that opens the document `a` with an empty text. -/
def emptyBody : List UInt8 :=
  bodyOf [("method", .ofString "textDocument/didOpen"),
    ("params", .ofMembers [("textDocument", .ofMembers [("uri", .ofString "a")])])]

/-- A body that asks to exit. -/
def exitBody : List UInt8 := bodyOf [("method", .ofString "exit")]

/-- Behind an announcement that opens a document there are a request about a document that is not
open and one with an unknown method and a null for an identifier. The last request is behind the
message to exit. -/
theorem requests_before_exit_are_answered :
    let bodies := [emptyBody,
      bodyOf [("id", .ofString "two"), ("method", .ofString "textDocument/hover")],
      bodyOf [("id", .null), ("method", .ofString "other")],
      exitBody,
      bodyOf [("id", .ofNat 4), ("method", .ofString "shutdown")]]
    let stream := bodies.flatMap Frame.wrap
    (∀ request ∈ taken (Frame.bodies stream).1, request.WellFormed) ∧
    ((converse stream).sent.filter Message.isResponse).map
        (fun response => (response.toJson.member? "id").map Json.compact) =
      [some (.ofString "\"two\""), some (.ofString "null")] ∧
    (bodies.foldl Conversation.take .start).exited = true ∧
    ∃ document, ([emptyBody].foldl Conversation.take .start).workspace.find? "a" = some document ∧
      document.CutsInside := by
  intro bodies stream
  have fit : ∀ body ∈ bodies, body ≠ [] ∧ (body.length : Int) ≤ Number.greatestWord := by
    decide +kernel
  obtain ⟨frames, sameBytes, sameBodies⟩ := Frame.exists_sent fit
  have read : (Frame.bodies stream).1 = bodies := by
    change (Frame.bodies (bodies.flatMap Frame.wrap)).1 = bodies
    rw [← sameBytes, Frame.bodies_sent, sameBodies]
  have wellFormed : ∀ request ∈ taken (Frame.bodies stream).1, request.WellFormed := by
    rw [read]
    decide +kernel
  obtain ⟨answered, soFar⟩ := requests_answered_in_order stream wellFormed
  rw [read] at answered soFar
  refine ⟨wellFormed, ?_, ?_, ?_⟩
  · have ids := congrArg (List.map (Option.map Json.compact)) (ids_of_answered answered)
    rw [List.map_map, List.map_map] at ids
    exact ids.trans (by decide +kernel)
  · obtain ⟨_, exits, _⟩ := soFar bodies (List.prefix_refl bodies)
    have asks : (Request.ofBody? exitBody).map Request.method = some "exit" := by decide +kernel
    obtain ⟨request, isRequest, isExit⟩ := Option.map_eq_some_iff.mp asks
    exact exits.mpr ⟨exitBody, by simp [bodies], request, isRequest, isExit⟩
  · obtain ⟨_, _, cuts⟩ := soFar [emptyBody] ⟨_, rfl⟩
    have isOpen : (([emptyBody].foldl Conversation.take .start).workspace.find? "a").isSome =
        true := by
      decide +kernel
    obtain ⟨document, found⟩ := Option.isSome_iff_exists.mp isOpen
    exact ⟨document, found, cuts "a" document found⟩

end Server

end TermLang
