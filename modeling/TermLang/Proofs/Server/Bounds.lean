import TermLang.Proofs.Server.Pairs
import TermLang.Proofs.Server.Upkeep

/-!
# Texts are cut inside

To answer a message the server cuts stretches out of the text of a document: the start of a word up
to a position, a list between its brackets, what stands in front of the first token of a list, and
what a change leaves. Each is given by byte offsets, and a stretch that does not lie in the text
would end the server with all its documents. In every document that is open, whatever was sent
before, every such stretch lies in the text.

Where tokens and brackets lie is known of texts in which no ASCII byte stands outside of its
character. What an editor sends is such a text, and a change leaves one such text if it was given
one.
-/

namespace TermLang

/-! ## Texts that are sent -/

namespace Text

/-- A text made of characters has no stray bytes, so none of them is ASCII. -/
theorem highStrays_ofString (characters : String) : (ofString characters).HighStrays := by
  intro byte member
  obtain ⟨c, _, other⟩ := List.mem_map.mp member
  cases other

/-- The first bytes of a text hold no other strays than the text, because they are its first glyphs.
-/
theorem HighStrays.upTo {text : Text} (high : text.HighStrays) (offset : Nat) :
    (text.upTo offset).HighStrays := by
  rw [← upTo_append_past offset text] at high
  exact (highStrays_append.mp high).1

/-- What is left of a text holds no other strays than the text, because it consists of its last
glyphs. -/
theorem HighStrays.past {text : Text} (high : text.HighStrays) (offset : Nat) :
    (text.past offset).HighStrays := by
  rw [← upTo_append_past offset text] at high
  exact (highStrays_append.mp high).2

/-- A stretch of bytes lies in a text. -/
structure Holds (text : Text) (start stop : Nat) : Prop where
  /-- It does not end before it starts. -/
  ordered : start ≤ stop
  /-- It ends in the text. -/
  inside : stop ≤ text.width

end Text

namespace Server

/-- The text that a change brings. -/
def Change.brought : Change → Text
  | .whole text | .part _ text => text

/-- The texts that a message brings have no ASCII byte outside of its character. -/
def Call.BringsHigh : Call → Prop
  | .didOpen _ text => text.HighStrays
  | .didChange _ changes => ∀ change ∈ changes, change.brought.HighStrays
  | _ => True

/-- What an editor sends is made of characters, whatever bytes its message had: the texts in a
message are strings by the time they are taken. -/
theorem Request.bringsHigh_call (request : Request) : request.call.BringsHigh := by
  unfold Request.call
  split
  case h_5 => exact Text.highStrays_ofString _
  case h_6 =>
    intro change member
    obtain ⟨sent, _, rfl⟩ := List.mem_map.mp member
    rw [SentChange.toChange]
    split
    · exact Text.highStrays_ofString _
    · exact Text.highStrays_ofString _
  all_goals trivial

/-- A batch of changes keeps ASCII bytes in their characters. A whole replacement is one of the
texts that are brought, and a change of a range puts such a text between two parts of the old one.
-/
theorem Change.highStrays_applyAll {text : Text} (high : text.HighStrays) {changes : List Change}
    (brought : ∀ change ∈ changes, change.brought.HighStrays) :
    (applyAll text changes).HighStrays := by
  rw [applyAll]
  split
  · rename_i replacement isWhole
    obtain ⟨change, member, whole⟩ := List.exists_of_findSome?_eq_some isWhole
    cases change with
    | whole replaced =>
      cases whole
      exact brought _ member
    | part range inserted => cases whole
  · clear * - high brought
    induction changes generalizing text with
    | nil => exact high
    | cons change later inductionHypothesis =>
      obtain ⟨first, others⟩ := List.forall_mem_cons.mp brought
      rw [List.foldl_cons]
      refine inductionHypothesis ?_ others
      cases change with
      | whole replacement => exact first
      | part range inserted =>
        rw [apply, splice, Text.highStrays_append, Text.highStrays_append]
        exact ⟨⟨high.upTo _, first⟩, high.past _⟩

/-- A run: messages that bring such texts leave such texts.

Proof: by induction on the messages from the last one back. The last decides if it is about the
document, and its changes start from the text that the earlier ones have left. -/
theorem highStrays_of_currentText? {uri : String} {calls : List Call}
    (bring : ∀ call ∈ calls, call.BringsHigh) {text : Text}
    (isCurrent : currentText? uri calls = some text) : text.HighStrays := by
  induction calls using List.reverseRecOn generalizing text with
  | nil => cases isCurrent
  | append_singleton earlier call inductionHypothesis =>
    have before {old : Text} (wasCurrent : currentText? uri earlier = some old) : old.HighStrays :=
      inductionHypothesis (fun call member => bring call (by simp [member])) wasCurrent
    have brings : call.BringsHigh := bring call (by simp)
    rw [currentText?_concat] at isCurrent
    split at isCurrent
    · cases call with
      | didOpen opened given =>
        cases isCurrent
        exact brings
      | didChange changed changes =>
        obtain ⟨old, wasCurrent, rfl⟩ := Option.map_eq_some_iff.mp isCurrent
        exact Change.highStrays_applyAll (before wasCurrent) brings
      | didClose closed => cases isCurrent
      | _ => exact before isCurrent
    · exact before isCurrent

/-- Messages that are taken bring texts that are made of characters, since each of them is read from
a body as a request. -/
theorem bringsHigh_of_mem_takenCalls {bodies : List (List UInt8)} {call : Call}
    (member : call ∈ takenCalls bodies) : call.BringsHigh := by
  have among := (List.takeWhile_sublist _).subset member
  obtain ⟨body, _, isCall⟩ := List.mem_filterMap.mp among
  obtain ⟨request, _, rfl⟩ := Option.map_eq_some_iff.mp isCall
  exact request.bringsHigh_call

/-! ## Stretches of one document -/

/-- Whatever is cut out of the text of a document to answer a message lies in it. -/
structure Document.CutsInside (document : Document) : Prop where
  /-- Lines start in the text. -/
  lines : ∀ start ∈ document.lines, start ≤ document.text.width
  /-- Positions are moved into the text, however far outside they are. -/
  positions : ∀ position, document.offsetOf position ≤ document.text.width
  /-- So are the ends of changes, in every text that the changes of a batch go through. -/
  changes : ∀ (earlier : List Change) (position : Position),
    (earlier.foldl Change.apply document.text).offsetOf position ≤
      (earlier.foldl Change.apply document.text).width
  /-- So are the lines and columns of errors. -/
  columns : ∀ line column, document.text.offsetOfColumn line column ≤ document.text.width
  /-- Tokens lie in the text. -/
  tokens : ∀ token ∈ document.outline.tokens, document.text.Holds token.start token.stop
  /-- So does the start of a word that is to be completed. -/
  words : ∀ position word, document.wordAt? position = some word →
    document.text.Holds word.start (document.offsetOf position)
  /-- So does a list that is read on its own. -/
  lists : ∀ span ∈ document.outline.spans, document.text.Holds span.start span.stop
  /-- So does what stands between an opening bracket and a token behind it. -/
  heads : ∀ span ∈ document.outline.spans, ∀ token ∈ document.outline.tokens,
    span.start < token.start → document.text.Holds (span.start + 1) token.start

/-- The lines of a text that starts at an offset start in it, the last of them at its end if the
text ends with a newline. -/
theorem le_of_mem_laterLines {offset start : Nat} {text : Text}
    (member : start ∈ Text.laterLines offset text) : start ≤ offset + text.width := by
  induction text generalizing offset with
  | nil => cases member
  | cons glyph rest inductionHypothesis =>
    rw [Text.width_cons]
    rw [Text.laterLines] at member
    split at member
    · rcases List.mem_cons.mp member with rfl | later
      · omega
      · have := inductionHypothesis later
        omega
    · have := inductionHypothesis member
      omega

/-- A count of code points never leaves the text: it takes whole glyphs and stops where there are
none. -/
theorem bytesBeforeColumn_le_width (column : Nat) (text : Text) :
    Text.bytesBeforeColumn column text ≤ text.width := by
  induction text generalizing column with
  | nil => cases column <;> simp [Text.bytesBeforeColumn]
  | cons glyph rest inductionHypothesis =>
    cases column with
    | zero => simp [Text.bytesBeforeColumn]
    | succ column =>
      have counted := inductionHypothesis column
      rw [Text.bytesBeforeColumn, Text.width_cons]
      split
      · omega
      · omega

/-- Every line and column have an offset in the text, also those that no error has. A line that does
not exist is the end of the text. -/
theorem offsetOfColumn_le_width (text : Text) (line column : Int) :
    text.offsetOfColumn line column ≤ text.width := by
  rw [Text.offsetOfColumn]
  split
  · exact Nat.le_refl _
  · rename_i start rest found
    have whole := Text.add_width_of_fromLine? found
    have inside := bytesBeforeColumn_le_width column.toNat rest
    omega

namespace Document

/-- A pair of brackets lies in the text. Both its brackets are marks of the scan, in this order, and
a mark of the scan takes bytes of the text. -/
theorem holds_span {text : Text} (high : text.HighStrays) {span : Span}
    (member : span ∈ (Outline.ofText text).spans) : text.Holds span.start span.stop := by
  have split := Mark.split_scan high 0
  obtain ⟨front, behind, parts, last, closed, isSpan⟩ := Span.mem_ofMarks_iff.mp member
  obtain ⟨inside, after, isBehind, _⟩ := Span.closing?_eq_some_iff.mp closed
  have stops : span.stop = last + 1 := congrArg Span.stop isSpan
  have placed : Mark.scan .nothing 0 text =
      front ++ .opening span.start :: (inside ++ .closing last :: after) := by
    rw [← isBehind]
    exact parts
  have inOrder := split.ordered
  rw [placed] at inOrder
  have order : span.start + 1 ≤ last := Ordered.stop_le inOrder
  have bounds := split.bounds (.closing last) (by simp [placed])
  rw [Text.length_bytes, Nat.zero_add] at bounds
  refine ⟨by omega, ?_⟩
  rw [stops]
  exact bounds.2.2

/-- A token lies in the text, as every mark of the scan does. -/
theorem holds_token {text : Text} (high : text.HighStrays) {token : Token}
    (member : token ∈ (Outline.ofText text).tokens) : text.Holds token.start token.stop := by
  have split := Mark.split_scan high 0
  have bounds := split.bounds _ (Mark.mem_tokens_iff.mp member)
  rw [Text.length_bytes, Nat.zero_add] at bounds
  exact ⟨Nat.le_add_right _ _, bounds.2.2⟩

/-- Every position has an offset in the text, by the lines that the document keeps as well as by a
walk, since the two agree. -/
theorem offsetOf_ofText_le (text : Text) (position : Position) :
    (ofText text).offsetOf position ≤ text.width := by
  rw [(describes_ofText text).offsets]
  exact text.offsetOf_le_width position

/-- A document that is made from a text without ASCII strays is cut inside. All that the server cuts
is bounded by offsets of positions, tokens and brackets, and each of these lies in the text. -/
theorem cutsInside_ofText {text : Text} (high : text.HighStrays) : (ofText text).CutsInside where
  lines := by
    intro start member
    rcases List.mem_cons.mp member with rfl | later
    · exact Nat.zero_le _
    · have := le_of_mem_laterLines later
      rwa [Nat.zero_add] at this
  positions := offsetOf_ofText_le text
  changes := by
    intro earlier position
    exact Text.offsetOf_le_width _ position
  columns := offsetOfColumn_le_width text
  tokens := by
    intro token member
    exact holds_token high member
  words := by
    intro position word isWord
    rw [wordAt?] at isWord
    split at isWord
    · rename_i token found
      have touches := List.find?_some found
      simp only [Token.touches, Bool.and_eq_true, decide_eq_true_eq, Int.ofNat_le] at touches
      split at isWord
      · cases isWord
      · cases isWord
        exact ⟨touches.1, offsetOf_ofText_le text position⟩
    · cases isWord
  lists := by
    intro span member
    exact holds_span high member
  heads := by
    intro span _ token member behind
    have := holds_token high member
    exact ⟨behind, Nat.le_trans this.ordered this.inside⟩

end Document

/-- Every document that is open after any bodies is cut inside. It is the document of the text that
the messages have left, and that text has no ASCII strays. -/
theorem cutsInside_of_open {bodies : List (List UInt8)} {uri : String} {document : Document}
    (isOpen : (bodies.foldl Conversation.take .start).workspace.find? uri = some document) :
    document.CutsInside := by
  have start : Conversation.start.workspace.Reported Conversation.start.sent [] uri :=
    Workspace.reported_empty uri
  have reported := Conversation.foldl_take_reported rfl start bodies
  rw [reported.document] at isOpen
  obtain ⟨text, isCurrent, rfl⟩ := Option.map_eq_some_iff.mp isOpen
  refine Document.cutsInside_ofText (highStrays_of_currentText? ?_ isCurrent)
  intro call member
  exact bringsHigh_of_mem_takenCalls member

end Server

end TermLang
