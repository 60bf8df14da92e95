import TermLang.Proofs.Console.Formatting
import TermLang.Proofs.Server.Positions

/-!
# Sending the formatting edit back

The server offers one edit for a document that is not in canonical layout: from the start of the
text to its end. The edit is sent in positions, and a carriage return takes no room in a position.
So the position of the end is that of the place in front of the carriage returns with which the text
ends, and these are left behind when the edit is sent back.

They are blanks, so the document still reads as the same program. But it is in canonical layout, and
the server has nothing more to offer, exactly if the text did not end with a carriage return.
-/

namespace TermLang

namespace Grammar

/-- Blanks at the end of a program do not change it: behind the last form a program goes on with
blanks and nothing else. -/
theorem Program.append_blanks {source blanks : List Char} {forms : List Term}
    (program : Program source forms) (divide : ∀ c ∈ blanks, isDivider c = true) :
    Program (source ++ blanks) forms := by
  induction program with
  | done =>
    induction blanks with
    | nil => exact .done
    | cons c rest inductionHypothesis =>
      obtain ⟨first, others⟩ := List.forall_mem_cons.mp divide
      exact .blank first (inductionHypothesis others)
  | blank divides rest inductionHypothesis => exact .blank divides inductionHypothesis
  | list body rest inductionHypothesis =>
    rw [List.cons_append, List.append_assoc, List.cons_append]
    exact .list body inductionHypothesis

end Grammar

namespace Server

open Text

/-- A change of the range of the whole text leaves the closing returns. The range starts at the
start of the text, but the position of its end leads to the place in front of the returns, so what
is replaced ends there. -/
theorem Change.apply_whole_range (text inserted : Text) :
    Change.apply text (.part (text.rangeIn text.lineStarts 0 text.width) inserted) =
      inserted ++ text.closingReturns := by
  obtain ⟨body, parts, noReturn⟩ := text.exists_body
  have stop := offsetOf_positionOf_width parts noReturn []
  rw [List.append_nil] at stop
  have nothing : text.upTo 0 = [] := upTo_width_append [] text
  have starts : text.IsPlace 0 := ⟨by rw [nothing]; rfl, by rw [nothing]; simp⟩
  have behind : text.past body.width = text.closingReturns := by
    have split := past_width_append body text.closingReturns
    rwa [← parts] at split
  simp only [apply, rangeIn, positionIn_lineStarts, stop, splice]
  rw [← Int.natCast_zero, starts.offsetOf_positionOf, Nat.min_eq_left (Nat.zero_le _),
    Nat.max_eq_right (Nat.zero_le _), nothing, behind, List.nil_append]

/-- A program in canonical layout with carriage returns behind it reads back as that program,
because a return is a blank between forms. -/
theorem formatted_append_returns_reads_back {source : List Char} {program : Term}
    (read : readProgram source = .ok program) (text : Text) :
    readProgram (ofString program.formatted ++ text.closingReturns).chars = .ok program := by
  obtain ⟨forms, rfl, derived⟩ := Reader.program_of_readProgram read
  have blanks : ∀ c ∈ text.closingReturns.chars, isDivider c = true := by
    intro c member
    obtain ⟨glyph, isReturn, rfl⟩ := List.mem_map.mp member
    rw [eq_return_of_mem_closingReturns isReturn]
    rfl
  have program := (Term.formatted_program derived).append_blanks blanks
  rw [chars_append, chars_ofString]
  exact Reader.readProgram_of_program program

/-- A document that can be read is offered one edit, unless it is in canonical layout. The edit
spans the whole text, by the lines that the document keeps. -/
theorem Document.formatting_ofText {text : Text} {program : Term}
    (read : readProgram text.chars = .ok program) :
    (Document.ofText text).formatting =
      if text = ofString program.formatted then []
      else [⟨text.rangeIn text.lineStarts 0 text.width, program.formatted⟩] := by
  simp only [Document.formatting, Document.ofText, read, Document.rangeOf]

namespace Workspace

/-- A request for the formatting of an open document is answered with its edits, and no document
changes by being asked. -/
theorem respond_formatting {workspace : Workspace} {uri : String} {document : Document}
    (opened : workspace.find? uri = some document) (id : Option Json) :
    workspace.respond id (.formatting uri) =
      (workspace, [.answer id (.edits document.formatting)]) := by
  simp only [respond, answer, opened, Option.map_some, Option.getD_some]

/-- A notification leaves an open document open, made anew from the text that the batch leaves. So
after the edit the document is again the one of its text, and can be asked once more. -/
theorem find?_notified {workspace : Workspace} {uri : String} {text : Text}
    (opened : workspace.find? uri = some (.ofText text)) (change : Change) :
    (workspace.notified uri [change]).find? uri = some (.ofText (change.apply text)) := by
  simp only [notified, respond, opened, List.isEmpty_cons, Bool.false_eq_true, if_false, publish,
    find?_insert_self, Document.change, Change.applyAll_singleton]
  rfl

/-- Nothing is offered for an open document that can be read exactly if it is in canonical layout,
character for character. -/
theorem offers_nothing_iff {workspace : Workspace} {uri : String} {text : Text} {program : Term}
    (opened : workspace.find? uri = some (.ofText text))
    (read : readProgram text.chars = .ok program) (id : Option Json) :
    workspace.respond id (.formatting uri) = (workspace, [.answer id (.edits [])]) ↔
      text = ofString program.formatted := by
  rw [respond_formatting opened, Document.formatting_ofText read]
  split
  · rename_i isFormatted
    simp [isFormatted]
  · rename_i notFormatted
    simp [notFormatted]

/-- A document that can be read is in canonical layout, and nothing is offered; or one edit is
offered, and when it is sent back the document is in canonical layout but for the carriage returns
with which it ended. It reads as before. It is in canonical layout, and nothing more is offered,
exactly if it did not end with a carriage return. -/
theorem formatting_edit_formats_iff {workspace : Workspace} {uri : String} {text : Text}
    {program : Term} (opened : workspace.find? uri = some (.ofText text))
    (read : readProgram text.chars = .ok program) (id : Option Json) :
    let formatted := ofString program.formatted
    (workspace.respond id (.formatting uri) = (workspace, [.answer id (.edits [])]) ↔
      text = formatted) ∧
    (text ≠ formatted →
      ∃ edit, workspace.respond id (.formatting uri) = (workspace, [.answer id (.edits [edit])]) ∧
        let changed := workspace.notified uri [.part edit.range (ofString edit.text)]
        changed.textOf? uri = some (formatted ++ text.closingReturns) ∧
        readProgram (formatted ++ text.closingReturns).chars = .ok program ∧
        (changed.textOf? uri = some formatted ↔ text.getLast? ≠ some (.scalar '\r')) ∧
        (changed.respond id (.formatting uri) = (changed, [.answer id (.edits [])]) ↔
          text.getLast? ≠ some (.scalar '\r'))) := by
  intro formatted
  refine ⟨offers_nothing_iff opened read id, ?_⟩
  intro notFormatted
  have offered := respond_formatting opened id
  rw [Document.formatting_ofText read, if_neg notFormatted] at offered
  -- The edit is sent back as it came, and its range ends in front of the closing returns.
  have reopened := find?_notified opened
    (.part (text.rangeIn text.lineStarts 0 text.width) formatted)
  rw [Change.apply_whole_range] at reopened
  have textAfter := congrArg (Option.map Document.text) reopened
  have again := formatted_append_returns_reads_back read text
  have settled : formatted ++ text.closingReturns = formatted ↔
      text.getLast? ≠ some (.scalar '\r') := by
    rw [List.append_right_eq_self, closingReturns_eq_nil_iff]
  refine ⟨_, offered, textAfter, again, ?_, ?_⟩
  · rw [textOf?, textAfter, ← settled]
    exact Option.some_inj
  · rw [offers_nothing_iff reopened again, settled]

/-- A document with a code point above the basic plane and an end of a line that starts with a
carriage return; it ends with a blank. -/
theorem formatting_edit_formats_blanks :
    let text := ofString "(\"😀\")\r\n "
    let workspace := empty.insert "a" (.ofText text)
    let changed := workspace.notified "a" [.part ⟨⟨0, 0⟩, ⟨1, 1⟩⟩ (ofString "( \"😀\" )\n")]
    workspace.respond none (.formatting "a") =
        (workspace, [.answer none (.edits [⟨⟨⟨0, 0⟩, ⟨1, 1⟩⟩, "( \"😀\" )\n"⟩])]) ∧
      changed.textOf? "a" = some (ofString "( \"😀\" )\n") ∧
      changed.respond none (.formatting "a") = (changed, [.answer none (.edits [])]) := by
  intro text workspace changed
  have opened : workspace.find? "a" = some (.ofText text) := rfl
  have read : readProgram text.chars = .ok (.list [.list [.str "😀"]]) := rfl
  have offered : workspace.respond none (.formatting "a") =
      (workspace, [.answer none (.edits [⟨⟨⟨0, 0⟩, ⟨1, 1⟩⟩, "( \"😀\" )\n"⟩])]) := rfl
  obtain ⟨_, offers⟩ := formatting_edit_formats_iff opened read none
  obtain ⟨edit, isOffered, _, _, inLayout, settled⟩ := offers (by decide)
  rw [offered] at isOffered
  cases isOffered
  have noReturn : text.getLast? ≠ some (.scalar '\r') := by decide
  exact ⟨offered, inLayout.mpr noReturn, settled.mpr noReturn⟩

/-- The edit of a document that ends with a carriage return does not bring it into canonical
layout. -/
theorem closing_return_is_left :
    ¬ ∀ (workspace : Workspace) (uri : String) (text : Text) (program : Term) (id : Option Json)
      (edit : TextEdit), workspace.find? uri = some (.ofText text) →
        readProgram text.chars = .ok program →
        workspace.respond id (.formatting uri) = (workspace, [.answer id (.edits [edit])]) →
          (workspace.notified uri [.part edit.range (ofString edit.text)]).textOf? uri =
            some (ofString program.formatted) := by
  intro formats
  have same := formats (empty.insert "a" (.ofText (ofString "(a)\r"))) "a" (ofString "(a)\r")
    (.list [.list [.str "a"]]) none ⟨⟨⟨0, 0⟩, ⟨0, 3⟩⟩, "( a )\n"⟩ rfl rfl rfl
  rw [textOf?_notified rfl] at same
  exact absurd same (by decide)

end Workspace

end Server

end TermLang
