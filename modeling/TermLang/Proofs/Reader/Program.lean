import TermLang.Proofs.Reader.Offence
import TermLang.Proofs.Term.Language

/-!
# Programs are lists of lists

A source can be read as the items of one list or as a program, and the two readings differ only at
the top level. What one of them makes of a source, the other one does too, as long as everything
outside of all brackets is blank: a program is a list all of whose items are lists, and what is
wrong inside of brackets is wrong in the same way for both.

Two errors belong to the top level. An atom there is an error of a program only, and of several
brackets that are never closed a program reports the outermost and a list the innermost. Which of
the two errors a program reports when it has both is not said here.
-/

namespace TermLang

namespace Grammar

/-- Items that are lists make a program. The induction follows the derivation of the items, where
the rule for atoms gives an item that is no list. -/
theorem Items.program {touching : Bool} {source : List Char} {terms : List Term}
    (derived : Items touching source terms) (lists : ∀ term ∈ terms, term.isList = true) :
    Program source terms := by
  induction derived with
  | done => exact .done
  | blank _ divides _ inductionHypothesis => exact .blank divides (inductionHypothesis lists)
  | atom spelled _ _ =>
    have isList := lists _ List.mem_cons_self
    rw [(Term.atomic_of_spelled spelled).1] at isList
    cases isList
  | list _ body _ _ inductionHypothesis =>
    exact .list body (inductionHypothesis (List.forall_mem_cons.mp lists).2)

end Grammar

namespace Reader

open Grammar

/-- A source is read as a program exactly if it is read as the same list, and that is a list of
lists. Both directions go through the grammar, in which a program is a sequence of items of one
kind. -/
theorem readProgram_ok_iff (source : List Char) (term : Term) :
    readProgram source = .ok term ↔
      readList source = .ok term ∧ ∀ item ∈ term.items, item.isList = true := by
  constructor
  · intro read
    obtain ⟨forms, rfl, program⟩ := program_of_readProgram read
    exact ⟨readList_of_items program.items, program.isList⟩
  · rintro ⟨read, lists⟩
    obtain ⟨terms, rfl, items⟩ := items_of_readList read
    exact readProgram_of_program (items.program lists)

/-- An error of a program is the error of the list, or is about the top level: an atom there, or a
bracket that is never closed, which is an error of the list as well.

Proof: an error of the scan is handed on by both readings. Otherwise the top level decides for a
program; if a bracket is open, the list reports the innermost one instead. -/
theorem readProgram_error_cases {source : List Char} {error : ParseError}
    (failed : readProgram source = .error error) :
    readList source = .error error ∨ (∃ mark, error = .otherAt mark "atom outside of a list") ∨
      ∃ outer inner, error = .atMark .unclosedBracket outer ∧
        readList source = .error (.atMark .unclosedBracket inner) := by
  unfold readProgram at failed
  split at failed
  · rename_i inner scanned
    cases failed
    left
    rw [readList, scanned]
  · rename_i state scanned
    simp only at failed
    split at failed
    · rename_i inner outsideList
      cases failed
      obtain ⟨_, _, sign, _, _, _, rfl⟩ := topLists_error outsideList
      exact .inr (.inl ⟨sign.mark, rfl⟩)
    · split at failed
      · rename_i outermost isOpen
        cases failed
        cases openings : state.openings with
        | nil => simp [State.topLevel, openings] at isOpen
        | cons innermost others =>
          refine .inr (.inr ⟨outermost.mark, innermost.mark, rfl, ?_⟩)
          simp only [readList, scanned, openings]
      · cases failed

/-- A program that lacks a bracket lacks it as a list, though the list may name another one. -/
theorem unclosedBracket_of_readProgram {source : List Char} {error : ParseError}
    (failed : readProgram source = .error error) (unclosed : error.kind = .unclosedBracket) :
    ∃ inner, readList source = .error inner ∧ inner.kind = .unclosedBracket := by
  rcases readProgram_error_cases failed with same | ⟨mark, rfl⟩ | ⟨outer, inner, rfl, failedList⟩
  · exact ⟨error, same, unclosed⟩
  · cases unclosed
  · exact ⟨_, failedList, rfl⟩

/-- The two readings agree. A source is read as a program exactly if it is read as the same list and
all items are lists. What is wrong with it as a program is wrong with it as a list, up to the last
detail, unless it is an atom at the top level or a bracket that is never closed; and if such a
bracket is what is wrong, the list reports one too. -/
theorem program_agrees_with_list (source : List Char) :
    (∀ term, readProgram source = .ok term ↔
      readList source = .ok term ∧ ∀ item ∈ term.items, item.isList = true) ∧
    ∀ error, readProgram source = .error error →
      (error.kind ≠ .unclosedBracket →
        ¬ (error.kind = .other ∧ error.text = "atom outside of a list") →
          readList source = .error error) ∧
      (error.kind = .unclosedBracket →
        ∃ inner, readList source = .error inner ∧ inner.kind = .unclosedBracket) := by
  refine ⟨readProgram_ok_iff source, ?_⟩
  intro error failed
  refine ⟨?_, unclosedBracket_of_readProgram failed⟩
  intro closed notOutside
  rcases readProgram_error_cases failed with same | ⟨mark, rfl⟩ | ⟨outer, inner, rfl, _⟩
  · exact same
  · exact absurd ⟨rfl, rfl⟩ notOutside
  · exact absurd rfl closed

/-- A character that is wrong behind an atom at the top level, and two brackets left open. -/
theorem readings_agree_on_errors :
    let spoilt : List Char := "x (a=b)".toList
    let cut : List Char := "((a) (b".toList
    let error : ParseError := ⟨.invalidCharacter, 0x3D, "", 1, 5⟩
    let outermost : ParseError := ⟨.unclosedBracket, 0, "", 1, 1⟩
    (readProgram spoilt = .error error ∧ readList spoilt = .error error) ∧
      readProgram cut = .error outermost ∧
      ∃ inner, readList cut = .error inner ∧ inner.kind = .unclosedBracket := by
  intro spoilt cut error outermost
  have failed : readProgram spoilt = .error error := rfl
  have failedCut : readProgram cut = .error outermost := rfl
  refine ⟨⟨failed, ?_⟩, failedCut, ?_⟩
  · exact ((program_agrees_with_list spoilt).2 error failed).1 (by decide) (by decide)
  · exact ((program_agrees_with_list cut).2 outermost failedCut).2 rfl

end Reader

end TermLang
