import TermLang.Console
import TermLang.Proofs.Term.Language
import TermLang.Proofs.Text.Encoding
import TermLang.Server.Document

/-!
# Formatting keeps the program

A program in canonical layout reads back as that program. Whatever a source spells is well formed,
so each of its lists is laid out as one item of the grammar; taking the spaces at its end away takes
only the one behind its closing bracket, and the newline behind it is a blank between lists.

So formatting a second time gives the same text, from the command line and in the server alike. On
the way through a file the text becomes bytes, which are decoded to the same text.
-/

namespace TermLang

open Grammar

namespace Term

/-! ## What is read is well formed -/

/-- A spelled atom is well formed: the double of a numeral is finite. -/
theorem spellable_of_atom {text : List Char} {atom : Term} (spelled : Atom text atom) :
    Spellable atom := by
  refine spellable_of_spelled spelled ?_
  rintro value rfl
  cases spelled with
  | bare bare =>
    cases bare with
    | number numeral near => exact Decimal.toFloat?_finite near

/-- The items of a source are well formed, and so is everything inside of them. Induction is on how
the source is made of items. -/
theorem wellFormed_of_source {touching : Bool} {source : List Char} {terms : List Term}
    (derived : Items touching source terms) : ∀ term ∈ terms, WellFormed term := by
  induction derived with
  | done => simp
  | blank touching divides rest inductionHypothesis => exact inductionHypothesis
  | atom spelled rest inductionHypothesis =>
    exact List.forall_mem_cons.mpr ⟨.atom (spellable_of_atom spelled), inductionHypothesis⟩
  | list touching body rest bodyWellFormed inductionHypothesis =>
    exact List.forall_mem_cons.mpr ⟨.list bodyWellFormed, inductionHypothesis⟩

/-! ## Canonical layout -/

/-- A list in canonical layout is a pair of brackets around a sequence of its items. Only the space
behind the closing bracket is trimmed, since the bracket is not a space. -/
theorem trimmed_list {items : List Term} (wellFormed : ∀ item ∈ items, WellFormed item) :
    ∃ inside, Text.trimEnd (· == ' ') ((Term.list items).laidOut false).toList =
      '(' :: (inside ++ [')']) ∧ Items false inside items := by
  obtain ⟨text, written, derived⟩ :=
    layOutItems_items fun item member => (wellFormed item member).layOut_item 1
  refine ⟨' ' :: text, ?_, .blank false rfl derived⟩
  simp [laidOut, layOut, lineBreak, written, Text.trimEnd]

/-- Lists in canonical layout, one behind the other, are a program. The source is needed only for
what it says of the forms, that they are well-formed lists. -/
theorem formatted_program {source : List Char} {forms : List Term}
    (program : Program source forms) : Program (Term.list forms).formatted.toList forms := by
  have wellFormed := wellFormed_of_source program.items
  have lists := program.isList
  simp only [formatted, String.toList_join, List.flatMap_map, items]
  clear program
  induction forms with
  | nil => exact .done
  | cons form rest inductionHypothesis =>
    obtain ⟨firstWellFormed, restWellFormed⟩ := List.forall_mem_cons.mp wellFormed
    obtain ⟨isList, restLists⟩ := List.forall_mem_cons.mp lists
    cases firstWellFormed with
    | atom spellable => cases spellable <;> cases isList
    | list each =>
      obtain ⟨inside, trimmed, body⟩ := trimmed_list each
      have line : Program ('\n' :: rest.flatMap fun form => (String.ofList
          (Text.trimEnd (· == ' ') (form.laidOut false).toList) ++ "\n").toList) rest :=
        .blank rfl (inductionHypothesis restWellFormed restLists)
      simpa [trimmed] using Program.list body line

/-- A program that was read is read again from its canonical layout. -/
theorem formatted_reads_back {source : List Char} {program : Term}
    (read : readProgram source = .ok program) :
    readProgram program.formatted.toList = .ok program := by
  obtain ⟨forms, rfl, derived⟩ := Reader.program_of_readProgram read
  exact Reader.readProgram_of_program (formatted_program derived)

end Term

namespace Console

/-- For a file with this content the command that formats prints this text and nothing else,
wherever the file stands and however the arguments name it. -/
def Formats (content : List UInt8) (text : String) : Prop :=
  ∀ (around : Surroundings) (arguments : List String) (parsed : Arguments) (file : String)
    (others : List String), Flag.parse [] [] arguments = .ok parsed → parsed.rest = file :: others →
    around.files.read around.directory file = .ok content →
    run around ("fmt" :: arguments) = ⟨0, text, "", none, [file]⟩

/-- The command prints the program of the file in canonical layout, and reports nothing. -/
theorem formats_of_read {content : List UInt8} {program : Term}
    (read : readProgram (Text.decode content).chars = .ok program) :
    Formats content program.formatted := by
  intro around arguments parsed file others isParsed named isContent
  simp [run, formatFile, withFlags, isParsed, withFile, named, isContent, read, Result.show]

end Console

open Console Server

/-- Formatting keeps the program and is done after one time. The canonical layout of a program reads
back as that program; it is what the command prints and what the server offers; and for that text
the command prints it again, and the server has nothing to offer. -/
theorem formatting_settles {content : List UInt8} {program : Term}
    (read : readProgram (Text.decode content).chars = .ok program) :
    readProgram program.formatted.toList = .ok program ∧
      Formats content program.formatted ∧
      Formats (Text.ofString program.formatted).bytes program.formatted ∧
      (∀ edit ∈ (Document.ofText (Text.decode content)).formatting,
        edit.text = program.formatted) ∧
      (Document.ofText (Text.ofString program.formatted)).formatting = [] := by
  have again := Term.formatted_reads_back read
  refine ⟨again, formats_of_read read, formats_of_read ?_, ?_, ?_⟩
  · rw [Text.decode_bytes_ofString, Text.chars_ofString]
    exact again
  · intro edit member
    simp only [Document.formatting, Document.ofText, read] at member
    split at member
    · cases member
    · rw [List.mem_singleton.mp member]
  · simp [Document.formatting, Document.ofText, again]

/-- Two lists that touch, a tab, and a quoted text over two lines that ends in a stray byte. -/
theorem formatting_settles_cramped :
    let content : List UInt8 :=
      [0x28, 0x61, 0x09, 0x22, 0x28, 0x20, 0x0A, 0xFF, 0x22, 0x29, 0x28, 0x28, 0x29, 0x29]
    let program : Term := .list [.list [.str "a", .str "( \n\uFFFD"], .list [.list []]]
    let around : Surroundings := ⟨⟨[(["p"], .file content)]⟩, "/", "/", "", []⟩
    readProgram (Text.decode content).chars = .ok program ∧
      readProgram program.formatted.toList = .ok program ∧
      run around ["fmt", "p"] =
        ⟨0, "( a \"( \n\uFFFD\" )\n( \n  ( ) )\n", "", none, ["p"]⟩ := by
  intro content program around
  have read : readProgram (Text.decode content).chars = .ok program := rfl
  obtain ⟨again, formats, _⟩ := formatting_settles read
  refine ⟨read, again, ?_⟩
  have found : around.files.read around.directory "p" = .ok content := by cbv
  exact formats around ["p"] ⟨[], ["p"]⟩ "p" [] rfl rfl found

end TermLang
