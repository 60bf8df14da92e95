import Mathlib.Data.List.Forall2
import TermLang.Proofs.Server.Layout

/-!
# Outlines agree with the reader

The outline of a text and the reader cut it at the same places. If the text reads as a program, the
pairs of brackets are the lists in the program, from the outside in and from left to right, and the
tokens are its atoms from left to right. What stands in a pair of brackets or in a token is, read
alone, that list or that atom.

Texts that cannot be read have an outline as well; nothing is said about it here.
-/

namespace TermLang.Server

open Grammar Term

/-! ## What tokens and brackets stand for -/

/-- A token stands at its place in a text and spells an atom. -/
structure Spells (text : Text) (token : Token) (atom : Term) : Prop where
  cut : text.Cut token.start token.stop token.text
  spelled : Atom token.text.chars atom

/-- A pair of brackets stands around a list that is nested as deep as the pair. -/
structure Encloses (text : Text) (span : Span) (nested : Nat × Term) : Prop where
  depth : span.depth = nested.1
  derived : ∃ part, text.Cut span.start span.stop part ∧ Program part.chars [nested.2]
  head : Option.Rel (Spells text) span.head (leadingAtom? nested.2.items)

/-- Items between two brackets are a program of one list. This is what lets a list be read on its
own, out of the text it stands in. -/
theorem program_of_bracketed {inside : Text} {items : List Term}
    (derived : Items false inside.chars items) :
    Program (Text.chars (.scalar '(' :: (inside ++ [.scalar ')']))) [.list items] := by
  have program : Program ('(' :: (inside.chars ++ [')'])) [.list items] := .list derived .done
  simpa [Text.chars, Glyph.char] using program

namespace Placing

variable {text : Text} {terms : List Term} {lists : List PlacedList} {atoms : List Placed}

/-- The token of an atom spells it, and stands at its place in the whole text. -/
theorem spells (placing : Placing 0 false 0 text terms lists atoms) :
    ∀ atom ∈ atoms, Spells text atom.toToken atom.term := by
  intro atom member
  exact ⟨(placing.standsIn.2 atom member).cut, placing.spelled atom member⟩

/-- The brackets of a list enclose it: what stands from the one to the other is a program of that
list, and the token behind the opening bracket is its first item, if that is an atom.

Proof: the atoms in a list are among all atoms, so the token of its first atom is known to stand at
its place. -/
theorem encloses (placing : Placing 0 false 0 text terms lists atoms) :
    ∀ list ∈ lists, Encloses text list.span (list.depth, list.term) := by
  intro list member
  obtain ⟨items, inside, inner, isList, isText, body⟩ := placing.bracketed list member
  refine ⟨rfl, ⟨list.text, (placing.standsIn.1 list member).cut, ?_⟩, ?_⟩
  · rw [isText, isList]
    exact program_of_bracketed body.items
  · have terms := body.atoms_eq
    simp only [PlacedList.span, isList, Term.items]
    cases items with
    | nil => exact .none
    | cons first others =>
      cases atomic : first.isList with
      | true =>
        simp only [leading?, leadingAtom?, atomic]
        exact .none
      | false =>
        rw [atomsOf, atoms_of_not_list atomic, List.singleton_append] at terms
        obtain ⟨placed, behind, isFirst, rfl, _⟩ := List.map_eq_cons_iff.mp terms
        have among : placed ∈ list.atoms := isFirst ▸ List.mem_cons_self
        have spells := placing.spells placed (placing.atoms_subset list member among)
        simp only [leading?, leadingAtom?, atomic, isFirst]
        exact .some spells

end Placing

/-! ## The outline of a program -/

/-- A token is what stands at its place, and read alone it is an atom. -/
structure Token.Reads (text : Text) (token : Token) (atom : Term) : Prop where
  place : text.between token.start token.stop = token.text
  alone : readList token.text.chars = .ok (.list [atom])

/-- A pair of brackets is nested as deep as a list, and what stands in it, read alone, is that list.
The token right behind its opening bracket is the first item, if that is an atom. -/
structure Span.Reads (text : Text) (span : Span) (nested : Nat × Term) : Prop where
  depth : span.depth = nested.1
  alone : readProgram (text.between span.start span.stop).chars = .ok (.list [nested.2])
  head : Option.Rel (Token.Reads text) span.head (leadingAtom? nested.2.items)

/-- A spelled token reads as its atom, alone as it does in the text, because the grammar of atoms
does not look at what surrounds them. -/
theorem Spells.reads {text : Text} {token : Token} {atom : Term} (spells : Spells text token atom) :
    token.Reads text atom := by
  have alone : Items false (token.text.chars ++ []) [atom] := .atom spells.spelled (.done true)
  rw [List.append_nil] at alone
  exact ⟨spells.cut.between, Reader.readList_of_items alone⟩

/-- What a pair of brackets encloses reads as its list, since the reader accepts what the grammar
derives. -/
theorem Encloses.reads {text : Text} {span : Span} {nested : Nat × Term}
    (encloses : Encloses text span nested) : span.Reads text nested := by
  obtain ⟨part, cut, program⟩ := encloses.derived
  refine ⟨encloses.depth, ?_, ?_⟩
  · rw [cut.between]
    exact Reader.readProgram_of_program program
  · have head := encloses.head
    generalize span.head = token?, leadingAtom? nested.2.items = first? at head ⊢
    cases head with
    | none => exact .none
    | some spells => exact .some spells.reads

/-- What stands in a pair of brackets is decoded from the bytes between them: the brackets fall
between glyphs, so no glyph is cut. -/
theorem Encloses.decode {bytes : List UInt8} {span : Span} {nested : Nat × Term}
    (encloses : Encloses (Text.decode bytes) span nested) :
    Text.decode (bytes.extract span.start span.stop) =
      (Text.decode bytes).between span.start span.stop := by
  obtain ⟨part, cut, _⟩ := encloses.derived
  rw [cut.decode, cut.between]

/-- The tokens of a text spell the atoms of the items that it shows, and its pairs of brackets
enclose the lists among them. All of them are found, each once, and in the order of the items. -/
theorem outline_of_items {text : Text} {terms : List Term}
    (derived : Items false text.chars terms) :
    List.Forall₂ (Spells text) (Outline.ofText text).tokens (atomsOf terms) ∧
      List.Forall₂ (Encloses text) (Outline.ofText text).spans (listsOf 0 terms) := by
  obtain ⟨lists, atoms, placing⟩ := Placing.exists_of_items derived rfl 0 0
  rw [placing.outline, ← placing.atoms_eq, ← placing.lists_eq]
  simp only [List.forall₂_map_left_iff, List.forall₂_map_right_iff, List.forall₂_same]
  exact ⟨placing.spells, placing.encloses⟩

/-- The outline of a text that reads as a program finds its lists, its forms and its atoms, each of
them once and in order, at places that hold just them. On the bytes that a text was decoded from the
places are the same. -/
theorem outline_agrees_with_reader {text : Text} {program : Term}
    (read : readProgram text.chars = .ok program) :
    List.Forall₂ (Span.Reads text) (Outline.ofText text).spans (listsOf 0 program.items) ∧
      List.Forall₂ (fun span form => Span.Reads text span (0, form))
        (Outline.ofText text).topSpans program.items ∧
      List.Forall₂ (Token.Reads text) (Outline.ofText text).tokens (atomsOf program.items) ∧
      ∀ bytes, Text.decode bytes = text →
        (∀ span ∈ (Outline.ofText text).spans,
          Text.decode (bytes.extract span.start span.stop) =
            text.between span.start span.stop) ∧
        ∀ token ∈ (Outline.ofText text).tokens,
          Text.decode (bytes.extract token.start token.stop) = token.text := by
  obtain ⟨forms, rfl, derived⟩ := Reader.program_of_readProgram read
  obtain ⟨tokens, spans⟩ := outline_of_items derived.items
  have allLists : forms.filter isList = forms :=
    List.filter_eq_self.mpr derived.isList
  have topSpans : List.Forall₂ (Encloses text) (Outline.ofText text).topSpans
      (forms.map fun form => (0, form)) := by
    rw [← allLists, ← filter_listsOf]
    refine List.rel_filter ?_ spans
    intro span nested encloses
    simp only [encloses.depth]
  refine ⟨?_, ?_, ?_, ?_⟩
  · exact spans.imp fun _ _ encloses => encloses.reads
  · exact (List.forall₂_map_right_iff.mp topSpans).imp fun _ _ encloses => encloses.reads
  · exact tokens.imp fun _ _ spells => spells.reads
  · rintro bytes rfl
    constructor
    · have each := spans.imp fun _ _ encloses => And.intro encloses.decode encloses
      exact ((List.forall₂_and_left _ _).mp each).1
    · have each := tokens.imp fun _ _ spells => And.intro spells.cut.decode spells
      exact ((List.forall₂_and_left _ _).mp each).1

/-- A bracket, a blank and a stray byte between quotes are part of one token. -/
theorem outline_of_quoted_bracket :
    let bytes : List UInt8 := [0x28, 0x61, 0x28, 0x22, 0x29, 0x20, 0xFF, 0x22, 0x29, 0x29]
    let text := Text.decode bytes
    let inner : Term := .list [.str ") \uFFFD"]
    let program : Term := .list [.list [.str "a", inner]]
    readProgram text.chars = .ok program ∧
      List.Forall₂ (Span.Reads text) (Outline.ofText text).spans
        [(0, .list [.str "a", inner]), (1, inner)] ∧
      List.Forall₂ (Token.Reads text) (Outline.ofText text).tokens
        [.str "a", .str ") \uFFFD"] := by
  intro bytes text inner program
  have read : readProgram text.chars = .ok program := rfl
  obtain ⟨spans, _, tokens, _⟩ := outline_agrees_with_reader read
  exact ⟨read, spans, tokens⟩

end TermLang.Server
