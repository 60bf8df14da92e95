import TermLang.Proofs.Reader.Soundness
import TermLang.Proofs.Term.Parts
import TermLang.Proofs.Term.RoundTrip

/-!
# The language

A term is in the language when each of its atoms is one that a source can spell, or a number that is
not finite. Every source is read as terms of the language. Conversely a term of the language whose
numbers are all finite is well formed, so that its written form reads back as it.

Which terms a reduction makes out of terms of the language is not covered here.
-/

namespace TermLang

open Grammar

namespace Term

/-- A term that some source spells and nothing else. -/
def Readable (term : Term) : Prop := ∃ source, readList source = .ok (.list [term])

/-- An atom of the language: not the unknown, and one that a source spells or a number that is not
finite. -/
def Sayable (atom : Term) : Prop :=
  atom ≠ .unknown ∧ (atom.Readable ∨ ∃ value, atom = .number value ∧ value.isFinite = false)

/-- A term with atoms of the language only. -/
def InLanguage (term : Term) : Prop := ∀ atom ∈ term.atoms, Sayable atom

/-- All numbers of a term are finite. A source spells no others, but arithmetic may give some. -/
def AllFinite (term : Term) : Prop :=
  ∀ atom ∈ term.atoms, ∀ value, atom = .number value → value.isFinite = true

/-- A list is in the language with all its items. -/
@[simp]
theorem inLanguage_list_iff (items : List Term) :
    (Term.list items).InLanguage ↔ ∀ item ∈ items, item.InLanguage :=
  forall_atoms_list

/-- The spelling of an atom spells neither a list nor the unknown, for which there is no spelling.
-/
theorem atomic_of_spelled {text : List Char} {term : Term} (spelled : Atom text term) :
    term.isList = false ∧ term ≠ .unknown := by
  cases spelled with
  | quoted unquoted => exact ⟨rfl, Term.noConfusion⟩
  | bare bare => cases bare <;> exact ⟨rfl, Term.noConfusion⟩

/-- A spelled atom is of the language: its spelling alone is a source of it. -/
theorem sayable_of_spelled {text : List Char} {atom : Term} (spelled : Atom text atom) :
    Sayable atom := by
  have alone : Items false (text ++ []) [atom] := Items.atom spelled (Items.done true)
  exact ⟨(atomic_of_spelled spelled).2, .inl ⟨_, Reader.readList_of_items alone⟩⟩

/-- A term that an atom spells is in the language, being its own only atom. -/
theorem inLanguage_of_spelled {text : List Char} {term : Term} (spelled : Atom text term) :
    term.InLanguage := by
  intro atom member
  rw [atoms_of_not_list (atomic_of_spelled spelled).1, List.mem_singleton] at member
  rw [member]
  exact sayable_of_spelled spelled

/-- Every number is in the language: a finite one has a numeral, and the others are let in by name.
-/
theorem inLanguage_number (value : Float) : (Term.number value).InLanguage := by
  cases finite : value.isFinite with
  | true => exact inLanguage_of_spelled (.bare (Number.text_bare finite))
  | false =>
    intro atom member
    rw [atoms_of_not_list rfl, List.mem_singleton] at member
    rw [member]
    exact ⟨Term.noConfusion, .inr ⟨value, rfl, finite⟩⟩

/-- Both truth values are in the language, each by the word that is reserved for it. -/
theorem inLanguage_bool (value : Bool) : (Term.bool value).InLanguage := by
  cases value with
  | true => exact inLanguage_of_spelled (.bare .affirmed)
  | false => exact inLanguage_of_spelled (.bare .denied)

/-! ## What is read -/

/-- Every atom among the items of a source is spelled there. Induction is on how the source is made
of items, and goes into each list by what is derived of its body. -/
theorem spelled_of_items {touching : Bool} {source : List Char} {terms : List Term}
    (derived : Items touching source terms) :
    ∀ atom ∈ atomsOf terms, ∃ text, Atom text atom := by
  induction derived with
  | done => simp [atomsOf]
  | blank touching divides rest inductionHypothesis => exact inductionHypothesis
  | atom spelled rest inductionHypothesis =>
    intro atom member
    rw [atomsOf, atoms_of_not_list (atomic_of_spelled spelled).1] at member
    rcases List.mem_append.mp member with first | later
    · rw [List.mem_singleton.mp first]
      exact ⟨_, spelled⟩
    · exact inductionHypothesis atom later
  | list touching body rest bodySpelled inductionHypothesis =>
    intro atom member
    rw [atomsOf, atoms_list] at member
    exact (List.mem_append.mp member).elim (bodySpelled atom) (inductionHypothesis atom)

/-- The items of a source are in the language. -/
theorem inLanguage_of_items {touching : Bool} {source : List Char} {terms : List Term}
    (derived : Items touching source terms) : ∀ term ∈ terms, term.InLanguage := by
  intro term member atom isAtom
  obtain ⟨text, spelled⟩ := spelled_of_items derived atom (mem_atomsOf.mpr ⟨term, member, isAtom⟩)
  exact sayable_of_spelled spelled

/-- What is read as a list is in the language. Soundness of the reader turns it into items of the
source, and nothing else about the reader is used. -/
theorem inLanguage_of_readList {source : List Char} {term : Term}
    (read : readList source = .ok term) : term.InLanguage := by
  obtain ⟨terms, rfl, derived⟩ := Reader.items_of_readList read
  exact (inLanguage_list_iff terms).mpr (inLanguage_of_items derived)

/-- What is read as a program is in the language, since a program is a sequence of items as well. -/
theorem inLanguage_of_readProgram {source : List Char} {term : Term}
    (read : readProgram source = .ok term) : term.InLanguage := by
  obtain ⟨forms, rfl, derived⟩ := Reader.program_of_readProgram read
  exact (inLanguage_list_iff forms).mpr (inLanguage_of_items derived.items)

/-! ## What is written -/

/-- A quote does not stand in a word, so that a text spelled as a word can be written between
quotes. -/
theorem unquoted_of_word {first : Char} {rest : List Char} (small : isSmallLetter first = true)
    (word : AllWord rest) : '"' ∉ first :: rest := by
  intro member
  rcases List.mem_cons.mp member with rfl | later
  · exact absurd small (by decide)
  · exact absurd (word '"' later) (by decide)

/-- A spelled atom is well formed, unless it is a number that is not finite. That a numeral has a
finite double is a fact about reading numbers and is kept out of here; the caller brings what it
knows. -/
theorem spellable_of_spelled {text : List Char} {atom : Term} (spelled : Atom text atom)
    (finite : ∀ value, atom = .number value → value.isFinite = true) : Spellable atom := by
  cases spelled with
  | quoted unquoted => exact .str (by simpa using unquoted)
  | bare bare =>
    cases bare with
    | number numeral near => exact .number (finite _ rfl)
    | var capital word => exact .var capital word
    | affirmed => exact .bool true
    | denied => exact .bool false
    | str small word notAffirmed notDenied =>
      exact .str (by simpa using unquoted_of_word small word)
    | wildcard word => exact .wildcard word
    | keyword present word => exact .keyword present word
    | binaryOp known => exact .binaryOp known
    | unaryOp => exact .unaryOp

/-- An atom of the language is well formed, unless it is a number that is not finite. The source
that it is read from may hold blanks around it; what counts is that it is spelled somewhere. -/
theorem Sayable.spellable {atom : Term} (sayable : Sayable atom) (atomic : atom.isList = false)
    (finite : ∀ value, atom = .number value → value.isFinite = true) : Spellable atom := by
  obtain ⟨_, ⟨source, read⟩ | ⟨value, isNumber, notFinite⟩⟩ := sayable
  · obtain ⟨terms, same, derived⟩ := Reader.items_of_readList read
    obtain rfl : [atom] = terms := Term.list.inj same
    have member : atom ∈ atomsOf [atom] :=
      mem_atomsOf.mpr ⟨atom, by simp, by simp [atoms_of_not_list atomic]⟩
    obtain ⟨text, spelled⟩ := spelled_of_items derived atom member
    exact spellable_of_spelled spelled finite
  · rw [finite value isNumber] at notFinite
    exact absurd notFinite (by simp)

mutual

/-- A term of the language with finite numbers is well formed. Proved with its counterpart on items,
by recursion on the term. -/
theorem InLanguage.wellFormed {term : Term} (spoken : term.InLanguage) (finite : term.AllFinite) :
    WellFormed term := by
  have single (atomic : term.isList = false) : WellFormed term := by
    have member : term ∈ term.atoms := by simp [atoms_of_not_list atomic]
    exact .atom ((spoken term member).spellable atomic (finite term member))
  cases term with
  | list items =>
    exact .list (wellFormed_of_items items (forall_atoms_list.mp spoken)
      (forall_atoms_list.mp finite))
  | _ => exact single rfl

/-- Items of the language with finite numbers are well formed. -/
theorem wellFormed_of_items (items : List Term) (spoken : ∀ item ∈ items, item.InLanguage)
    (finite : ∀ item ∈ items, item.AllFinite) : ∀ item ∈ items, WellFormed item := by
  cases items with
  | nil => simp
  | cons first rest =>
    obtain ⟨firstSpoken, restSpoken⟩ := List.forall_mem_cons.mp spoken
    obtain ⟨firstFinite, restFinite⟩ := List.forall_mem_cons.mp finite
    exact List.forall_mem_cons.mpr
      ⟨firstSpoken.wellFormed firstFinite, wellFormed_of_items rest restSpoken restFinite⟩

end

/-- A term of the language with finite numbers reads back from its one line. -/
theorem InLanguage.reads_back {term : Term} (spoken : term.InLanguage) (finite : term.AllFinite) :
    readList term.compact.toList = .ok (.list [term]) :=
  (spoken.wellFormed finite).write_item.reads

end Term

end TermLang
