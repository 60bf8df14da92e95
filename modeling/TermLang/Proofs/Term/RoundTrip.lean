import TermLang.Proofs.Number.Numeral
import TermLang.Proofs.Reader.Completeness
import TermLang.Term.Written

/-!
# Written terms read back

Both written forms of a well-formed term are sources of that one term. The writers put a text in
front of what follows; the text is shown to be one item of the grammar, whatever may follow it. On
one line a bracket or a single space follows an atom. Laid out, a space follows every item, so
nothing ever touches.

The grammar and the reader meet in `Reader.readList_of_items`; no fact about the reader's state is
used here. The unknown, numbers that are not finite, texts with a quote and operators with a
spelling of their own are not well formed: their written forms read as something else or not at all.
-/

namespace TermLang

open Grammar

namespace Term

/-- Atoms that a source can spell: names and words with the first character of their kind, texts
without a quote, finite numbers, and the operators that there are. -/
inductive Spellable : Term → Prop where
  | var {first : Char} {rest : List Char} (capital : isCapitalLetter first = true)
      (word : AllWord rest) : Spellable (.var (String.ofList (first :: rest)))
  | wildcard {rest : List Char} (word : AllWord rest) :
      Spellable (.wildcard (String.ofList ('_' :: rest)))
  | str {text : String} (unquoted : '"' ∉ text.toList) : Spellable (.str text)
  | number {value : Float} (finite : value.isFinite = true) : Spellable (.number value)
  | bool (value : Bool) : Spellable (.bool value)
  | keyword {rest : List Char} (present : rest ≠ []) (word : AllWord rest) :
      Spellable (.keyword (String.ofList ('.' :: rest)))
  | binaryOp {symbol : String} (known : symbol ∈ binaryOperators) : Spellable (.binaryOp symbol)
  | unaryOp : Spellable (.unaryOp negation)

/-- Terms that a source can spell: such atoms, and lists of such terms. -/
inductive WellFormed : Term → Prop where
  | atom {term : Term} (spellable : Spellable term) : WellFormed term
  | list {items : List Term} (each : ∀ item ∈ items, WellFormed item) : WellFormed (.list items)

/-- A writer puts one text in front of whatever follows, and that text is an item. With `touches`
set the items that follow are such as may touch an atom. -/
def WritesItem (touches : Bool) (write : List Char → List Char) (term : Term) : Prop :=
  ∃ text, (∀ rest, write rest = text ++ rest) ∧
    ∀ rest terms, Items touches rest terms → Items false (text ++ rest) (term :: terms)

/-- A writer puts one text in front of whatever follows, and that text is a sequence of items.
Nothing is said about what follows, since a sequence ends at a bracket or at the end of the source.
-/
def WritesItems (write : List Char → List Char) (terms : List Term) : Prop :=
  ∃ text, (∀ rest, write rest = text ++ rest) ∧ Items false text terms

/-! ## Atoms -/

/-- A text that needs no quotes is a bare word: the check is that of the grammar, letter by letter,
with the two truth values left out. -/
theorem bare_of_unquoted {text : List Char} (plain : needsQuotes text = false) :
    Bare text (.str (String.ofList text)) := by
  cases text with
  | nil => exact absurd plain (by decide)
  | cons first rest =>
    simp only [needsQuotes, Bool.or_eq_false_iff, Bool.not_eq_false', beq_eq_false_iff_ne] at plain
    obtain ⟨⟨⟨notAffirmed, notDenied⟩, small⟩, word⟩ := plain
    exact Bare.str small (List.all_eq_true.mp word) notAffirmed notDenied

/-- A text without a quote is written as an atom, between quotes or bare. What it reads as does not
depend on which of the two was chosen. -/
theorem writeStr_atom {text : List Char} (unquoted : '"' ∉ text) :
    ∃ written, (∀ rest, writeStr text rest = written ++ rest) ∧
      Atom written (.str (String.ofList text)) := by
  cases quotes : needsQuotes text with
  | true =>
    refine ⟨'"' :: (text ++ ['"']), fun rest => ?_, Atom.quoted unquoted⟩
    simp [writeStr, quotes]
  | false =>
    refine ⟨text, fun rest => ?_, Atom.bare (bare_of_unquoted quotes)⟩
    simp [writeStr, quotes]

/-- A spellable atom is written as an atom of the grammar. Numbers are the only case with a
computation behind it: their text is a numeral of the double that they are. -/
theorem Spellable.writeAtom_atom {term : Term} (spellable : Spellable term) :
    ∃ written, (∀ rest, writeAtom term rest = written ++ rest) ∧ Atom written term := by
  cases spellable with
  | var capital word =>
    exact ⟨_, fun rest => by simp [writeAtom, spelling], Atom.bare (Bare.var capital word)⟩
  | wildcard word =>
    exact ⟨_, fun rest => by simp [writeAtom, spelling], Atom.bare (Bare.wildcard word)⟩
  | str unquoted =>
    have written := writeStr_atom unquoted
    rwa [String.ofList_toList] at written
  | number finite => exact ⟨_, fun rest => rfl, Atom.bare (Number.text_bare finite)⟩
  | bool value =>
    cases value with
    | true => exact ⟨_, fun rest => rfl, Atom.bare Bare.affirmed⟩
    | false => exact ⟨_, fun rest => rfl, Atom.bare Bare.denied⟩
  | keyword present word =>
    exact ⟨_, fun rest => by simp [writeAtom, spelling], Atom.bare (Bare.keyword present word)⟩
  | binaryOp known => exact ⟨_, fun rest => rfl, Atom.bare (Bare.binaryOp known)⟩
  | unaryOp => exact ⟨_, fun rest => rfl, Atom.bare Bare.unaryOp⟩

/-- An atom may be touched by a bracket or a blank, and by nothing else: what is spelled behind it
at once would be read as part of it. -/
theorem Spellable.writeAtom_item {term : Term} (spellable : Spellable term) :
    WritesItem true (writeAtom term) term := by
  obtain ⟨text, written, spelled⟩ := spellable.writeAtom_atom
  exact ⟨text, written, fun _ _ rest => Items.atom spelled rest⟩

/-- Neither written form treats an atom as a list. On one line it is written as it is, and laid out
with a space behind it. -/
theorem Spellable.written {term : Term} (spellable : Spellable term) :
    write term = writeAtom term ∧
      ∀ depth, layOut false depth term = fun rest => writeAtom term (' ' :: rest) := by
  constructor
  · funext rest
    cases spellable <;> rfl
  · intro depth
    funext rest
    cases spellable <;> rfl

/-! ## Lists -/

/-- Nothing is written for no items, and nothing is a sequence of no items. -/
theorem writesItems_nil : WritesItems (fun rest => rest) [] :=
  ⟨[], fun _ => rfl, Items.done false⟩

/-- An item in front of a sequence, when the sequence may follow the item at once. -/
theorem WritesItem.cons {write writeMore : List Char → List Char} {term : Term} {terms : List Term}
    (item : WritesItem false write term) (more : WritesItems writeMore terms) :
    WritesItems (fun rest => write (writeMore rest)) (term :: terms) := by
  obtain ⟨text, written, isItem⟩ := item
  obtain ⟨moreText, moreWritten, areItems⟩ := more
  refine ⟨text ++ moreText, fun rest => ?_, isItem moreText terms areItems⟩
  simp only [moreWritten, written, List.append_assoc]

/-- A space keeps an item from what follows it, so that anything may follow behind the space. -/
theorem WritesItem.spaced {write : List Char → List Char} {term : Term}
    (item : WritesItem true write term) :
    WritesItem false (fun rest => write (' ' :: rest)) term := by
  obtain ⟨text, written, isItem⟩ := item
  refine ⟨text ++ [' '], fun rest => ?_, fun rest terms items => ?_⟩
  · simp [written]
  · rw [List.append_assoc]
    exact isItem _ terms (Items.blank true rfl items)

/-- A space may stand in front of a sequence, being a blank there. -/
theorem WritesItems.padded {write : List Char → List Char} {terms : List Term}
    (items : WritesItems write terms) : WritesItems (fun rest => ' ' :: write rest) terms := by
  obtain ⟨text, written, areItems⟩ := items
  refine ⟨' ' :: text, fun rest => ?_, Items.blank false rfl areItems⟩
  simp [written]

/-- A sequence in brackets is an item, and anything may follow the closing bracket. -/
theorem WritesItems.bracketed {write : List Char → List Char} {items : List Term}
    (body : WritesItems write items) :
    WritesItem false (fun rest => '(' :: write (')' :: rest)) (.list items) := by
  obtain ⟨inside, written, areItems⟩ := body
  refine ⟨'(' :: (inside ++ [')']), fun rest => ?_, fun rest terms after => ?_⟩
  · simp [written]
  · have bracketed := Items.list false areItems after
    simpa using bracketed

/-- Where anything may follow, what may touch an atom may. So an item that ends in a bracket or a
space can stand wherever an atom can. -/
theorem WritesItem.touched {write : List Char → List Char} {term : Term}
    (item : WritesItem false write term) : WritesItem true write term := by
  obtain ⟨text, written, isItem⟩ := item
  exact ⟨text, written, fun rest terms items => isItem rest terms items.apart⟩

/-- A line break and an indentation in front of an item are blanks. At the top there is neither, so
the text of a program does not begin with a line break. -/
theorem WritesItem.indented {write : List Char → List Char} {term : Term}
    (item : WritesItem false write term) (depth : Nat) :
    WritesItem false (fun rest => lineBreak depth (write rest)) term := by
  obtain ⟨text, written, isItem⟩ := item
  by_cases top : depth = 0
  · refine ⟨text, fun rest => ?_, isItem⟩
    simp [lineBreak, top, written]
  · refine ⟨'\n' :: (List.replicate (2 * depth) ' ' ++ text), fun rest => ?_,
      fun rest terms items => ?_⟩
    · simp [lineBreak, top, written]
    · have indentation (count : Nat) :
          Items false (List.replicate count ' ' ++ (text ++ rest)) (term :: terms) := by
        induction count with
        | zero => exact isItem rest terms items
        | succ count inductionHypothesis => exact Items.blank false rfl inductionHypothesis
      rw [List.cons_append, List.append_assoc]
      exact Items.blank false rfl (indentation (2 * depth))

/-! ## The two written forms -/

/-- Items on one line, if each of them is an item. A single space stands between any two of them,
and none behind the last one, which is touched by the closing bracket. -/
theorem writeItems_items {items : List Term}
    (each : ∀ item ∈ items, WritesItem true (write item) item) :
    WritesItems (writeItems items) items := by
  induction items with
  | nil => exact writesItems_nil
  | cons item more inductionHypothesis =>
    have first := each item List.mem_cons_self
    have others :=
      inductionHypothesis fun other member => each other (List.mem_cons_of_mem _ member)
    cases more with
    | nil =>
      obtain ⟨text, written, isItem⟩ := first
      refine ⟨text, written, ?_⟩
      simpa using isItem [] [] (Items.done true)
    | cons next rest => exact first.spaced.cons others

/-- Items laid out at a depth, if each of them is an item there. Every item brings the space behind
it along, so they are put together without one. -/
theorem layOutItems_items {depth : Nat} {items : List Term}
    (each : ∀ item ∈ items, WritesItem false (layOut false depth item) item) :
    WritesItems (layOutItems false depth items) items := by
  induction items with
  | nil => exact writesItems_nil
  | cons item more inductionHypothesis =>
    have others :=
      inductionHypothesis fun other member => each other (List.mem_cons_of_mem _ member)
    exact (each item List.mem_cons_self).cons others

/-- A well-formed term on one line is an item. Induction is on the term: an atom is spelled, and a
list is a pair of brackets around the items of the inductive hypothesis. -/
theorem WellFormed.write_item {term : Term} (wellFormed : WellFormed term) :
    WritesItem true (write term) term := by
  induction wellFormed with
  | atom spellable =>
    rw [spellable.written.1]
    exact spellable.writeAtom_item
  | list each inductionHypothesis =>
    exact (writeItems_items inductionHypothesis).bracketed.touched

/-- A well-formed term laid out at any depth is an item, and a space ends it. The depth changes on
the way into a list, and only decides how many blanks stand in front. -/
theorem WellFormed.layOut_item {term : Term} (wellFormed : WellFormed term) (depth : Nat) :
    WritesItem false (layOut false depth term) term := by
  induction wellFormed generalizing depth with
  | atom spellable =>
    rw [spellable.written.2]
    exact spellable.writeAtom_item.spaced
  | @list items each inductionHypothesis =>
    have body : WritesItems (layOutItems false (depth + 1) items) items :=
      layOutItems_items fun item member => inductionHypothesis item member (depth + 1)
    exact (body.padded.bracketed.touched.spaced).indented depth

/-- Reading what was written gives the one term back. This is where the grammar is left for the
reader. -/
theorem WritesItem.reads {touches : Bool} {write : List Char → List Char} {term : Term}
    (item : WritesItem touches write term) :
    readList (String.ofList (write [])).toList = .ok (.list [term]) := by
  obtain ⟨text, written, isItem⟩ := item
  rw [String.toList_ofList, written]
  exact Reader.readList_of_items (isItem [] [] (Items.done touches))

/-- Both written forms of a well-formed term read back as that term alone. -/
theorem written_reads_back {term : Term} (wellFormed : WellFormed term) :
    readList term.compact.toList = .ok (.list [term]) ∧
      readList (term.laidOut false).toList = .ok (.list [term]) :=
  ⟨wellFormed.write_item.reads, (wellFormed.layOut_item 0).reads⟩

/-- Texts that look like other atoms, an empty list inside a list, and a number that no binary
fraction of few digits equals. -/
theorem nested_look_alikes_read_back : ∃ term : Term,
    term = .list [.keyword ".is", .str "", .list [.list [], .str "true", .str "(\n1A", .number 0.1],
      .var "X-1", .binaryOp "**"] ∧
    WellFormed term ∧ readList term.compact.toList = .ok (.list [term]) ∧
      readList (term.laidOut false).toList = .ok (.list [term]) := by
  refine ⟨_, rfl, ?_⟩
  have inner : WellFormed (.list [.list [], .str "true", .str "(\n1A", .number 0.1]) := by
    refine .list fun item member => ?_
    simp only [List.mem_cons, List.not_mem_nil, or_false] at member
    obtain rfl | rfl | rfl | rfl := member
    · exact .list (by simp)
    · exact .atom (.str (by decide))
    · exact .atom (.str (by decide))
    · exact .atom (.number (by decide +kernel))
  have outer : WellFormed (.list [.keyword ".is", .str "",
      .list [.list [], .str "true", .str "(\n1A", .number 0.1], .var "X-1", .binaryOp "**"]) := by
    refine .list fun item member => ?_
    simp only [List.mem_cons, List.not_mem_nil, or_false] at member
    obtain rfl | rfl | rfl | rfl | rfl := member
    · exact .atom (@Spellable.keyword ['i', 's'] (by decide) (by decide))
    · exact .atom (.str (by decide))
    · exact inner
    · exact .atom (@Spellable.var 'X' ['-', '1'] (by decide) (by decide))
    · exact .atom (.binaryOp (by decide))
  exact ⟨outer, written_reads_back outer⟩

end Term

end TermLang
