import TermLang.Proofs.Reader.Soundness
import TermLang.Proofs.Term.Language
import TermLang.Proofs.Text.Slice
import TermLang.Server.Outline

/-!
# Where terms are written

`Placing` is the grammar of items with places: it says where the lists and the atoms of some terms
are written in a text, and does not mention a scan. Items are derived from what a text shows exactly
if they are written in it somewhere.

`Located` says what the scan makes of a part of a text in which terms are written, wherever that
part stands: the scan goes through the part and is between tokens behind it; the brackets among the
marks close one another, so that they do not count for what comes later; and the tokens and pairs
are those of the atoms and lists. It is proved once for each way in which items are written, and by
induction for all of them. It needs one thing of what comes behind the part, that an atom at the end
of the part does not go on there.

A text in which no terms are written has marks as well; nothing is said about them here.
-/

namespace TermLang.Server

open Grammar Term

/-! ## The scan -/

namespace Mark

/-- A text in front of which every word ends. -/
def Ends (text : Text) : Prop := ∀ glyph ∈ text.head?, endsWord glyph = true

/-- Every word ends with the text. -/
theorem ends_nil : Ends [] := by simp [Ends]

/-- A text that starts with something that ends a word is one in front of which every word ends.
Only its first glyph counts. -/
theorem ends_cons {glyph : Glyph} (ends : endsWord glyph = true) (text : Text) :
    Ends (glyph :: text) := by
  simpa [Ends] using ends

/-- A blank between tokens is passed over: it leaves no mark, and the scan stays between tokens. -/
theorem scan_blank {c : Char} (divides : isDivider c = true) (offset : Nat) (text : Text) :
    scan .nothing offset (.scalar c :: text) =
      scan .nothing (offset + (Glyph.scalar c).width) text := by
  simp only [isDivider, Bool.or_eq_true, beq_iff_eq] at divides
  rcases divides with ((rfl | rfl) | rfl) | rfl <;> rfl

/-- An opening bracket between tokens is a mark at its own offset, one byte long. -/
theorem scan_opening (offset : Nat) (text : Text) :
    scan .nothing offset (.scalar '(' :: text) =
      .opening offset :: scan .nothing (offset + 1) text := rfl

/-- A closing bracket between tokens is a mark at its own offset, one byte long, whether or not a
bracket is open there. -/
theorem scan_closing (offset : Nat) (text : Text) :
    scan .nothing offset (.scalar ')' :: text) =
      .closing offset :: scan .nothing (offset + 1) text := rfl

/-- A word that has begun goes on to its end. The scan collects its glyphs backwards, so the token
is what was collected, reversed, and the rest of the word behind it.

Proof: by induction on the rest of the word. At its end there is either no text left or a glyph that
ends it, and both finish the token in the same way. -/
theorem scan_inside_word {word after : Text} (goes : ∀ glyph ∈ word, endsWord glyph = false)
    (ends : Ends after) (start offset : Nat) (earlier : Text) :
    scan (.word start earlier) offset (word ++ after) =
      .token ⟨start, earlier.reverse ++ word⟩ :: scan .nothing (offset + word.width) after := by
  induction word generalizing offset earlier with
  | nil =>
    cases after with
    | nil => simp [scan, Pending.finish]
    | cons glyph rest =>
      have ended : endsWord glyph = true := ends glyph (by simp)
      simp [scan, step, ended, Pending.finish]
  | cons glyph rest inductionHypothesis =>
    obtain ⟨first, others⟩ := List.forall_mem_cons.mp goes
    have further := inductionHypothesis others (offset + glyph.width) (glyph :: earlier)
    simp only [List.cons_append, scan, step, first, Bool.false_eq_true, if_false, List.nil_append]
    rw [further, Text.width_cons, Nat.add_assoc, List.reverse_cons, List.append_assoc,
      List.singleton_append]

/-- What does not end a word begins one, also if it is a byte that is not part of a character. -/
theorem between_of_not_endsWord {glyph : Glyph} (goes : endsWord glyph = false) (offset : Nat) :
    between offset glyph = ([], .word offset [glyph]) := by
  cases glyph with
  | stray byte => rfl
  | scalar c =>
    simp only [endsWord, Bool.or_eq_false_iff, beq_eq_false_iff_ne] at goes
    obtain ⟨⟨⟨notOpening, notClosing⟩, notQuote⟩, notDivider⟩ := goes
    simp [between, notOpening, notClosing, notQuote, notDivider]

/-- A word is one token, with all its glyphs. Its first glyph begins it and the others are inside;
it must not be empty, because a token takes at least one glyph. -/
theorem scan_word {word after : Text} (present : word ≠ [])
    (goes : ∀ glyph ∈ word, endsWord glyph = false) (ends : Ends after) (offset : Nat) :
    scan .nothing offset (word ++ after) =
      .token ⟨offset, word⟩ :: scan .nothing (offset + word.width) after := by
  obtain ⟨glyph, rest, rfl⟩ := List.exists_cons_of_ne_nil present
  obtain ⟨first, others⟩ := List.forall_mem_cons.mp goes
  have further := scan_inside_word others ends offset (offset + glyph.width) [glyph]
  simp only [List.cons_append, scan, step, between_of_not_endsWord first, List.nil_append]
  rw [further, Text.width_cons, Nat.add_assoc]
  rfl

/-- A quoted text that has begun goes on to the next quote, over blanks, brackets and ends of lines
alike. The quote is part of the token, and behind it the scan is between tokens again. -/
theorem scan_inside_quotation {inside : Text} (unquoted : Glyph.scalar '"' ∉ inside)
    (start offset : Nat) (earlier after : Text) :
    scan (.quotation start earlier) offset (inside ++ .scalar '"' :: after) =
      .token ⟨start, earlier.reverse ++ (inside ++ [.scalar '"'])⟩ ::
        scan .nothing (offset + (inside.width + 1)) after := by
  induction inside generalizing offset earlier with
  | nil => simp [scan, step, Pending.finish, Glyph.width, Glyph.encodeChar]
  | cons glyph rest inductionHypothesis =>
    have notQuote : glyph ≠ .scalar '"' := Ne.symm (List.ne_of_not_mem_cons unquoted)
    have others : Glyph.scalar '"' ∉ rest := List.not_mem_of_not_mem_cons unquoted
    have further := inductionHypothesis others (offset + glyph.width) (glyph :: earlier)
    simp only [List.cons_append, scan, step, if_neg notQuote, List.nil_append]
    rw [further, Text.width_cons, Nat.add_assoc, Nat.add_assoc, List.reverse_cons,
      List.append_assoc, List.singleton_append]

/-- A quoted text is one token, its two quotes included. What comes behind it does not matter, in
contrast to a word. -/
theorem scan_quotation {inside : Text} (unquoted : Glyph.scalar '"' ∉ inside) (offset : Nat)
    (after : Text) :
    scan .nothing offset (.scalar '"' :: (inside ++ .scalar '"' :: after)) =
      .token ⟨offset, .scalar '"' :: (inside ++ [.scalar '"'])⟩ ::
        scan .nothing (offset + 1 + (inside.width + 1)) after :=
  scan_inside_quotation unquoted offset (offset + 1) [.scalar '"'] after

end Mark

/-- A glyph that does not show the replacement character is what it shows. A stray byte shows that
character only, so all other characters are seen exactly as they are written. -/
theorem scalar_of_char {glyph : Glyph} {c : Char} (shown : glyph.char = c)
    (ordinary : c ≠ '\uFFFD') : glyph = .scalar c := by
  cases glyph with
  | scalar other => rw [← shown, Glyph.char]
  | stray byte => exact absurd shown.symm ordinary

/-- A glyph that shows a blank is that blank, because no blank is the replacement character. -/
theorem scalar_of_divider {glyph : Glyph} {c : Char} (shown : glyph.char = c)
    (divides : isDivider c = true) : glyph = .scalar c := by
  refine scalar_of_char shown ?_
  rintro rfl
  exact absurd divides (by decide)

/-- A glyph that shows a letter, a digit or a symbol ends no word. This connects the reader's
classes of characters with the scan's, which are not defined by each other. -/
theorem not_endsWord_of_signChar {glyph : Glyph} (sign : Reader.isSignChar glyph.char = true) :
    Mark.endsWord glyph = false := by
  cases glyph with
  | stray byte => rfl
  | scalar c =>
    rw [← Bool.not_eq_true]
    intro ends
    simp only [Mark.endsWord, isDivider, Bool.or_eq_true, beq_iff_eq] at ends
    rcases ends with ((rfl | rfl) | rfl) | (((rfl | rfl) | rfl) | rfl) <;>
      exact absurd sign (by decide)

/-- The spelling of an atom is one token, unless it goes on behind it.

Proof: a quoted spelling ends with its own quote, and nothing is needed of what follows. A bare one
consists of glyphs that end no word, so it is a word of the scan. -/
theorem scan_atom {text after : Text} {atom : Term} (spelled : Atom text.chars atom)
    (ends : Mark.Ends after) (offset : Nat) :
    Mark.scan .nothing offset (text ++ after) =
      .token ⟨offset, text⟩ :: Mark.scan .nothing (offset + text.width) after := by
  generalize shown : text.chars = source at spelled
  cases spelled with
  | quoted unquoted =>
    obtain ⟨first, others, rfl, isQuote, shownOthers⟩ := List.map_eq_cons_iff.mp shown
    obtain ⟨inside, final, rfl, shownInside, shownFinal⟩ := List.map_eq_append_iff.mp shownOthers
    obtain ⟨last, rfl, isLast⟩ := List.map_eq_singleton_iff.mp shownFinal
    obtain rfl := scalar_of_char isQuote (by decide)
    obtain rfl := scalar_of_char isLast (by decide)
    have noQuote : Glyph.scalar '"' ∉ inside := by
      intro member
      exact unquoted (shownInside ▸ List.mem_map.mpr ⟨_, member, rfl⟩)
    have scanned := Mark.scan_quotation noQuote offset after
    simp only [List.cons_append, List.append_assoc, List.nil_append, Text.width_cons,
      Text.width_append, Text.width_nil]
    rw [scanned, Nat.add_assoc]
    rfl
  | bare bare =>
    obtain ⟨present, signs⟩ := Reader.signChar_of_bare bare
    refine Mark.scan_word ?_ ?_ ends offset
    · rintro rfl
      exact present shown.symm
    · intro glyph member
      exact not_endsWord_of_signChar (signs _ (shown ▸ List.mem_map.mpr ⟨glyph, member, rfl⟩))

/-! ## Terms and where they are written -/

/-- A term and where it is written. -/
structure Placed extends Token where
  /-- The term that is written there. -/
  term : Term

/-- A list and where it is written. -/
structure PlacedList extends Placed where
  /-- How many lists it is nested in. -/
  depth : Nat
  /-- The atoms in it from left to right. -/
  atoms : List Placed

/-- How terms that are nested `depth` deep are written in a text that starts at `start`, `touching`
an atom in front of them or not: the lists among them and inside them in the order in which they
open, and their atoms from left to right. -/
inductive Placing : (depth : Nat) → (touching : Bool) → (start : Nat) → Text → List Term →
    List PlacedList → List Placed → Prop where
  | done (depth : Nat) (touching : Bool) (start : Nat) : Placing depth touching start [] [] [] []
  | blank {depth : Nat} (touching : Bool) {start : Nat} {c : Char} {text : Text}
      {terms : List Term} {lists : List PlacedList} {atoms : List Placed}
      (divides : isDivider c = true)
      (rest : Placing depth false (start + (Glyph.scalar c).width) text terms lists atoms) :
      Placing depth touching start (.scalar c :: text) terms lists atoms
  | atom {depth start : Nat} {word text : Text} {atom : Term} {terms : List Term}
      {lists : List PlacedList} {atoms : List Placed} (spelled : Atom word.chars atom)
      (rest : Placing depth true (start + word.width) text terms lists atoms) :
      Placing depth false start (word ++ text) (atom :: terms) lists
        (⟨⟨start, word⟩, atom⟩ :: atoms)
  | list {depth : Nat} (touching : Bool) {start : Nat} {inside text : Text}
      {items terms : List Term} {inner lists : List PlacedList} {within atoms : List Placed}
      (body : Placing (depth + 1) false (start + 1) inside items inner within)
      (rest : Placing depth false (start + 1 + inside.width + 1) text terms lists atoms) :
      Placing depth touching start (.scalar '(' :: (inside ++ .scalar ')' :: text))
        (.list items :: terms)
        (⟨⟨⟨start, .scalar '(' :: (inside ++ [.scalar ')'])⟩, .list items⟩, depth, within⟩ ::
          (inner ++ lists))
        (within ++ atoms)

/-- Each of two brackets takes one byte, so a list is two bytes wider than what stands in it. -/
theorem width_bracketed (inside text : Text) :
    Text.width (.scalar '(' :: (inside ++ .scalar ')' :: text)) =
      1 + inside.width + 1 + text.width := by
  have opening : (Glyph.scalar '(').width = 1 := rfl
  have closing : (Glyph.scalar ')').width = 1 := rfl
  simp only [Text.width_cons, Text.width_append, opening, closing]
  omega

/-- Where two brackets end: behind the text between them and their own two bytes. -/
theorem stop_bracketed (start : Nat) (inside : Text) :
    start + Text.width (.scalar '(' :: (inside ++ [.scalar ')'])) =
      start + 1 + inside.width + 1 := by
  rw [width_bracketed, Text.width_nil]
  omega

/-- A term stands at its place in a text that starts at an offset. -/
def Placed.StandsIn (start : Nat) (text : Text) (placed : Placed) : Prop :=
  ∃ before after, text = before ++ (placed.text ++ after) ∧
    start + Text.width before = placed.start

namespace Placed.StandsIn

variable {start : Nat} {text : Text} {placed : Placed}

/-- It also stands in a text that starts earlier: what is put in front moves the start of the text
back and leaves the place as it is. -/
theorem append_left (before : Text) (stands : placed.StandsIn (start + before.width) text) :
    placed.StandsIn start (before ++ text) := by
  obtain ⟨front, after, parts, offset⟩ := stands
  refine ⟨before ++ front, after, ?_, ?_⟩
  · rw [parts, List.append_assoc]
  · rw [Text.width_append, ← Nat.add_assoc, offset]

/-- It also stands in a text that goes on, at the same place, since offsets are counted from the
front. -/
theorem append_right (stands : placed.StandsIn start text) (after : Text) :
    placed.StandsIn start (text ++ after) := by
  obtain ⟨front, behind, parts, offset⟩ := stands
  refine ⟨front, behind ++ after, ?_, offset⟩
  rw [parts, List.append_assoc, List.append_assoc]

/-- It is cut out of a whole text at its place. For a text that starts at zero, offsets in the text
and places are the same. -/
theorem cut (stands : placed.StandsIn 0 text) :
    text.Cut placed.start placed.stop placed.text := by
  obtain ⟨before, after, parts, offset⟩ := stands
  rw [Nat.zero_add] at offset
  exact ⟨before, after, parts, offset, rfl⟩

end Placed.StandsIn

namespace Placing

variable {depth start : Nat} {touching : Bool} {text : Text} {terms : List Term}
  {lists : List PlacedList} {atoms : List Placed}

/-- The atoms are those of the terms, from left to right. Nothing that is written is left out, and
nothing is counted twice, although an atom inside nested lists is inside each of them. -/
theorem atoms_eq (placing : Placing depth touching start text terms lists atoms) :
    atoms.map (·.term) = atomsOf terms := by
  induction placing with
  | done => rfl
  | blank _ _ _ inductionHypothesis => exact inductionHypothesis
  | atom spelled _ inductionHypothesis =>
    rw [atomsOf, atoms_of_not_list (atomic_of_spelled spelled).1, List.map_cons,
      inductionHypothesis]
    rfl
  | list _ _ _ bodyHypothesis inductionHypothesis =>
    rw [atomsOf, atoms_list, List.map_append, bodyHypothesis, inductionHypothesis]

/-- The lists are those of the terms, each with its depth, in the order in which they open: a list
comes before those inside it, and these before the ones behind it. -/
theorem lists_eq (placing : Placing depth touching start text terms lists atoms) :
    lists.map (fun list => (list.depth, list.term)) = listsOf depth terms := by
  induction placing with
  | done => rfl
  | blank _ _ _ inductionHypothesis => exact inductionHypothesis
  | atom spelled _ inductionHypothesis =>
    rw [listsOf, lists_of_not_list (atomic_of_spelled spelled).1, inductionHypothesis]
    rfl
  | list _ _ _ bodyHypothesis inductionHypothesis =>
    rw [listsOf, Term.lists, List.map_cons, List.map_append, bodyHypothesis, inductionHypothesis]
    rfl

/-- Items that are derived are written somewhere in every text that shows them.

Proof: by induction on the derivation. The text shows what is derived, so it splits as the
derivation does; brackets and blanks are shown by themselves only, and atoms may contain glyphs that
show the same character. -/
theorem exists_of_items {source : List Char} (derived : Items touching source terms)
    (shown : text.chars = source) (depth start : Nat) :
    ∃ lists atoms, Placing depth touching start text terms lists atoms := by
  induction derived generalizing text depth start with
  | done =>
    obtain rfl := List.map_eq_nil_iff.mp shown
    exact ⟨[], [], .done depth _ start⟩
  | blank touching divides _ inductionHypothesis =>
    obtain ⟨glyph, others, rfl, isBlank, shownOthers⟩ := List.map_eq_cons_iff.mp shown
    obtain rfl := scalar_of_divider isBlank divides
    obtain ⟨lists, atoms, rest⟩ := inductionHypothesis shownOthers depth _
    exact ⟨lists, atoms, .blank touching divides rest⟩
  | atom spelled _ inductionHypothesis =>
    obtain ⟨word, others, rfl, rfl, shownOthers⟩ := List.map_eq_append_iff.mp shown
    obtain ⟨lists, atoms, rest⟩ := inductionHypothesis shownOthers depth _
    exact ⟨lists, _, .atom spelled rest⟩
  | list touching _ _ bodyHypothesis inductionHypothesis =>
    obtain ⟨opening, behind, rfl, isOpening, shownBehind⟩ := List.map_eq_cons_iff.mp shown
    obtain ⟨inside, final, rfl, rfl, shownFinal⟩ := List.map_eq_append_iff.mp shownBehind
    obtain ⟨closing, others, rfl, isClosing, shownOthers⟩ := List.map_eq_cons_iff.mp shownFinal
    obtain rfl := scalar_of_char isOpening (by decide)
    obtain rfl := scalar_of_char isClosing (by decide)
    obtain ⟨inner, within, body⟩ := bodyHypothesis rfl (depth + 1) (start + 1)
    obtain ⟨lists, atoms, rest⟩ := inductionHypothesis shownOthers depth _
    exact ⟨_, _, .list touching body rest⟩

/-- Terms that are written somewhere are derived from what the text shows: the places can be
forgotten. -/
theorem items (placing : Placing depth touching start text terms lists atoms) :
    Items touching text.chars terms := by
  induction placing with
  | done _ touching _ => exact .done touching
  | blank touching divides _ inductionHypothesis =>
    exact .blank touching divides inductionHypothesis
  | atom spelled _ inductionHypothesis =>
    rw [Text.chars_append]
    exact .atom spelled inductionHypothesis
  | list touching _ _ bodyHypothesis inductionHypothesis =>
    have derived := Items.list touching bodyHypothesis inductionHypothesis
    simpa [Text.chars, Glyph.char] using derived

/-- Each atom is spelled where it is written, also inside lists. So its text alone is enough to read
it again. -/
theorem spelled (placing : Placing depth touching start text terms lists atoms) :
    ∀ atom ∈ atoms, Atom atom.text.chars atom.term := by
  induction placing with
  | done => simp
  | blank _ _ _ inductionHypothesis => exact inductionHypothesis
  | atom spelled _ inductionHypothesis =>
    exact List.forall_mem_cons.mpr ⟨spelled, inductionHypothesis⟩
  | list _ _ _ bodyHypothesis inductionHypothesis =>
    exact List.forall_mem_append.mpr ⟨bodyHypothesis, inductionHypothesis⟩

/-- Each list is written as two brackets with its items in between, and these are written one level
deeper, one byte behind the opening bracket. -/
theorem bracketed (placing : Placing depth touching start text terms lists atoms) :
    ∀ list ∈ lists, ∃ items inside inner, list.term = .list items ∧
      list.text = .scalar '(' :: (inside ++ [.scalar ')']) ∧
      Placing (list.depth + 1) false (list.start + 1) inside items inner list.atoms := by
  induction placing with
  | done => simp
  | blank _ _ _ inductionHypothesis => exact inductionHypothesis
  | atom _ _ inductionHypothesis => exact inductionHypothesis
  | list _ body _ bodyHypothesis inductionHypothesis =>
    refine List.forall_mem_cons.mpr ⟨⟨_, _, _, rfl, rfl, body⟩, ?_⟩
    exact List.forall_mem_append.mpr ⟨bodyHypothesis, inductionHypothesis⟩

/-- The atoms in a list are among all atoms, because an outer list takes over those of the lists
inside it. -/
theorem atoms_subset (placing : Placing depth touching start text terms lists atoms) :
    ∀ list ∈ lists, list.atoms ⊆ atoms := by
  induction placing with
  | done => simp
  | blank _ _ _ inductionHypothesis => exact inductionHypothesis
  | atom _ _ inductionHypothesis =>
    intro list member
    exact List.subset_cons_of_subset _ (inductionHypothesis list member)
  | list _ _ _ bodyHypothesis inductionHypothesis =>
    refine List.forall_mem_cons.mpr ⟨List.subset_append_left _ _, ?_⟩
    refine List.forall_mem_append.mpr ⟨?_, ?_⟩
    · intro list member
      exact List.subset_append_of_subset_left _ (bodyHypothesis list member)
    · intro list member
      exact List.subset_append_of_subset_right _ (inductionHypothesis list member)

/-- Lists and atoms stand at their places in the text.

Proof: by induction on how the terms are written. What stands inside a list or behind it stands in
the whole text too, moved by what is in front: the bracket, or the bracket with all that it
encloses. -/
theorem standsIn (placing : Placing depth touching start text terms lists atoms) :
    (∀ list ∈ lists, list.StandsIn start text) ∧ ∀ atom ∈ atoms, atom.StandsIn start text := by
  induction placing with
  | done => simp
  | @blank _ _ _ c _ _ _ _ _ _ inductionHypothesis =>
    obtain ⟨eachList, eachAtom⟩ := inductionHypothesis
    constructor
    · intro list member
      exact (eachList list member).append_left [.scalar c]
    · intro atom member
      exact (eachAtom atom member).append_left [.scalar c]
  | @atom _ _ word text _ _ _ _ _ _ inductionHypothesis =>
    obtain ⟨eachList, eachAtom⟩ := inductionHypothesis
    constructor
    · intro list member
      exact (eachList list member).append_left word
    · refine List.forall_mem_cons.mpr ⟨⟨[], text, rfl, rfl⟩, ?_⟩
      intro atom member
      exact (eachAtom atom member).append_left word
  | @list _ _ start inside text _ _ _ _ _ _ _ _ bodyHypothesis inductionHypothesis =>
    have parts : .scalar '(' :: (inside ++ .scalar ')' :: text) =
        (.scalar '(' :: (inside ++ [.scalar ')'])) ++ text := by
      rw [List.cons_append, List.append_assoc, List.singleton_append]
    have within {placed : Placed} (stands : placed.StandsIn (start + 1) inside) :
        placed.StandsIn start (.scalar '(' :: (inside ++ .scalar ')' :: text)) :=
      (stands.append_right _).append_left [.scalar '(']
    have behind {placed : Placed} (stands : placed.StandsIn (start + 1 + inside.width + 1) text) :
        placed.StandsIn start (.scalar '(' :: (inside ++ .scalar ')' :: text)) := by
      rw [← stop_bracketed] at stands
      rw [parts]
      exact stands.append_left _
    obtain ⟨innerLists, innerAtoms⟩ := bodyHypothesis
    obtain ⟨eachList, eachAtom⟩ := inductionHypothesis
    constructor
    · refine List.forall_mem_cons.mpr ⟨⟨[], text, parts, rfl⟩, List.forall_mem_append.mpr ⟨?_, ?_⟩⟩
      · intro list member
        exact within (innerLists list member)
      · intro list member
        exact behind (eachList list member)
    · refine List.forall_mem_append.mpr ⟨?_, ?_⟩
      · intro atom member
        exact within (innerAtoms atom member)
      · intro atom member
        exact behind (eachAtom atom member)

/-- What touches an atom starts with something that ends it: a blank, a bracket, or what comes
behind if there is nothing. A second atom cannot touch the first. -/
theorem ends {after : Text} (placing : Placing depth true start text terms lists atoms)
    (endsAfter : Mark.Ends after) : Mark.Ends (text ++ after) := by
  cases placing with
  | done => exact endsAfter
  | blank _ divides _ => exact Mark.ends_cons (by simp [Mark.endsWord, divides]) _
  | list _ _ _ => exact Mark.ends_cons rfl _

end Placing

/-! ## The marks of terms -/

/-- The first of some terms where it is written, if it is an atom. -/
def leading? (terms : List Term) (atoms : List Placed) : Option Placed :=
  (leadingAtom? terms).bind fun _ => atoms.head?

/-- The brackets of a list. -/
def PlacedList.span (list : PlacedList) : Span :=
  ⟨list.start, list.stop, list.depth, (leading? list.term.items list.atoms).map (·.toToken)⟩

/-- The marks of a part of a text that starts at `start` and has `after` behind it, when terms are
written there. -/
structure Located (depth start : Nat) (text after : Text) (terms : List Term)
    (lists : List PlacedList) (atoms : List Placed) (marks : List Mark) : Prop where
  scan : Mark.scan .nothing start (text ++ after) =
    marks ++ Mark.scan .nothing (start + text.width) after
  closed : ∀ inner rest, Span.closing? inner (marks ++ rest) = Span.closing? inner rest
  tokens : marks.filterMap Mark.token? = atoms.map (·.toToken)
  head : marks.head?.bind Mark.token? = (leading? terms atoms).map (·.toToken)
  spans : ∀ rest, Span.ofMarks depth (marks ++ rest) =
    lists.map PlacedList.span ++ Span.ofMarks depth rest

namespace Located

variable {depth start : Nat} {text after : Text} {terms : List Term} {lists : List PlacedList}
  {atoms : List Placed} {marks : List Mark}

/-- Where nothing is written there are no marks, and what follows is scanned as it is. -/
theorem done : Located depth start [] after [] [] [] [] where
  scan := rfl
  closed _ _ := rfl
  tokens := rfl
  head := rfl
  spans _ := rfl

/-- A blank adds no mark, so only the place at which the scan goes on changes. -/
theorem blank {c : Char} (divides : isDivider c = true)
    (rest : Located depth (start + (Glyph.scalar c).width) text after terms lists atoms marks) :
    Located depth start (.scalar c :: text) after terms lists atoms marks where
  scan := by
    rw [List.cons_append, Mark.scan_blank divides, rest.scan, Text.width_cons, Nat.add_assoc]
  closed := rest.closed
  tokens := rest.tokens
  head := rest.head
  spans := rest.spans

/-- An atom adds a token in front of the marks behind it and no bracket, so the pairs are those of
the rest. It is what leads the terms. -/
theorem atom {word : Text} {atom : Term} (spelled : Atom word.chars atom)
    (ends : Mark.Ends (text ++ after))
    (rest : Located depth (start + word.width) text after terms lists atoms marks) :
    Located depth start (word ++ text) after (atom :: terms) lists (⟨⟨start, word⟩, atom⟩ :: atoms)
      (.token ⟨start, word⟩ :: marks) where
  scan := by
    rw [List.append_assoc, scan_atom spelled ends, rest.scan, Text.width_append, Nat.add_assoc]
    rfl
  closed := rest.closed
  tokens := congrArg (List.cons _) rest.tokens
  head := by
    rw [leading?, leadingAtom?, (atomic_of_spelled spelled).1]
    rfl
  spans := rest.spans

/-- A bracket behind some marks does not come before them, and if there are none it is no token. So
what leads the items of a list does not depend on what follows the list. -/
theorem head?_bind_token?_closing (marks : List Mark) (offset : Nat) (rest : List Mark) :
    (marks ++ .closing offset :: rest).head?.bind Mark.token? = marks.head?.bind Mark.token? := by
  cases marks <;> rfl

/-- A pair of brackets adds itself to the marks of its items. The marks inside are closed among
themselves, which makes the next closing bracket the partner of the opening one. -/
theorem list {inside : Text} {items : List Term} {inner : List PlacedList} {within : List Placed}
    {bodyMarks : List Mark}
    (body : Located (depth + 1) (start + 1) inside (.scalar ')' :: (text ++ after)) items inner
      within bodyMarks)
    (rest : Located depth (start + 1 + inside.width + 1) text after terms lists atoms marks) :
    Located depth start (.scalar '(' :: (inside ++ .scalar ')' :: text)) after
      (.list items :: terms)
      (⟨⟨⟨start, .scalar '(' :: (inside ++ [.scalar ')'])⟩, .list items⟩, depth, within⟩ ::
        (inner ++ lists))
      (within ++ atoms)
      (.opening start :: (bodyMarks ++ .closing (start + 1 + inside.width) :: marks)) where
  scan := by
    have width : start + Text.width (.scalar '(' :: (inside ++ .scalar ')' :: text)) =
        start + 1 + inside.width + 1 + text.width := by
      rw [width_bracketed]
      omega
    simp only [width, List.cons_append, List.append_assoc]
    rw [Mark.scan_opening, body.scan, Mark.scan_closing, rest.scan]
  closed depth others := by
    simp only [List.cons_append, List.append_assoc, Span.closing?]
    rw [body.closed]
    exact rest.closed depth others
  tokens := by
    simp only [List.filterMap_cons, List.filterMap_append, Mark.token?, List.map_append]
    rw [body.tokens, rest.tokens]
  head := rfl
  spans others := by
    -- Since the marks inside are closed among themselves, the next bracket is the partner.
    simp only [List.cons_append, List.append_assoc, Span.ofMarks, body.closed, Span.closing?]
    rw [head?_bind_token?_closing, body.head, body.spans]
    simp only [Span.ofMarks, Nat.add_sub_cancel, List.map_cons, List.map_append]
    rw [rest.spans, List.cons_append, List.append_assoc, PlacedList.span, Token.stop,
      stop_bracketed]
    rfl

end Located

/-- The marks of a part of a text are those of the terms that are written there, whatever follows,
as long as it ends a word.

Proof: by induction on how the terms are written. Behind the items of a list there is a closing
bracket, which ends every word, so nothing is assumed there. -/
theorem Placing.located {depth start : Nat} {touching : Bool} {text after : Text}
    {terms : List Term} {lists : List PlacedList} {atoms : List Placed}
    (placing : Placing depth touching start text terms lists atoms) (endsAfter : Mark.Ends after) :
    ∃ marks, Located depth start text after terms lists atoms marks := by
  induction placing generalizing after with
  | done => exact ⟨[], .done⟩
  | blank _ divides _ inductionHypothesis =>
    obtain ⟨marks, located⟩ := inductionHypothesis endsAfter
    exact ⟨marks, .blank divides located⟩
  | atom spelled rest inductionHypothesis =>
    obtain ⟨marks, located⟩ := inductionHypothesis endsAfter
    exact ⟨_, .atom spelled (rest.ends endsAfter) located⟩
  | list _ _ _ bodyHypothesis inductionHypothesis =>
    have endsInside : ∀ others, Mark.Ends (.scalar ')' :: others) := Mark.ends_cons rfl
    obtain ⟨bodyMarks, locatedBody⟩ := bodyHypothesis (endsInside _)
    obtain ⟨marks, located⟩ := inductionHypothesis endsAfter
    exact ⟨_, .list locatedBody located⟩

/-- The outline of a text has the brackets of the lists and the tokens of the atoms that are written
in it, and no others, in the order in which they are written. -/
theorem Placing.outline {text : Text} {terms : List Term} {lists : List PlacedList}
    {atoms : List Placed} (placing : Placing 0 false 0 text terms lists atoms) :
    Outline.ofText text = ⟨atoms.map (·.toToken), lists.map PlacedList.span⟩ := by
  obtain ⟨marks, located⟩ := placing.located Mark.ends_nil
  have found : Mark.ofText text = marks := by
    have scanned := located.scan
    rw [List.append_nil] at scanned
    rw [Mark.ofText]
    exact scanned.trans (List.append_nil marks)
  have spans : Span.ofMarks 0 marks = lists.map PlacedList.span := by
    have all := located.spans []
    rw [List.append_nil] at all
    exact all.trans (List.append_nil _)
  rw [Outline.ofText, found, spans, located.tokens]

end TermLang.Server
