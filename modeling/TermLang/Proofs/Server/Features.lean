import TermLang.Proofs.Server.Outline
import TermLang.Proofs.Server.Positions
import TermLang.Proofs.Server.Upkeep
import TermLang.Server.Symbol

/-!
# Symbols and warnings follow the program

What an editor shows about a text is found in its outline: brackets and tokens, and what stands
between brackets read once more. If the text reads as a program, a walk through that program finds
the same. The symbols are those of the lists with a keyword in front, from the outside in and from
left to right; the warnings are about the keywords that name no form, wherever they stand.

Where the lists and the atoms of the program are written is said by `Placing`, without the outline.
So all that is left is one list and one atom: a token starts with a dot exactly if it spells a
keyword, and what is read between two brackets is the list that is written there.

Texts that cannot be read have symbols as well; nothing is said about them here.
-/

namespace TermLang.Server

open Grammar Term

/-! ## Keywords -/

/-- A token starts with an ordinary character exactly if it shows that character first. The
replacement character is not ordinary, since stray bytes show it too. -/
theorem Token.startsWith_iff {c : Char} (ordinary : c ≠ '\uFFFD') (token : Token) :
    token.startsWith c = true ↔ token.text.chars.head? = some c := by
  rw [startsWith, beq_iff_eq, Text.chars, List.head?_map, Option.map_eq_some_iff]
  constructor
  · intro isFirst
    exact ⟨_, isFirst, rfl⟩
  · rintro ⟨glyph, isFirst, shown⟩
    rw [isFirst, scalar_of_char shown ordinary]

/-- Digits behind a sign or none do not start with a dot, so a number is never taken for a keyword.
-/
theorem head_ne_dot_of_digits (negative : Bool) {digits : List Char} (present : digits ≠ [])
    (only : AllDigits digits) (behind : List Char) :
    (Number.signOf negative ++ (digits ++ behind)).head? ≠ some '.' := by
  obtain ⟨first, rest, rfl⟩ := List.exists_cons_of_ne_nil present
  cases negative with
  | true => simp [Number.signOf]
  | false =>
    intro dot
    cases dot
    exact absurd (only '.' List.mem_cons_self) (by decide)

/-- What is spelled with a dot in front is a keyword, and its name is the whole spelling. Each of
the other kinds of atoms starts with something else; a quoted text starts with its quote, even if a
dot comes next. -/
theorem keyword_of_dot {source : List Char} {atom : Term} (spelled : Atom source atom)
    (dot : source.head? = some '.') : atom = .keyword (String.ofList source) := by
  cases spelled with
  | quoted unquoted => cases dot
  | bare bare =>
    cases bare with
    | number numeral _ =>
      cases numeral with
      | whole negative present only =>
        have first := head_ne_dot_of_digits negative present only []
        rw [List.append_nil] at first
        exact absurd dot first
      | pointed negative present only _ =>
        exact absurd dot (head_ne_dot_of_digits negative present only _)
    | var capital _ =>
      cases dot
      exact absurd capital (by decide)
    | affirmed => cases dot
    | denied => cases dot
    | str small _ _ _ =>
      cases dot
      exact absurd small (by decide)
    | wildcard _ => cases dot
    | keyword _ _ => rfl
    | binaryOp known =>
      have noDot : ∀ symbol ∈ binaryOperators, symbol.toList.head? ≠ some '.' := by decide
      exact absurd dot (noDot _ known)
    | unaryOp => exact absurd dot (by decide)

/-- A keyword is spelled as its name, with a dot in front, and in no other way: quoting it would
make it a text. -/
theorem spelling_of_keyword {source : List Char} {name : String}
    (spelled : Atom source (.keyword name)) :
    source.head? = some '.' ∧ String.ofList source = name := by
  cases spelled with
  | bare bare =>
    cases bare with
    | keyword _ _ => exact ⟨rfl, rfl⟩

/-- A token starts with a dot exactly if it spells a keyword. The server looks at the dot alone, the
program has the keyword; this is where the two meet. -/
theorem startsWith_dot_iff {token : Token} {atom : Term} (spelled : Atom token.text.chars atom) :
    token.startsWith '.' = true ↔ ∃ name, atom = .keyword name := by
  rw [Token.startsWith_iff (by decide)]
  constructor
  · intro dot
    exact ⟨_, keyword_of_dot spelled dot⟩
  · rintro ⟨name, rfl⟩
    exact (spelling_of_keyword spelled).1

/-! ## Warnings -/

/-- The range of a term. -/
def Placed.range (text : Text) (placed : Placed) : Range :=
  text.rangeOf placed.start placed.stop

/-- The warning about an atom, if it is a keyword and names no form. -/
def Placed.warning? (text : Text) (atom : Placed) : Option Diagnostic :=
  match atom.term with
  | .keyword name =>
    if name ∈ Form.all.map Form.keyword then none
    else some ⟨atom.range text, .warning, some Diagnostic.unknownForm,
      "unknown form " ++ name ++ " (only a .def rule can reduce it)"⟩
  | _ => none

/-- A name that is not found names no form: looking a form up goes through the table of all forms.
-/
theorem isNone_find?_iff (name : String) :
    (Form.find? name).isNone = true ↔ name ∉ Form.all.map Form.keyword := by
  simp [Form.find?]

/-- The warning about the token of an atom is the one about the atom, with the same range, the same
code and the same text. The server takes the name from what the token shows, which for a keyword is
its name. -/
theorem Placed.ofToken?_eq {atom : Placed} (spelled : Atom atom.text.chars atom.term)
    (text : Text) : Diagnostic.ofToken? text atom.toToken = atom.warning? text := by
  by_cases dot : atom.startsWith '.' = true
  · obtain ⟨name, isKeyword⟩ := (startsWith_dot_iff spelled).mp dot
    have shown : atom.text.shown = name := (spelling_of_keyword (isKeyword ▸ spelled)).2
    simp only [Diagnostic.ofToken?, warning?, isKeyword, dot, shown, Bool.true_and,
      isNone_find?_iff, ite_not]
    rfl
  · simp only [Diagnostic.ofToken?, dot, Bool.false_and, Bool.false_eq_true, if_false]
    rw [warning?]
    split
    · rename_i name isKeyword
      exact absurd ((startsWith_dot_iff spelled).mpr ⟨name, isKeyword⟩) dot
    · rfl

/-! ## Symbols -/

/-- What a list with a keyword in front sets up, and the ranges of the list and of the keyword. -/
def PlacedList.symbol? (text : Text) (list : PlacedList) : Option PlacedSymbol :=
  match list.term, list.atoms with
  | .list (.keyword _ :: _), first :: _ =>
    (Symbol.ofTerm? list.term).map fun symbol => ⟨symbol, list.range text, first.range text⟩
  | _, _ => none

/-- A term with an atom in front is a list, and the atom is its first item. An empty list and one
that starts with a list have no atom in front. -/
theorem eq_list_of_leadingAtom? {term atom : Term} (leads : leadingAtom? term.items = some atom) :
    ∃ operands, term = .list (atom :: operands) := by
  cases term with
  | list items =>
    cases items with
    | nil => cases leads
    | cons first operands =>
      simp only [items, leadingAtom?] at leads
      split at leads
      · cases leads
      · cases leads
        exact ⟨operands, rfl⟩
  | _ => cases leads

/-- A list starts with an atom that its first token spells, or no token comes first in it. In the
first case all that the server looks at is known, in the second it looks no further. -/
theorem PlacedList.head_cases {text : Text} {list : PlacedList}
    (encloses : Encloses text list.span (list.depth, list.term)) :
    (∃ atom operands first others, list.term = .list (atom :: operands) ∧
      list.atoms = first :: others ∧ list.span.head = some first.toToken ∧
      Atom first.text.chars atom) ∨
    leadingAtom? list.term.items = none ∧ list.span.head = none := by
  have head := encloses.head
  simp only [span, leading?] at head ⊢
  cases leads : leadingAtom? list.term.items with
  | none => exact .inr ⟨rfl, rfl⟩
  | some atom =>
    obtain ⟨operands, isList⟩ := eq_list_of_leadingAtom? leads
    rw [leads] at head
    cases inside : list.atoms with
    | nil =>
      rw [inside] at head
      cases head
    | cons first others =>
      rw [inside] at head
      cases head with
      | some spells => exact .inl ⟨atom, operands, first, others, isList, rfl, rfl, spells.spelled⟩

/-- The symbol between two brackets is that of the list which they enclose.

Proof: the server reads what stands between the brackets once more, and that gives the list of the
program. Whether there is a symbol is decided by the dot of the first token there and by the keyword
here, which is the same. -/
theorem PlacedList.symbolIn?_eq {text : Text} {list : PlacedList}
    (encloses : Encloses text list.span (list.depth, list.term)) :
    (Document.ofText text).symbolIn? list.span = list.symbol? text := by
  have alone : (Document.ofText text).listIn? list.span = some list.term := by
    have read := encloses.reads.alone
    simp only [Document.listIn?, Document.ofText, read, items]
  have ranges := (Document.describes_ofText text).ranges
  rcases head_cases encloses with
    ⟨atom, operands, first, others, isList, inside, isHead, spelled⟩ | ⟨noAtom, noToken⟩
  · by_cases dot : first.startsWith '.' = true
    · obtain ⟨name, rfl⟩ := (startsWith_dot_iff spelled).mp dot
      simp only [Document.symbolIn?, isHead, dot, if_true, alone, Option.bind_some,
        Document.tokenRange, ranges]
      rw [symbol?, isList, inside]
      rfl
    · simp only [Document.symbolIn?, isHead, dot, Bool.false_eq_true, if_false]
      rw [symbol?, isList]
      split
      · rename_i name _ _ _ isKeyword _
        cases isKeyword
        exact absurd ((startsWith_dot_iff spelled).mpr ⟨_, rfl⟩) dot
      · rfl
  · simp only [Document.symbolIn?, noToken]
    rw [symbol?]
    split
    · rename_i isList _
      rw [isList] at noAtom
      cases noAtom
    · rfl

/-! ## Ranges -/

/-- A range leads back to a stretch of text. It may start early, but only by carriage returns. -/
structure Range.Covers (range : Range) (text : Text) (start stop : Nat) : Prop where
  early : text.offsetOf range.start ≤ start
  returns : ∀ glyph ∈ text.between (text.offsetOf range.start) start, glyph = .scalar '\r'
  stop : text.offsetOf range.stop = stop

/-- The range of a part that ends with something else than a carriage return covers it. Its end is a
place, so it leads back there; its start leads back to the place in front of the returns before it,
which take no room. -/
theorem Range.covers_of_cut {text part : Text} {start stop : Nat} (cut : text.Cut start stop part)
    {glyph : Glyph} (isLast : part.getLast? = some glyph) (noReturn : glyph ≠ .scalar '\r') :
    (text.rangeOf start stop).Covers text start stop := by
  obtain ⟨before, after, rfl, rfl, rfl⟩ := cut
  obtain ⟨body, parts, bodyNoReturn⟩ := before.exists_body
  have early := Text.offsetOf_positionOf_width parts bodyNoReturn (part ++ after)
  have widths := congrArg Text.width parts
  rw [Text.width_append] at widths
  refine ⟨?_, ?_, ?_⟩
  · rw [Text.rangeOf, early]
    omega
  · have front : (before ++ (part ++ after)).Cut body.width before.width before.closingReturns := by
      refine ⟨body, part ++ after, ?_, rfl, widths.symm⟩
      rw [← List.append_assoc body, ← parts]
    rw [Text.rangeOf, early, front.between]
    intro glyph member
    exact Text.eq_return_of_mem_closingReturns member
  · have lastGlyph : (before ++ part).getLast? ≠ some (.scalar '\r') := by
      rwa [List.getLast?_append, isLast, Option.some_or, ne_eq, Option.some.injEq]
    have offset := Text.offsetOf_width lastGlyph after
    have position := Text.positionOf_width (before ++ part) after
    rw [Text.width_append, List.append_assoc] at position offset
    rw [Text.rangeOf, position, offset]

/-- The spelling of an atom ends with something else than a carriage return: with a quote, or with a
character that a reader takes into a word. -/
theorem exists_last_of_spelled {source : List Char} {atom : Term} (spelled : Atom source atom) :
    ∃ c, source.getLast? = some c ∧ c ≠ '\r' := by
  cases spelled with
  | quoted unquoted =>
    refine ⟨'"', ?_, by decide⟩
    rw [← List.cons_append, List.getLast?_concat]
  | bare bare =>
    obtain ⟨present, signs⟩ := Reader.signChar_of_bare bare
    refine ⟨source.getLast present, List.getLast?_eq_some_getLast present, ?_⟩
    intro isReturn
    have sign := signs _ (List.getLast_mem present)
    rw [isReturn] at sign
    exact absurd sign (by decide)

namespace Placing

variable {text : Text} {terms : List Term} {lists : List PlacedList} {atoms : List Placed}

/-- The range of a list covers it, because a list ends with its bracket. -/
theorem covers_list (placing : Placing 0 false 0 text terms lists atoms) :
    ∀ list ∈ lists, (list.range text).Covers text list.start list.stop := by
  intro list member
  obtain ⟨_, inside, _, _, isText, _⟩ := placing.bracketed list member
  have isLast : list.text.getLast? = some (.scalar ')') := by
    rw [isText, ← List.cons_append, List.getLast?_concat]
  exact Range.covers_of_cut (placing.standsIn.1 list member).cut isLast (by decide)

/-- The range of an atom covers it, because the spelling of an atom does not end with a carriage
return. -/
theorem covers_atom (placing : Placing 0 false 0 text terms lists atoms) :
    ∀ atom ∈ atoms, (atom.range text).Covers text atom.start atom.stop := by
  intro atom member
  obtain ⟨c, isShown, noReturn⟩ := exists_last_of_spelled (placing.spelled atom member)
  rw [Text.chars, List.getLast?_map, Option.map_eq_some_iff] at isShown
  obtain ⟨glyph, isLast, rfl⟩ := isShown
  refine Range.covers_of_cut (placing.standsIn.2 atom member).cut isLast ?_
  rintro rfl
  exact noReturn rfl

end Placing

/-! ## What an editor is shown -/

/-- The symbols and the warnings of a text that reads as a program are those that a walk through the
program finds: for each list with a keyword in front what it sets up, in the order in which the
lists open, and a warning for each keyword that names no form, from left to right. The ranges cover
the brackets of the list, the keyword in front of it, and the keyword that is warned about. -/
theorem features_agree_with_program {text : Text} {program : Term}
    (read : readProgram text.chars = .ok program) :
    (∃ lists atoms, Placing 0 false 0 text program.items lists atoms) ∧
      ∀ lists atoms, Placing 0 false 0 text program.items lists atoms →
        lists.map (fun list => (list.depth, list.term)) = listsOf 0 program.items ∧
        atoms.map (·.term) = atomsOf program.items ∧
        (Document.ofText text).symbols = lists.filterMap (·.symbol? text) ∧
        (Document.ofText text).diagnostics = atoms.filterMap (·.warning? text) ∧
        (∀ list ∈ lists, list.atoms ⊆ atoms ∧
          (list.range text).Covers text list.start list.stop) ∧
        ∀ atom ∈ atoms, (atom.range text).Covers text atom.start atom.stop := by
  obtain ⟨forms, rfl, derived⟩ := Reader.program_of_readProgram read
  refine ⟨Placing.exists_of_items derived.items rfl 0 0, ?_⟩
  intro lists atoms placing
  refine ⟨placing.lists_eq, placing.atoms_eq, ?_, ?_, ?_, ?_⟩
  · rw [Document.symbols, (Document.describes_ofText text).outline, placing.outline,
      List.filterMap_map]
    exact List.filterMap_congr fun list member =>
      PlacedList.symbolIn?_eq (placing.encloses list member)
  · rw [Document.diagnostics_ofText, Diagnostic.ofText, read]
    simp only [placing.outline, List.filterMap_map]
    exact List.filterMap_congr fun atom member =>
      Placed.ofToken?_eq (placing.spelled atom member) text
  · intro list member
    exact ⟨placing.atoms_subset list member, placing.covers_list list member⟩
  · exact placing.covers_atom

/-- A keyword behind blanks, one that names no form and is not in front, and quoted texts that look
like a form and like a keyword. -/
theorem features_of_nested_program :
    let text := Text.ofString "(() ( .dec\t(a .frob)) (\".load\" x) (.is X \"(.dec y)\"))"
    let fact : Term := .list [.str "a", .keyword ".frob"]
    let declared : Term := .list [.keyword ".dec", fact]
    let quoted : Term := .list [.str ".load", .str "x"]
    let bound : Term := .list [.keyword ".is", .var "X", .str "(.dec y)"]
    let program : Term := .list [.list [.list [], declared, quoted, bound]]
    readProgram text.chars = .ok program ∧
      ∃ lists atoms, Placing 0 false 0 text program.items lists atoms ∧
        lists.filterMap (·.symbol? text) =
          [⟨⟨.fact, "(a .frob)"⟩, ⟨⟨0, 4⟩, ⟨0, 21⟩⟩, ⟨⟨0, 6⟩, ⟨0, 10⟩⟩⟩,
            ⟨⟨.binding, "X"⟩, ⟨⟨0, 34⟩, ⟨0, 52⟩⟩, ⟨⟨0, 35⟩, ⟨0, 38⟩⟩⟩] ∧
        (atoms.filterMap (·.warning? text)).map (·.range) = [⟨⟨0, 14⟩, ⟨0, 19⟩⟩] := by
  intro text fact declared quoted bound program
  have read : readProgram text.chars = .ok program := rfl
  obtain ⟨⟨lists, atoms, placing⟩, agree⟩ := features_agree_with_program read
  obtain ⟨_, _, symbols, warnings, _⟩ := agree lists atoms placing
  refine ⟨read, lists, atoms, placing, ?_, ?_⟩
  · rw [← symbols]
    decide +kernel
  · rw [← warnings]
    decide +kernel

end TermLang.Server
