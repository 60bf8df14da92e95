import TermLang.Proofs.Reader.Brackets

/-!
# The fronts of a source that is one list

A source that is read as one list holds that list between blanks. A front of it that has begun the
list and has not ended it stands behind the opening bracket and in front of the closing one, so that
brackets are open in it. It need not be read as incomplete: the reader checks first that no string
is left open, and a string that is cut off is an error of its own. So more input is asked for
exactly where the front does not end in a string.

What fronts of other sources are read as is not said here; see the errors of brackets.
-/

namespace TermLang

namespace Grammar

/-- A text of blanks only. -/
def Blank (text : List Char) : Prop := ∀ c ∈ text, isDivider c = true

/-- Blanks can be counted out, so that examples decide by themselves whether a text holds nothing
else. -/
instance (text : List Char) : Decidable (Blank text) :=
  decidable_of_iff (text.all isDivider = true) List.all_eq_true

/-- A part of a text of blanks is a text of blanks. -/
theorem Blank.of_infix {part text : List Char} (blank : Blank text) (within : part <:+: text) :
    Blank part :=
  fun c member => blank c (within.subset member)

/-- Blanks hold no strings and no brackets, so nothing is open behind them. -/
theorem Blank.level {text : List Char} (blank : Blank text) : Level text := by
  induction text with
  | nil => exact .nil
  | cons c rest inductionHypothesis =>
    obtain ⟨divides, others⟩ := List.forall_mem_cons.mp blank
    exact (level_blank divides).append (inductionHypothesis others)

/-- A source that holds one list, between blanks. -/
structure SoleList (source before inside after : List Char) : Prop where
  parts : source = before ++ '(' :: (inside ++ ')' :: after)
  leads : Blank before
  level : Level inside
  trails : Blank after

/-- Where there are no items, there are blanks. The induction is on how the source was derived, and
only two of its rules give no item. -/
theorem Items.blank_of_nil {touching : Bool} {source : List Char}
    (derived : Items touching source []) : Blank source := by
  generalize empty : ([] : List Term) = terms at derived
  induction derived with
  | done => exact List.forall_mem_nil _
  | blank _ divides _ inductionHypothesis =>
    exact List.forall_mem_cons.mpr ⟨divides, inductionHypothesis empty⟩
  | atom => cases empty
  | list => cases empty

/-- No atom is spelled as a list: what stands between quotes is a text, and no rule for bare atoms
gives a list. -/
theorem not_atom_list {text : List Char} {items : List Term} : ¬ Atom text (.list items) := by
  intro spelled
  cases spelled with
  | bare bare => cases bare

/-- A single item that is a list stands between blanks. The blanks in front of it are passed one by
one, and what is behind it has no items. -/
theorem Items.soleList {touching : Bool} {source : List Char} {items : List Term}
    (derived : Items touching source [.list items]) :
    ∃ before inside after, SoleList source before inside after := by
  generalize single : [Term.list items] = terms at derived
  induction derived with
  | done => cases single
  | @blank _ c _ _ divides _ inductionHypothesis =>
    obtain ⟨before, inside, after, rfl, leads, level, trails⟩ := inductionHypothesis single
    have further : Blank (c :: before) := List.forall_mem_cons.mpr ⟨divides, leads⟩
    exact ⟨c :: before, inside, after, rfl, further, level, trails⟩
  | atom spelled _ _ =>
    cases single
    exact absurd spelled not_atom_list
  | @list _ inside after _ _ body rest _ _ =>
    cases single
    have nothing : Blank [] := List.forall_mem_nil _
    exact ⟨[], inside, after, rfl, nothing, body.level, rest.blank_of_nil⟩

/-- A front that has begun the list and has not ended it stands between its brackets.

Proof: a front of a text in parts ends within one of them. It does not end in the blanks in front of
the list, for then it would be blank; nor behind the closing bracket, for then the rest would be. -/
theorem SoleList.exists_begun {front rest before inside after : List Char}
    (sole : SoleList (front ++ rest) before inside after) (begun : ¬ Blank front)
    (unended : ¬ Blank rest) : ∃ more, front = before ++ '(' :: more ∧ more <+: inside := by
  have leads : front <+: before ++ '(' :: (inside ++ ')' :: after) :=
    sole.parts ▸ List.prefix_append front rest
  rcases prefix_append_cases leads with early | ⟨text, rfl, further⟩
  · exact absurd (sole.leads.of_infix early.isInfix) begun
  rcases List.prefix_cons_iff.mp further with rfl | ⟨more, rfl, behind⟩
  · exact absurd (by simpa using sole.leads) begun
  refine ⟨more, rfl, ?_⟩
  rcases prefix_append_cases behind with within | ⟨last, rfl, closing⟩
  · exact within
  rcases List.prefix_cons_iff.mp closing with rfl | ⟨final, rfl, _⟩
  · simp
  · have ended : final ++ rest = after := by simpa using sole.parts
    exact absurd (sole.trails.of_infix (ended ▸ (List.suffix_append final rest).isInfix)) unended

/-- Behind such a front a bracket is open, unless it ends in a string. One was opened by the list
itself, and between its brackets the depth never falls below that. -/
theorem SoleList.depth_pos {front rest before inside after : List Char}
    (sole : SoleList (front ++ rest) before inside after) (begun : ¬ Blank front)
    (unended : ¬ Blank rest) : 0 < depth front := by
  obtain ⟨more, rfl, within⟩ := sole.exists_begun begun unended
  have inFront := sole.leads.level
  have never := sole.level.neverNegative more within
  rw [depth_behind_opening inFront.unquoted, inFront.depth_eq]
  omega

end Grammar

namespace Reader

open Grammar

/-- A state is outside of strings exactly if the quotes that it tracks are even: what it covers
holds whole strings only, and an open string adds its one quote. -/
theorem Tracks.outside_iff {state : State} {source : List Char} (tracks : Tracks state source) :
    state.quotation = none ↔ Unquoted source := by
  obtain ⟨before, inside, quoted, rfl, opened, laid, quoting⟩ := tracks.divided
  have first := opened.endsApart.2
  have second := laid.covers.even_quotes
  rw [Unquoted, List.count_append, List.count_append]
  cases cut : state.quotation with
  | none =>
    rw [cut] at quoting
    cases quoting
    simp only [List.count_nil, true_iff]
    omega
  | some quotation =>
    rw [cut] at quoting
    cases quoting with
    | some unquoted _ =>
      have noQuote := List.count_eq_zero.mpr unquoted
      simp only [List.count_cons_self, List.count_reverse, noQuote, reduceCtorEq, false_iff]
      omega

/-- A front of a source that can be read is read without an error, since an error ends the reading
whatever comes behind it. -/
theorem exists_readAll_front {front rest : List Char} {term : Term}
    (read : readList (front ++ rest) = .ok term) :
    ∃ state, State.initial.readAll front = .ok state ∧ Tracks state front := by
  have tracked := tracks_initial.readAll front
  cases run : State.initial.readAll front with
  | ok state =>
    rw [run] at tracked
    exact ⟨state, rfl, tracked⟩
  | error error =>
    rw [readList, scan, State.readAll_append, run] at read
    cases read

/-- A front that ends in a string is an invalid symbol, whatever brackets are open. So a front that
is read as incomplete does not end in one. -/
theorem unquoted_of_incomplete_front {front rest : List Char} {term : Term}
    (read : readList (front ++ rest) = .ok term) (incomplete : Incomplete (readList front)) :
    Unquoted front := by
  obtain ⟨state, run, tracks⟩ := exists_readAll_front read
  refine tracks.outside_iff.mp ?_
  cases cut : state.quotation with
  | none => rfl
  | some quotation =>
    obtain ⟨error, failed, unclosed⟩ := incomplete_iff.mp incomplete
    rw [readList, scan, run] at failed
    simp only [cut, Except.error.injEq] at failed
    rw [← failed] at unclosed
    cases unclosed

/-- A source that is read as one list holds that list between blanks, because it was derived from
the grammar. -/
theorem exists_soleList {source : List Char} {items : List Term}
    (read : readList source = .ok (.list [.list items])) :
    ∃ before inside after, SoleList source before inside after := by
  obtain ⟨terms, isList, derived⟩ := items_of_readList read
  cases isList
  exact derived.soleList

/-- Of a source that is one list, a front that has begun the list and not ended it asks for more
input exactly if it does not end in a string. -/
theorem incomplete_front_iff {front rest : List Char} {items : List Term}
    (read : readList (front ++ rest) = .ok (.list [.list items])) (begun : ¬ Blank front)
    (unended : ¬ Blank rest) : Incomplete (readList front) ↔ Unquoted front := by
  refine ⟨unquoted_of_incomplete_front read, fun unquoted => ?_⟩
  obtain ⟨state, run, tracks⟩ := exists_readAll_front read
  have scanned : scan front = .ok state := by
    simp only [scan, run, tracks.outside_iff.mpr unquoted]
  obtain ⟨before, inside, after, sole⟩ := exists_soleList read
  have deep := sole.depth_pos begun unended
  rw [(depth_of_scan scanned).2] at deep
  have isOpen : state.openings ≠ [] := by
    rintro closed
    rw [closed] at deep
    exact absurd deep (by decide)
  obtain ⟨_, _, _, failed⟩ := readList_of_open scanned isOpen
  exact incomplete_iff.mpr ⟨_, failed, rfl⟩

end Reader

end TermLang
