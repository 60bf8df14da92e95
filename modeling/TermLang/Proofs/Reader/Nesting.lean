import TermLang.Proofs.Reader.Position

/-!
# The running depth of a source

Brackets outside of strings can be counted without reading anything: the depth behind a text is the
number of brackets that it opens less the number of those that it closes. What is made of items is
level, which means that its depth ends at zero and is never negative on the way.

The reader does not count. What it keeps after some characters is one opening for each bracket that
is still open, with level text in between; so the openings are as many as the depth, and the
innermost and the outermost of them stand where the depth says that a bracket is left open.
-/

namespace TermLang

namespace Grammar

/-- The characters of a text outside of strings, `quoted` or not when it begins. Quotes belong to
the strings. -/
def outside : (quoted : Bool) → List Char → List Char
  | _, [] => []
  | quoted, c :: rest =>
    if c = '"' then outside (!quoted) rest
    else if quoted then outside quoted rest
    else c :: outside quoted rest

/-- How many more brackets a text opens than it closes, outside of strings. -/
def depth (text : List Char) : Int :=
  (outside false text).count '(' - (outside false text).count ')'

/-- Strings that begin in a text end in it. -/
def Unquoted (text : List Char) : Prop := text.count '"' % 2 = 0

/-- The running depth does not become negative. -/
def NeverNegative (text : List Char) : Prop := ∀ front, front <+: text → 0 ≤ depth front

/-- A text that closes the brackets it opens, and no others. -/
structure Level (text : List Char) : Prop where
  unquoted : Unquoted text
  depth_eq : depth text = 0
  neverNegative : NeverNegative text

/-! ## Texts one behind the other -/

/-- Two places in a list are the same, or one of them is behind the other. In each case it is said
what stands between them. -/
theorem parts_cases {α : Type} {front behind before after : List α} {one other : α}
    (same : front ++ one :: behind = before ++ other :: after) :
    (∃ between, before = front ++ one :: between ∧ behind = between ++ other :: after) ∨
      (front = before ∧ one = other ∧ behind = after) ∨
      ∃ between, front = before ++ other :: between ∧ after = between ++ one :: behind := by
  rcases List.append_eq_append_iff.mp same with ⟨more, rfl, rest⟩ | ⟨more, rfl, rest⟩
  · cases more with
    | nil =>
      obtain ⟨isOther, isAfter⟩ := List.cons.inj rest
      exact .inr (.inl ⟨(List.append_nil front).symm, isOther, isAfter⟩)
    | cons _ between =>
      obtain ⟨rfl, isBehind⟩ := List.cons.inj rest
      exact .inl ⟨between, rfl, isBehind⟩
  · cases more with
    | nil =>
      obtain ⟨isOne, isBehind⟩ := List.cons.inj rest
      exact .inr (.inl ⟨List.append_nil before, isOne.symm, isBehind.symm⟩)
    | cons _ between =>
      obtain ⟨rfl, isAfter⟩ := List.cons.inj rest
      exact .inr (.inr ⟨between, rfl, isAfter⟩)

/-- Every quote of a text turns the rest inside out. So what is outside of strings behind a text
depends on the number of its quotes only. The induction is on the first text. -/
theorem outside_append (quoted : Bool) (before after : List Char) :
    outside quoted (before ++ after) =
      outside quoted before ++
        outside (if before.count '"' % 2 = 0 then quoted else !quoted) after := by
  induction before generalizing quoted with
  | nil => rfl
  | cons c rest inductionHypothesis =>
    simp only [List.cons_append, outside]
    by_cases quote : c = '"'
    · have turned : (if rest.count '"' % 2 = 0 then !quoted else !!quoted) =
          if (c :: rest).count '"' % 2 = 0 then quoted else !quoted := by
        rw [quote, List.count_cons_self, Bool.not_not]
        by_cases even : rest.count '"' % 2 = 0
        · rw [if_pos even, if_neg (by omega)]
        · rw [if_neg even, if_pos (by omega)]
      rw [if_pos quote, if_pos quote, inductionHypothesis, turned]
    · rw [if_neg quote, if_neg quote, inductionHypothesis, List.count_cons_of_ne quote]
      split
      · rfl
      · rfl

/-- Behind a text in which strings end, the depth goes on from there: what is outside of strings
behind it is so by itself. -/
theorem depth_append {before : List Char} (unquoted : Unquoted before) (after : List Char) :
    depth (before ++ after) = depth before + depth after := by
  have goesOn := outside_append false before after
  rw [Unquoted] at unquoted
  rw [if_pos unquoted] at goesOn
  simp only [depth, goesOn, List.count_append]
  omega

/-- An opening bracket in front of a text adds one to its depth. -/
theorem depth_opening (after : List Char) : depth ('(' :: after) = 1 + depth after := by
  simp [depth, outside]
  omega

/-- If strings end in two texts, they end in both of them one behind the other. -/
theorem unquoted_append {before after : List Char} (first : Unquoted before)
    (second : Unquoted after) : Unquoted (before ++ after) := by
  rw [Unquoted, List.count_append]
  rw [Unquoted] at first second
  omega

/-- What is in front of a place in two texts is in front of it in the first, or goes on into the
second. -/
theorem prefix_append_cases {front before after : List Char} (leads : front <+: before ++ after) :
    front <+: before ∨ ∃ more, front = before ++ more ∧ more <+: after := by
  rcases List.prefix_or_prefix_of_prefix leads (List.prefix_append before after) with
    inside | ⟨more, rfl⟩
  · exact .inl inside
  · exact .inr ⟨more, rfl, (List.prefix_append_right_inj before).mp leads⟩

/-- The depth of nothing is zero, and there is no other front. -/
theorem neverNegative_nil : NeverNegative [] := by
  intro front leads
  rw [List.prefix_nil.mp leads]
  exact Int.le_refl 0

/-- An opening bracket alone brings the depth to one, and in front of it the depth is zero. -/
theorem neverNegative_opening : NeverNegative ['('] := by
  intro front leads
  rcases List.prefix_cons_iff.mp leads with rfl | ⟨more, rfl, isNil⟩
  · decide
  · rw [List.prefix_nil.mp isNil]
    decide

/-- The depth of two texts one behind the other stays above that of the first. A front ends in the
first text, or it goes on into the second; there the depth of the first is added, which is not
negative. -/
theorem NeverNegative.append {before after : List Char} (first : NeverNegative before)
    (unquoted : Unquoted before) (second : NeverNegative after) :
    NeverNegative (before ++ after) := by
  intro front leads
  rcases prefix_append_cases leads with inside | ⟨more, rfl, further⟩
  · exact first front inside
  · rw [depth_append unquoted]
    exact Int.add_nonneg (first before List.prefix_rfl) (second more further)

namespace Level

/-- A text without characters is level. -/
theorem nil : Level [] := ⟨rfl, rfl, neverNegative_nil⟩

/-- Level texts one behind the other are level. Their depths are added, and both are zero. -/
theorem append {before after : List Char} (first : Level before) (second : Level after) :
    Level (before ++ after) := by
  refine ⟨unquoted_append first.unquoted second.unquoted, ?_, ?_⟩
  · rw [depth_append first.unquoted, first.depth_eq, second.depth_eq]
    rfl
  · exact first.neverNegative.append first.unquoted second.neverNegative

/-- A level text between two brackets is level.

Proof: inside of the brackets the depth is that of the text and one more, so it is never negative,
and the last bracket takes the one away again. -/
theorem bracketed {inside : List Char} (level : Level inside) :
    Level ('(' :: (inside ++ [')'])) := by
  refine ⟨?_, ?_, ?_⟩
  · simpa [Unquoted, List.count_cons] using level.unquoted
  · rw [depth_opening, depth_append level.unquoted, level.depth_eq]
    decide
  · intro front leads
    rcases List.prefix_cons_iff.mp leads with rfl | ⟨more, rfl, further⟩
    · exact Int.le_refl 0
    · rw [depth_opening]
      rcases prefix_append_cases further with within | ⟨last, rfl, closing⟩
      · have := level.neverNegative more within
        omega
      · rw [depth_append level.unquoted, level.depth_eq]
        rcases List.prefix_cons_iff.mp closing with rfl | ⟨none, rfl, isNil⟩
        · decide
        · rw [List.prefix_nil.mp isNil]
          decide

/-- A text without brackets outside of strings is level, because all its fronts have the depth zero.
-/
theorem of_no_brackets {text : List Char} (unquoted : Unquoted text)
    (free : ∀ c ∈ outside false text, c ≠ '(' ∧ c ≠ ')') : Level text := by
  have flat {front : List Char} (leads : front <+: text) : depth front = 0 := by
    obtain ⟨rest, rfl⟩ := leads
    have among {c : Char} (member : c ∈ outside false front) : c ≠ '(' ∧ c ≠ ')' := by
      apply free
      rw [outside_append]
      exact List.mem_append_left _ member
    have noOpening : '(' ∉ outside false front := fun member => (among member).1 rfl
    have noClosing : ')' ∉ outside false front := fun member => (among member).2 rfl
    rw [depth, List.count_eq_zero.mpr noOpening, List.count_eq_zero.mpr noClosing]
    rfl
  exact ⟨unquoted, flat List.prefix_rfl, fun front leads => Int.le_of_eq (flat leads).symm⟩

end Level

/-! ## What is read is level -/

/-- Inside of a string nothing is outside. -/
theorem outside_of_quoted {text : List Char} (unquoted : '"' ∉ text) : outside true text = [] := by
  induction text with
  | nil => rfl
  | cons c rest inductionHypothesis =>
    rw [List.mem_cons, not_or] at unquoted
    rw [outside, if_neg (Ne.symm unquoted.1), if_pos rfl, inductionHypothesis unquoted.2]

/-- A text without quotes has no strings. -/
theorem outside_of_unquoted {text : List Char} (unquoted : '"' ∉ text) :
    outside false text = text := by
  induction text with
  | nil => rfl
  | cons c rest inductionHypothesis =>
    rw [List.mem_cons, not_or] at unquoted
    rw [outside, if_neg (Ne.symm unquoted.1), if_neg (by decide), inductionHypothesis unquoted.2]

/-- A quoted text is level, whatever brackets stand in it: nothing of it is outside of strings. -/
theorem level_quoted {text : List Char} (unquoted : '"' ∉ text) :
    Level ('"' :: (text ++ ['"'])) := by
  have noQuote : text.count '"' = 0 := List.count_eq_zero.mpr unquoted
  have nothing : outside false ('"' :: (text ++ ['"'])) = [] := by
    simp [outside, outside_append, outside_of_quoted unquoted]
  refine Level.of_no_brackets ?_ ?_
  · simp [Unquoted, noQuote]
  · simp [nothing]

/-- Characters of which none is a quote or a bracket make up a level text. -/
theorem level_plain {text : List Char} (plain : ∀ c ∈ text, c ≠ '"' ∧ c ≠ '(' ∧ c ≠ ')') :
    Level text := by
  have unquoted : '"' ∉ text := fun member => (plain _ member).1 rfl
  refine Level.of_no_brackets ?_ ?_
  · rw [Unquoted, List.count_eq_zero.mpr unquoted]
  · rw [outside_of_unquoted unquoted]
    exact fun c member => (plain c member).2

/-- A blank is level, as it is neither a quote nor a bracket. -/
theorem level_blank {c : Char} (divides : isDivider c = true) : Level [c] := by
  apply level_plain
  intro other member
  rw [List.mem_singleton.mp member]
  refine ⟨?_, ?_, ?_⟩
  all_goals
    rintro rfl
    exact absurd divides (by decide)

/-- Letters, digits and symbols are level for the same reason. -/
theorem level_signs {text : List Char} (signs : ∀ c ∈ text, Reader.isSignChar c = true) :
    Level text := by
  apply level_plain
  intro c member
  have sign := signs c member
  refine ⟨?_, ?_, ?_⟩
  all_goals
    rintro rfl
    exact absurd sign (by decide)

/-- The spelling of an atom is level, whether it is quoted or bare. -/
theorem level_atom {text : List Char} {term : Term} (spelled : Atom text term) : Level text := by
  cases spelled with
  | quoted unquoted => exact level_quoted unquoted
  | bare bare => exact level_signs (Reader.signChar_of_bare bare).2

/-- A sequence of items is level. The induction follows its derivation; a list is level with its
body by `bracketed`. -/
theorem Items.level {touching : Bool} {source : List Char} {terms : List Term}
    (derived : Items touching source terms) : Level source := by
  induction derived with
  | done => exact .nil
  | blank _ divides _ inductionHypothesis => exact (level_blank divides).append inductionHypothesis
  | atom spelled _ inductionHypothesis => exact (level_atom spelled).append inductionHypothesis
  | @list _ inside source _ _ _ _ bodyLevel inductionHypothesis =>
    have whole := bodyLevel.bracketed.append inductionHypothesis
    rwa [List.cons_append, List.append_assoc] at whole

/-! ## Brackets that are left open -/

/-- The bracket between two texts is left open: behind it the depth never comes back to what it was
in front of it. -/
structure LeftOpen (source before after : List Char) : Prop where
  parts : source = before ++ '(' :: after
  stays : ∀ front, front <+: after → depth before < depth (before ++ '(' :: front)

/-- The last bracket that is left open. -/
structure Innermost (source before after : List Char) : Prop
    extends LeftOpen source before after where
  last : ∀ earlier later, LeftOpen source earlier later → earlier.length ≤ before.length

/-- The first bracket that is left open. -/
structure Outermost (source before after : List Char) : Prop
    extends LeftOpen source before after where
  first : ∀ earlier later, LeftOpen source earlier later → before.length ≤ earlier.length

/-- Behind an opening bracket the depth goes on from one more than it was in front of it. -/
theorem depth_behind_opening {before : List Char} (unquoted : Unquoted before)
    (front : List Char) : depth (before ++ '(' :: front) = depth before + 1 + depth front := by
  rw [depth_append unquoted, depth_opening]
  omega

/-- A bracket behind which the depth is never negative is left open: the depth stays at least one
above what it was in front of it. -/
theorem leftOpen_of_neverNegative {before after : List Char} (unquoted : Unquoted before)
    (never : NeverNegative after) : LeftOpen (before ++ '(' :: after) before after := by
  refine ⟨rfl, ?_⟩
  intro front leads
  have := never front leads
  rw [depth_behind_opening unquoted]
  omega

/-- Of two places for a bracket the later one stands behind the earlier bracket, with some text
between the two. -/
theorem exists_between {before after earlier later : List Char}
    (same : before ++ '(' :: after = earlier ++ '(' :: later)
    (order : before.length < earlier.length) :
    ∃ between, earlier = before ++ '(' :: between ∧ after = between ++ '(' :: later := by
  rcases parts_cases same with found | ⟨rfl, _⟩ | ⟨between, rfl, _⟩
  · exact found
  · exact absurd order (Nat.lt_irrefl _)
  · rw [List.length_append] at order
    omega

/-- A bracket with level text behind it is the innermost one: the text opens none to stay.

Proof: a later bracket that is left open would stand in the level text. In front of it the depth is
not negative there, and at the end it is zero, so it has come back. -/
theorem innermost_of_level {before after : List Char} (unquoted : Unquoted before)
    (level : Level after) : Innermost (before ++ '(' :: after) before after := by
  refine ⟨leftOpen_of_neverNegative unquoted level.neverNegative, ?_⟩
  intro earlier later open_
  refine Nat.le_of_not_lt fun order => ?_
  obtain ⟨between, rfl, rfl⟩ := exists_between open_.parts order
  have atEnd := open_.stays later List.prefix_rfl
  have inside := level.neverNegative between (List.prefix_append _ _)
  rw [← open_.parts, depth_behind_opening unquoted, depth_behind_opening unquoted,
    level.depth_eq] at atEnd
  omega

/-- A bracket with level text in front of it is the outermost one, if it is left open.

Proof: an earlier bracket that is left open would stand in the level text. In front of it the depth
is not negative, and at the end of that text it is zero, so it has come back. -/
theorem outermost_of_level {before after : List Char} (level : Level before)
    (never : NeverNegative after) : Outermost (before ++ '(' :: after) before after := by
  refine ⟨leftOpen_of_neverNegative level.unquoted never, ?_⟩
  intro earlier later open_
  refine Nat.le_of_not_lt fun order => ?_
  obtain ⟨between, rfl, rfl⟩ := exists_between open_.parts.symm order
  have there := open_.stays between (List.prefix_append _ _)
  have inFront := level.neverNegative earlier (List.prefix_append _ _)
  rw [level.depth_eq] at there
  omega

end Grammar

namespace Reader

open Grammar

/-- What a piece covers is level: a divider and a sign hold no bracket outside of strings, and a
finished list is a sequence of items in brackets. -/
theorem PieceCovers.level {piece : Piece} {chunk : List Char} (covers : PieceCovers piece chunk) :
    Level chunk := by
  cases covers with
  | divider divides => exact level_blank divides
  | @sign sign legal =>
    cases sign with
    | char c mark =>
      apply level_signs
      intro other member
      rw [List.mem_singleton.mp member]
      exact legal
    | quoted text mark => exact level_quoted legal
  | list body => exact body.level.bracketed

/-- What pieces cover is level. -/
theorem Covers.level {pieces : List Piece} {source : List Char} (covers : Covers pieces source) :
    Level source := by
  induction covers with
  | nil => exact .nil
  | cons head _ inductionHypothesis => exact head.level.append inductionHypothesis

/-! ## What a state knows of the depth -/

/-- In front of the innermost open list, the depth is the number of open brackets. The induction is
on these: between two of them stands level text, and each adds one. -/
theorem Opened.depth {openings : List Opening} {before : List Char}
    (opened : Opened openings before) :
    NeverNegative before ∧ Grammar.depth before = openings.length := by
  induction opened with
  | nil => exact ⟨neverNegative_nil, rfl⟩
  | @cons _ _ before around rest laid _ inductionHypothesis =>
    obtain ⟨never, depth⟩ := inductionHypothesis
    have unquoted : Unquoted before := rest.endsApart.2
    have level := laid.covers.level
    have further := unquoted_append unquoted level.unquoted
    refine ⟨(never.append unquoted level.neverNegative).append further neverNegative_opening, ?_⟩
    have opening : Grammar.depth ['('] = 1 := rfl
    rw [depth_append further, depth_append unquoted, level.depth_eq, depth, opening,
      List.length_cons]
    omega

/-- Where the outermost open bracket stands: behind what the pieces of the top level cover. Behind
it the depth is never negative, since further brackets were only opened there. The induction is on
the inner brackets. -/
theorem Opened.outermost_stays {inner : List Opening} {opening : Opening} {before : List Char}
    (opened : Opened (inner ++ [opening]) before) :
    ∃ around inside, before = around ++ '(' :: inside ∧ Laid [] opening.earlier.reverse around ∧
      opening.mark = Mark.behind around ∧ Unquoted inside ∧ NeverNegative inside := by
  induction inner generalizing before with
  | nil =>
    cases opened with
    | cons rest laid marked =>
      cases rest
      exact ⟨_, [], rfl, laid, marked, rfl, neverNegative_nil⟩
  | cons first others inductionHypothesis =>
    cases opened with
    | @cons _ _ _ around rest laid _ =>
      obtain ⟨outside, inside, rfl, outsideLaid, outsideMarked, unquoted, never⟩ :=
        inductionHypothesis rest
      have level := laid.covers.level
      have further := unquoted_append unquoted level.unquoted
      refine ⟨outside, inside ++ around ++ ['('], by simp, outsideLaid, outsideMarked, ?_, ?_⟩
      · exact unquoted_append further rfl
      · exact (never.append unquoted level.neverNegative).append further neverNegative_opening

/-- A scanned source has as many open brackets as its depth says, and the depth was never negative.
Behind the innermost open bracket stands level text, which changes nothing. -/
theorem depth_of_scan {source : List Char} {state : State} (scanned : scan source = .ok state) :
    NeverNegative source ∧ depth source = state.openings.length := by
  obtain ⟨before, inside, rfl, opened, laid⟩ := exists_parts_of_scan scanned
  obtain ⟨never, depth⟩ := opened.depth
  have unquoted : Unquoted before := opened.endsApart.2
  have level := laid.covers.level
  refine ⟨never.append unquoted level.neverNegative, ?_⟩
  rw [depth_append unquoted, level.depth_eq, depth, Int.add_zero]

/-- The innermost open bracket of a state is the last one that is left open, because what the pieces
behind it cover is level. -/
theorem innermost_of_scan {source : List Char} {state : State} {opening : Opening}
    {outer : List Opening} (scanned : scan source = .ok state)
    (isOpen : state.openings = opening :: outer) :
    ∃ before after, Innermost source before after ∧ opening.mark = Mark.behind before := by
  obtain ⟨_, inside, rfl, opened, laid⟩ := exists_parts_of_scan scanned
  rw [isOpen] at opened
  cases opened with
  | @cons _ _ before around rest earlier marked =>
    have unquoted := unquoted_append rest.endsApart.2 earlier.covers.level.unquoted
    refine ⟨before ++ around, inside, ?_, marked⟩
    rw [List.append_assoc, List.singleton_append]
    exact innermost_of_level unquoted laid.covers.level

/-- The outermost open bracket of a state is the first one that is left open; in front of it stands
what the pieces of the top level cover, which is level. -/
theorem outermost_of_scan {source : List Char} {state : State} {opening : Opening}
    (scanned : scan source = .ok state) (bottom : state.openings.getLast? = some opening) :
    ∃ before after, Outermost source before after ∧ opening.mark = Mark.behind before ∧
      Laid [] opening.earlier.reverse before := by
  obtain ⟨_, inside, rfl, opened, laid⟩ := exists_parts_of_scan scanned
  obtain ⟨inner, isLast⟩ := List.getLast?_eq_some_iff.mp bottom
  rw [isLast] at opened
  obtain ⟨around, between, rfl, earlier, marked, unquoted, never⟩ := opened.outermost_stays
  refine ⟨around, between ++ inside, ?_, marked, earlier⟩
  rw [List.append_assoc, List.cons_append]
  exact outermost_of_level earlier.covers.level
    (never.append unquoted laid.covers.level.neverNegative)

end Reader

end TermLang
