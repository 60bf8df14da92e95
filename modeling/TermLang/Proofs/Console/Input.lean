import TermLang.Console.Prompt
import TermLang.Proofs.Reader.Blanks
import TermLang.Proofs.Reader.Fronts

/-!
# Inputs that span lines

The prompt reads lines until they make up a whole input, and decides after each line by reading all
the lines so far once more. So what it waits for is told by the fronts of the lines alone: it waits
behind lines of which every front is incomplete, and it stops at the first line that makes them
whole. From this the lines fall into groups, each of them an input, and what is left is waited for.

A list that spans lines is read as one input exactly if none of the line breaks stands in a string:
a string that a line cuts off is an invalid symbol, for which no line is waited.

What the prompt does with an input is not said here.
-/

namespace TermLang

namespace Text

/-- A blank of the language is a blank: what separates items is also what is trimmed from an input.
-/
theorem isBlank_of_divider {c : Char} (divides : isDivider c = true) : isBlank c = true := by
  rcases ParseError.divider_cases divides with rfl | rfl | rfl | rfl <;> decide

/-- A text that is trimmed begins with its first character that is not blank. What is trimmed from
its end does not matter, since that character stays. -/
theorem head?_trimBlank {before : List Char} {c : Char}
    (leads : ∀ other ∈ before, isBlank other = true) (visible : isBlank c = false)
    (rest : List Char) : (trimBlank (before ++ c :: rest)).head? = some c := by
  have begins : (before ++ c :: rest).dropWhile isBlank = c :: rest := by
    rw [List.dropWhile_append_of_pos leads, List.dropWhile_cons, if_neg (by simp [visible])]
  have stays : [c].dropWhile isBlank = [c] := by simp [visible]
  rw [trimBlank, begins, List.reverse_cons, List.dropWhile_append, stays]
  split
  · rfl
  · simp

end Text

namespace Console.Prompt

open Grammar Reader

/-! ## Reading one input -/

/-- Whether an input is waited for to go on. A command is never waited for, even if it leaves a
bracket open. -/
def goesOn (input : Text) : Bool :=
  !isCommand input && isIncomplete input

/-- Reads lines until they make up an input. The result is the input and the lines behind it, or
nothing if the lines end first. -/
def readInput (prompt : Prompt) : List Text → Prompt × Option (Text × List Text)
  | [] => (prompt.ask, none)
  | line :: rest =>
    let input := joinLine prompt.pending line
    if goesOn input then { prompt.ask with pending := input }.readInput rest
    else ({ prompt.ask with pending := [] }, some (input, rest))

/-- The prompt reads inputs and runs them, until it has ended or the lines have. Reading an input
does not depend on what the prompt has run, so the two can be looked at apart from here on. -/
theorem converse_eq_readInput {prompt : Prompt} (running : prompt.ended = false)
    (lines : List Text) :
    prompt.converse lines =
      match prompt.readInput lines with
      | (next, none) => next.close
      | (next, some (input, rest)) =>
        if (next.run input).ended then next.run input else (next.run input).converse rest := by
  induction lines generalizing prompt with
  | nil => rfl
  | cons line rest inductionHypothesis =>
    have kept : prompt.ask.pending = prompt.pending := rfl
    rw [converse, readInput, feed, kept]
    by_cases waits : goesOn (joinLine prompt.pending line) = true
    · rw [if_pos waits]
      rw [goesOn] at waits
      rw [if_pos waits, if_neg (by simp [ask, running])]
      apply inductionHypothesis
      exact running
    · rw [if_neg waits]
      rw [goesOn] at waits
      rw [if_neg waits]

/-- The inputs that are read from lines, one after the other, as if none of them ended the prompt.
-/
def inputs (pending : Text) : List Text → List Text
  | [] => []
  | line :: rest =>
    let input := joinLine pending line
    if goesOn input then inputs input rest else input :: inputs [] rest

/-- The inputs are what is read when reading starts again behind each of them. The prompt asks
between lines, which changes its output and never the lines that it waits behind. -/
theorem inputs_eq_readInput (prompt : Prompt) (lines : List Text) :
    inputs prompt.pending lines =
      match (prompt.readInput lines).2 with
      | none => []
      | some (input, rest) => input :: inputs [] rest := by
  induction lines generalizing prompt with
  | nil => rfl
  | cons line rest inductionHypothesis =>
    rw [inputs, readInput]
    by_cases waits : goesOn (joinLine prompt.pending line) = true
    · rw [if_pos waits, if_pos waits]
      apply inductionHypothesis { prompt.ask with pending := joinLine prompt.pending line }
    · rw [if_neg waits, if_neg waits]

/-! ## Lines -/

/-- The text that lines make up, with newlines between them. -/
def joined (lines : List Text) : Text :=
  [Glyph.scalar '\n'].intercalate lines

/-- Lines behind which the prompt waits: no front of them is an input, and neither are all of them.
-/
def Waiting (lines : List Text) : Prop :=
  ∀ front, front <+: lines → front ≠ [] → goesOn (joined front) = true

/-- Lines that make up an input, and no fewer of them: the prompt waits behind all but the last one,
and does not wait behind that. -/
structure Whole (lines : List Text) : Prop where
  present : lines ≠ []
  waits : Waiting lines.dropLast
  ends : goesOn (joined lines) = false

/-- The prompt waits behind no lines. -/
theorem waiting_nil : Waiting [] := by
  intro front leads present
  exact absurd (List.prefix_nil.mp leads) present

/-- The prompt waits behind one line more, if it waited so far and the lines still go on. -/
theorem waiting_concat {lines : List Text} {line : Text} (waiting : Waiting lines)
    (goes : goesOn (joined (lines ++ [line])) = true) : Waiting (lines ++ [line]) := by
  intro front leads present
  rcases List.prefix_concat_iff.mp leads with rfl | earlier
  · exact goes
  · exact waiting front earlier present

/-- Lines are whole with the first line behind which they do not go on. -/
theorem whole_concat {lines : List Text} {line : Text} (waiting : Waiting lines)
    (ends : goesOn (joined (lines ++ [line])) = false) : Whole (lines ++ [line]) := by
  refine ⟨by simp, ?_, ends⟩
  rwa [List.dropLast_concat]

/-- A single line is the text that it makes up. -/
@[simp]
theorem joined_singleton (line : Text) : joined [line] = line := by
  simp [joined]

/-- A newline stands between two groups of lines, as it does between any two lines. Neither may be
empty: no lines at all make up an empty text without a newline. -/
theorem joined_append {before after : List Text} (first : before ≠ []) (second : after ≠ []) :
    joined (before ++ after) = joined before ++ .scalar '\n' :: joined after := by
  induction before with
  | nil => exact absurd rfl first
  | cons line rest inductionHypothesis =>
    cases rest with
    | nil => simp [joined, List.intercalate_cons_of_ne_nil second]
    | cons next others =>
      have tail := inductionHypothesis (by simp)
      simp only [joined, List.cons_append, List.intercalate_cons_cons] at tail ⊢
      simp [tail]

/-- No line is waited for behind nothing. So lines that are waited behind never make up an empty
text, and the prompt can tell by the text whether it has read a line. -/
theorem goesOn_nil : goesOn [] = false := rfl

/-- A line is joined to the lines in front of it, unless it is the first one. The prompt looks at
the text to see whether there are lines in front, which is right as long as it waits behind them. -/
theorem joinLine_joined {lines : List Text} (waiting : Waiting lines) (line : Text) :
    joinLine (joined lines) line = joined (lines ++ [line]) := by
  by_cases first : lines = []
  · subst first
    simp [joined, joinLine]
  · have present : joined lines ≠ [] := by
      intro nothing
      have goes := waiting lines List.prefix_rfl first
      rw [nothing, goesOn_nil] at goes
      cases goes
    rw [joined_append first (by simp), joinLine, if_neg (by simpa using present)]
    simp [joined]

/-! ## The run over the lines -/

/-- What is shown to ask for lines: another text for the first one than for those that follow. -/
def questions : (lines : Nat) → String
  | 0 => ""
  | lines + 1 => questions lines ++ if lines = 0 then "(lex) λ " else "...  "

/-- A prompt that has asked for lines and waits behind them. -/
def behind (start : Prompt) (lines : List Text) : Prompt :=
  { start with pending := joined lines, output := start.output ++ questions lines.length }

/-- Asking behind lines asks for one line more. Which text is shown is decided by whether anything
is pending, which is to say by whether there are lines. -/
theorem ask_behind (start : Prompt) {lines : List Text} (waiting : Waiting lines) :
    (start.behind lines).ask =
      { start.behind lines with output := start.output ++ questions (lines.length + 1) } := by
  have empty : (joined lines).isEmpty = true ↔ lines.length = 0 := by
    constructor
    · intro nothing
      by_contra present
      have goes := waiting lines List.prefix_rfl (by simpa using present)
      rw [List.isEmpty_iff.mp nothing, goesOn_nil] at goes
      cases goes
    · intro short
      rw [List.eq_nil_of_length_eq_zero short]
      rfl
  simp only [ask, question, behind, questions, empty, String.append_assoc]

/-- A step: a line is asked for, and either waited behind or the last one of an input. -/
theorem readInput_behind (start : Prompt) {lines : List Text} (waiting : Waiting lines)
    (line : Text) (rest : List Text) :
    (start.behind lines).readInput (line :: rest) =
      if goesOn (joined (lines ++ [line])) then (start.behind (lines ++ [line])).readInput rest
      else
        ({ start.behind (lines ++ [line]) with pending := [] },
          some (joined (lines ++ [line]), rest)) := by
  have pending : (start.behind lines).pending = joined lines := rfl
  rw [readInput, pending, joinLine_joined waiting, ask_behind start waiting]
  simp only [behind, List.length_append, List.length_singleton]

/-- A run: reading stops behind the first line that makes the lines whole, and otherwise at the end
of the lines. -/
theorem readInput_cases (start : Prompt) {before : List Text} (waiting : Waiting before)
    (lines : List Text) :
    (Waiting (before ++ lines) ∧
      (start.behind before).readInput lines = ((start.behind (before ++ lines)).ask, none)) ∨
    ∃ more rest, lines = more ++ rest ∧ Whole (before ++ more) ∧
      (start.behind before).readInput lines =
        ({ start.behind (before ++ more) with pending := [] },
          some (joined (before ++ more), rest)) := by
  induction lines generalizing before with
  | nil =>
    refine .inl ?_
    rw [List.append_nil]
    exact ⟨waiting, rfl⟩
  | cons line rest inductionHypothesis =>
    rw [readInput_behind start waiting]
    by_cases goes : goesOn (joined (before ++ [line])) = true
    · rw [if_pos goes]
      rcases inductionHypothesis (waiting_concat waiting goes) with
        ⟨stillWaiting, read⟩ | ⟨more, after, rfl, whole, read⟩
      · refine .inl ?_
        rw [List.append_cons]
        exact ⟨stillWaiting, read⟩
      · refine .inr ⟨line :: more, after, rfl, ?_⟩
        rw [List.append_cons]
        exact ⟨whole, read⟩
    · rw [if_neg goes]
      have whole := whole_concat waiting (Bool.not_eq_true _ ▸ goes)
      exact .inr ⟨[line], rest, rfl, whole, rfl⟩

/-- Behind no lines a prompt is as it was. -/
theorem behind_nil {start : Prompt} (fresh : start.pending = []) : start.behind [] = start := by
  cases start
  cases fresh
  simp [behind, joined, questions]

/-- A run that starts with no lines. This is where each input starts, since nothing is pending
behind the one before it. -/
theorem readInput_fresh {start : Prompt} (fresh : start.pending = []) (lines : List Text) :
    (Waiting lines ∧ start.readInput lines = ((start.behind lines).ask, none)) ∨
    ∃ group rest, lines = group ++ rest ∧ Whole group ∧
      start.readInput lines =
        ({ start.behind group with pending := [] }, some (joined group, rest)) := by
  simpa only [List.nil_append, behind_nil fresh] using readInput_cases start waiting_nil lines

/-- Lines that are read as one input, whatever comes behind them: the prompt asks for each of them,
and stops behind the last one. -/
def ReadAsOne (lines : List Text) : Prop :=
  ∀ (start : Prompt) (rest : List Text), start.pending = [] →
    start.readInput (lines ++ rest) =
      ({ start.behind lines with pending := [] }, some (joined lines, rest))

/-- Nothing that is whole goes on to something else that is. So where lines are cut into inputs,
they can be cut in one way only. -/
theorem Whole.eq_of_front {fewer lines : List Text} (first : Whole fewer) (second : Whole lines)
    (leads : fewer <+: lines) : fewer = lines := by
  obtain ⟨init, last, rfl⟩ := (List.eq_nil_or_concat' lines).resolve_left second.present
  rcases List.prefix_concat_iff.mp leads with same | earlier
  · exact same
  · have waiting : Waiting init := by simpa using second.waits
    have goes := waiting fewer earlier first.present
    rw [first.ends] at goes
    cases goes

/-- Lines are read as one input exactly if they are whole. What comes behind them does not matter:
two groups in front of the same lines, each of them whole, are the same group. -/
theorem readAsOne_iff {lines : List Text} : ReadAsOne lines ↔ Whole lines := by
  constructor
  · intro asOne
    have read := asOne default [] rfl
    rw [List.append_nil] at read
    rcases @readInput_fresh default rfl lines with
      ⟨_, unfinished⟩ | ⟨group, rest, rfl, whole, finished⟩
    · have same := unfinished.symm.trans read
      exact absurd (congrArg (·.2.isSome) same) (by simp)
    · have nothing : rest = [] := by
        simpa using congrArg (·.2.map (·.2)) (finished.symm.trans read)
      rw [nothing, List.append_nil]
      exact whole
  · intro whole start rest fresh
    rcases readInput_fresh fresh (lines ++ rest) with
      ⟨waiting, _⟩ | ⟨group, after, parts, other, read⟩
    · have goes := waiting lines (List.prefix_append lines rest) whole.present
      rw [whole.ends] at goes
      cases goes
    · have same : group = lines := by
        have one : group <+: lines ++ rest := parts ▸ List.prefix_append group after
        rcases List.prefix_or_prefix_of_prefix one (List.prefix_append lines rest) with
          shorter | longer
        · exact other.eq_of_front whole shorter
        · exact (whole.eq_of_front other longer).symm
      subst same
      obtain rfl := List.append_cancel_left parts
      exact read

/-! ## Groups of lines -/

/-- The lines that are read fall into groups, each of them an input; what is left is waited for.
Induction is on the lines, and carries along those that are waited behind so far. -/
theorem exists_groups {before : List Text} (waiting : Waiting before) (lines : List Text) :
    ∃ (groups : List (List Text)) (left : List Text), before ++ lines = groups.flatten ++ left ∧
      inputs (joined before) lines = groups.map joined ∧ (∀ group ∈ groups, Whole group) ∧
      Waiting left := by
  induction lines generalizing before with
  | nil => exact ⟨[], before, by simp, rfl, by simp, waiting⟩
  | cons line rest inductionHypothesis =>
    rw [inputs, joinLine_joined waiting, List.append_cons]
    by_cases goes : goesOn (joined (before ++ [line])) = true
    · rw [if_pos goes]
      exact inductionHypothesis (waiting_concat waiting goes)
    · rw [if_neg goes]
      obtain ⟨groups, left, parts, read, whole, waits⟩ := inductionHypothesis waiting_nil
      rw [List.nil_append] at parts
      refine ⟨(before ++ [line]) :: groups, left, ?_, ?_, ?_, waits⟩
      · rw [parts, List.flatten_cons, List.append_assoc _ groups.flatten]
      · rw [List.map_cons, ← read]
        rfl
      · have first := whole_concat waiting (Bool.not_eq_true _ ▸ goes)
        exact List.forall_mem_cons.mpr ⟨first, whole⟩

/-- Only a command may be incomplete and be an input all the same. It is not read as a term, so that
an open bracket in it is not waited for. -/
theorem Whole.isCommand_of_incomplete {lines : List Text} (whole : Whole lines)
    (incomplete : Incomplete (readList (joined lines).chars)) :
    isCommand (joined lines) = true := by
  obtain ⟨error, failed, unclosed⟩ := incomplete
  simpa [goesOn, isIncomplete, failed, unclosed] using whole.ends

/-! ## Lists that span lines -/

/-- The text in front of each line break is outside of strings. -/
def BreaksOutside (lines : List Text) : Prop :=
  ∀ front, front <+: lines.dropLast → Unquoted (joined front).chars

/-- Counting the quotes in front of each line break decides whether all of them are outside. -/
instance (lines : List Text) : Decidable (BreaksOutside lines) :=
  decidable_of_iff
    (∀ front ∈ lines.dropLast.inits, (joined front).chars.count '"' % 2 = 0)
    (by simp [BreaksOutside, Unquoted])

/-- Each line stands in the text that the lines make up. -/
theorem infix_joined {line : Text} {lines : List Text} (member : line ∈ lines) :
    line <:+: joined lines := by
  induction member with
  | head rest =>
    cases rest with
    | nil => rw [joined_singleton]
    | cons next others => exact ⟨[], .scalar '\n' :: joined (next :: others), by simp [joined]⟩
  | @tail first rest member inductionHypothesis =>
    have present : rest ≠ [] := List.ne_nil_of_mem member
    rw [joined, List.intercalate_cons_of_ne_nil present]
    exact inductionHypothesis.trans (List.suffix_append _ _).isInfix

/-- Lines of which one is not blank make up a text that is not blank. -/
theorem not_blank_joined {line : Text} {lines : List Text} (member : line ∈ lines)
    (visible : ¬ Blank line.chars) : ¬ Blank (joined lines).chars := by
  intro blank
  have within : line.chars <:+: (joined lines).chars := (infix_joined member).map Glyph.char
  exact visible (blank.of_infix within)

/-- What begins with a bracket is no command: commands begin with another character, blanks aside.
-/
theorem not_isCommand_of_opening {input : Text} {before more : List Char} (leads : Blank before)
    (parts : input.chars = before ++ '(' :: more) : isCommand input = false := by
  have blanks : ∀ c ∈ before, Text.isBlank c = true :=
    fun c member => Text.isBlank_of_divider (leads c member)
  have head := Text.head?_trimBlank blanks (show Text.isBlank '(' = false by decide) more
  simp [isCommand, parts, head]

/-- The check of the prompt is the one on what was read: a bracket that is not closed, and no other
error. -/
theorem isIncomplete_iff {input : Text} :
    isIncomplete input = true ↔ Incomplete (readList input.chars) := by
  rw [isIncomplete]
  split
  · rename_i term read
    simp [Incomplete, read]
  · rename_i error failed
    simp [Incomplete, failed]

/-- Of a list, a front that has begun it and not ended it is waited for exactly if it does not end
in a string. In a string the quote is not closed, and what is read is an invalid symbol. -/
theorem goesOn_front_iff {front rest : List Text} {items : List Term}
    (present : front ≠ []) (unfinished : rest ≠ [])
    (read : readList (joined (front ++ rest)).chars = .ok (.list [.list items]))
    (begun : ¬ Blank (joined front).chars) (unended : ¬ Blank (joined rest).chars) :
    goesOn (joined front) = true ↔ Unquoted (joined front).chars := by
  have parts : (joined (front ++ rest)).chars =
      (joined front).chars ++ '\n' :: (joined rest).chars := by
    rw [joined_append present unfinished, Text.chars_append]
    rfl
  have hanging : ¬ Blank ('\n' :: (joined rest).chars) :=
    fun blank => unended (List.forall_mem_cons.mp blank).2
  rw [parts] at read
  have noCommand : isCommand (joined front) = false := by
    obtain ⟨before, inside, after, sole⟩ := exists_soleList read
    obtain ⟨more, opening, _⟩ := sole.exists_begun begun hanging
    exact not_isCommand_of_opening sole.leads opening
  rw [goesOn, noCommand, Bool.not_false, Bool.true_and, isIncomplete_iff]
  exact incomplete_front_iff read begun hanging

/-- A list that spans lines is whole exactly if no line break stands in a string. The first and the
last line have to show something: behind blank lines a list has not begun, and in front of them it
has ended. -/
theorem whole_iff {lines : List Text} {items : List Term}
    (read : readList (joined lines).chars = .ok (.list [.list items]))
    (begun : ∀ line ∈ lines.head?, ¬ Blank line.chars)
    (ended : ∀ line ∈ lines.getLast?, ¬ Blank line.chars) :
    Whole lines ↔ BreaksOutside lines := by
  have present : lines ≠ [] := by
    rintro rfl
    cases read
  obtain ⟨init, last, rfl⟩ := (List.eq_nil_or_concat' lines).resolve_left present
  have ends : goesOn (joined (init ++ [last])) = false := by
    simp [goesOn, isIncomplete, read]
  have decides {front : List Text} (leads : front <+: init) (nonempty : front ≠ []) :
      goesOn (joined front) = true ↔ Unquoted (joined front).chars := by
    obtain ⟨more, rfl⟩ := leads
    rw [List.append_assoc] at read
    refine goesOn_front_iff nonempty (by simp) read ?_ ?_
    · obtain ⟨first, others, rfl⟩ := List.exists_cons_of_ne_nil nonempty
      exact not_blank_joined List.mem_cons_self (begun first rfl)
    · exact not_blank_joined (by simp) (ended last (by simp))
  constructor
  · intro whole front leads
    rw [List.dropLast_concat] at leads
    by_cases first : front = []
    · rw [first]
      rfl
    · have waiting : Waiting init := by simpa using whole.waits
      exact (decides leads first).mp (waiting front leads first)
  · intro outside
    refine whole_concat ?_ ends
    intro front leads nonempty
    exact (decides leads nonempty).mpr (outside front (by simpa using leads))

/-- The prompt reads a list that spans lines as one input exactly if no line break stands in a
string: it asks for more behind each line but the last. Whatever lines it is given, they fall into
groups, in order, each of them an input that is incomplete only if it is a command, up to the lines
that it waits behind when the lines end. -/
theorem inputs_span_lines :
    (∀ (lines : List Text) (items : List Term),
      readList (joined lines).chars = .ok (.list [.list items]) →
      (∀ line ∈ lines.head?, ¬ Blank line.chars) →
      (∀ line ∈ lines.getLast?, ¬ Blank line.chars) →
        (ReadAsOne lines ↔ BreaksOutside lines)) ∧
    ∀ lines : List Text, ∃ (groups : List (List Text)) (left : List Text),
      lines = groups.flatten ++ left ∧ inputs [] lines = groups.map joined ∧
      (∀ group ∈ groups, group ≠ [] ∧
        (Incomplete (readList (joined group).chars) → isCommand (joined group) = true)) ∧
      Waiting left := by
  constructor
  · intro lines items read begun ended
    rw [readAsOne_iff]
    exact whole_iff read begun ended
  · intro lines
    obtain ⟨groups, left, parts, read, whole, waits⟩ := exists_groups waiting_nil lines
    refine ⟨groups, left, parts, read, ?_, waits⟩
    intro group member
    exact ⟨(whole group member).present, (whole group member).isCommand_of_incomplete⟩

/-- A list over three lines. The bracket in the string does not count, and the two line breaks stand
outside of it. -/
theorem list_over_lines_is_one_input :
    let lines := ["(a", " \"(\"", "b)"].map Text.ofString
    BreaksOutside lines ∧ ReadAsOne lines := by
  intro lines
  have read : readList (joined lines).chars =
      .ok (.list [.list [.str "a", .str "(", .str "b"]]) := rfl
  have outside : BreaksOutside lines := by decide
  exact ⟨outside, (inputs_span_lines.1 lines _ read (by decide) (by decide)).mpr outside⟩

/-- A list with a string over two lines is no single input: neither line is waited behind. -/
theorem string_over_lines_is_two_inputs :
    let lines := ["(\"x", "y\")"].map Text.ofString
    readList (joined lines).chars = .ok (.list [.list [.str "x\ny"]]) ∧
      (∀ line ∈ lines.head?, ¬ Blank line.chars) ∧
      (∀ line ∈ lines.getLast?, ¬ Blank line.chars) ∧
      inputs [] lines = lines ∧ ¬ ReadAsOne lines := by
  intro lines
  refine ⟨rfl, by decide, by decide, rfl, ?_⟩
  intro asOne
  have waits := (readAsOne_iff.mp asOne).waits [Text.ofString "(\"x"] List.prefix_rfl (by simp)
  cases waits

end Console.Prompt

end TermLang
