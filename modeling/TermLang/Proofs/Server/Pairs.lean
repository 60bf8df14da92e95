import TermLang.Proofs.Reader.Nesting
import TermLang.Proofs.Server.Tokens

/-!
# How brackets pair up

Every text has pairs of brackets, whether or not its brackets are balanced. Two brackets are
partners if the brackets between them are balanced; the outline finds exactly the partners, in the
order in which they open. Pairs never cross. The depth of a pair is the number of brackets that
are open where it starts, those included that are never closed.

The scan looks for the closing bracket of each opening one separately, with a counter for those in
between. Partners are defined without it, by how far brackets rise and fall.
-/

namespace TermLang.Server

/-! ## Partners -/

/-- How a mark changes the number of open brackets. -/
def Mark.change : Mark → Int
  | .opening _ => 1
  | .closing _ => -1
  | .token _ => 0

/-- How many more brackets marks open than they close. -/
def rise (marks : List Mark) : Int := (marks.map Mark.change).sum

/-- Every bracket is closed, and none is closed that is not open. -/
structure Balanced (marks : List Mark) : Prop where
  rise_eq : rise marks = 0
  neverNegative : ∀ front, front <+: marks → 0 ≤ rise front

/-- Two brackets with balanced brackets between them. -/
def Partners (marks : List Mark) (start last : Nat) : Prop :=
  ∃ front inside behind,
    marks = front ++ .opening start :: (inside ++ .closing last :: behind) ∧ Balanced inside

/-- An opening bracket that has no partner. -/
def Unpaired (marks : List Mark) (start : Nat) : Prop :=
  .opening start ∈ marks ∧ ∀ last, ¬ Partners marks start last

/-- How pairs lie among the brackets of a text: they are the partners, in order, and do not cross.
Their depth is the number of brackets in front of them that have no partner there. -/
structure Paired (brackets : List Mark) (spans : List Span) : Prop where
  partners : ∀ span ∈ spans, ∃ last, span.stop = last + 1 ∧ Partners brackets span.start last
  found : ∀ start last, Partners brackets start last →
    ∃ span ∈ spans, span.start = start ∧ span.stop = last + 1
  ordered : spans.Pairwise fun earlier later => earlier.start < later.start
  uncrossed : spans.Pairwise fun earlier later =>
    earlier.stop ≤ later.start ∨ later.stop < earlier.stop
  depth : ∀ span ∈ spans, ∀ front behind, brackets = front ++ .opening span.start :: behind →
    ∃ stillOpen : List Nat, stillOpen.Pairwise (· < ·) ∧
      (∀ start, start ∈ stillOpen ↔ Unpaired front start) ∧ span.depth = stillOpen.length

/-! ## The closing bracket -/

/-- Marks that close `inner` brackets more than they open, and at no place more than that. -/
structure Closes (inner : Nat) (marks : List Mark) : Prop where
  rise_eq : rise marks = -inner
  least : ∀ front, front <+: marks → -(inner : Int) ≤ rise front

/-- To close none more than are opened, and at no place more, is to be balanced. -/
theorem closes_zero_iff {marks : List Mark} : Closes 0 marks ↔ Balanced marks := by
  constructor
  · rintro ⟨rise_eq, least⟩
    exact ⟨by simpa using rise_eq, by simpa using least⟩
  · rintro ⟨rise_eq, neverNegative⟩
    exact ⟨by simpa using rise_eq, by simpa using neverNegative⟩

/-- What holds of all beginnings holds of none and of those with the first mark. It turns a
condition on beginnings into a step of an induction over marks. -/
theorem forall_prefix_cons_iff {mark : Mark} {rest : List Mark} {holds : List Mark → Prop} :
    (∀ front, front <+: mark :: rest → holds front) ↔
      holds [] ∧ ∀ front, front <+: rest → holds (mark :: front) := by
  constructor
  · intro all
    refine ⟨all [] List.nil_prefix, ?_⟩
    intro front leads
    exact all _ (List.prefix_cons_inj mark |>.mpr leads)
  · rintro ⟨none, some⟩ front leads
    rcases List.prefix_cons_iff.mp leads with rfl | ⟨more, rfl, further⟩
    · exact none
    · exact some more further

/-- The first mark changes the number of open brackets, and the others go on from there. -/
theorem rise_cons (mark : Mark) (rest : List Mark) :
    rise (mark :: rest) = mark.change + rise rest := by
  simp [rise]

/-- Marks one behind the other rise by what both rise, so a beginning that is taken away can be
subtracted. -/
theorem rise_append (before after : List Mark) :
    rise (before ++ after) = rise before + rise after := by
  simp [rise]

namespace Closes

variable {inner later offset : Nat} {mark : Mark} {rest : List Mark}

/-- No marks close no brackets, and only none. -/
theorem nil_iff : Closes inner [] ↔ inner = 0 := by
  constructor
  · rintro ⟨rise_eq, _⟩
    have : rise [] = 0 := rfl
    omega
  · rintro rfl
    refine ⟨rfl, ?_⟩
    intro front leads
    rw [List.prefix_nil.mp leads]
    exact Int.le_refl 0

/-- A mark changes how many brackets the rest has to close. The number is natural on both sides, so
for a closing bracket it has to be positive before; the hypothesis asks for that. -/
theorem cons_iff (changed : (later : Int) = inner + mark.change) :
    Closes inner (mark :: rest) ↔ Closes later rest := by
  have start : -(inner : Int) ≤ rise [] := Int.neg_nonpos_of_nonneg (Int.natCast_nonneg inner)
  constructor
  · rintro ⟨rise_eq, least⟩
    rw [forall_prefix_cons_iff] at least
    simp only [rise_cons] at rise_eq least
    refine ⟨by omega, ?_⟩
    intro front leads
    have := least.2 front leads
    omega
  · rintro ⟨rise_eq, least⟩
    refine ⟨by rw [rise_cons]; omega, forall_prefix_cons_iff.mpr ⟨start, ?_⟩⟩
    intro front leads
    have := least front leads
    rw [rise_cons]
    omega

/-- A bracket that is not open cannot be closed: the beginning of that one mark alone would fall
below zero. -/
theorem not_closing : ¬ Closes 0 (.closing offset :: rest) := by
  rintro ⟨_, least⟩
  have there := least [.closing offset] ⟨rest, rfl⟩
  simp [rise, Mark.change] at there

end Closes

/-- A mark of a list is its first one, or it stands in the rest. The statements below split marks
around a bracket, and this is the step of their inductions. -/
theorem exists_parts_cons_iff {first mark : Mark} {rest : List Mark}
    {holds : List Mark → List Mark → Prop} :
    (∃ front behind, first :: rest = front ++ mark :: behind ∧ holds front behind) ↔
      first = mark ∧ holds [] rest ∨
        ∃ front behind, rest = front ++ mark :: behind ∧ holds (first :: front) behind := by
  constructor
  · rintro ⟨front, behind, parts, here⟩
    cases front with
    | nil =>
      obtain ⟨rfl, rfl⟩ := List.cons.inj parts
      exact .inl ⟨rfl, here⟩
    | cons other front =>
      obtain ⟨rfl, rfl⟩ := List.cons.inj parts
      exact .inr ⟨front, behind, rfl, here⟩
  · rintro (⟨rfl, here⟩ | ⟨front, behind, rfl, here⟩)
    · exact ⟨[], rest, rfl, here⟩
    · exact ⟨first :: front, behind, rfl, here⟩

namespace Span

/-- The counter finds the bracket in front of which `inner` brackets are closed, and it is the first
one of that kind, since no beginning closes more.

Proof: by induction on the marks. Each mark moves the counter as it moves the number of brackets
still to be closed, and a closing bracket at zero is the one that is found. -/
theorem closing?_eq_some_iff {inner last : Nat} {marks : List Mark} :
    closing? inner marks = some last ↔
      ∃ inside behind, marks = inside ++ .closing last :: behind ∧ Closes inner inside := by
  induction marks generalizing inner with
  | nil => simp [closing?]
  | cons mark rest inductionHypothesis =>
    rw [@exists_parts_cons_iff _ _ _ fun inside _ => Closes inner inside]
    cases mark with
    | opening offset =>
      have step {inside : List Mark} : Closes inner (.opening offset :: inside) ↔
          Closes (inner + 1) inside := Closes.cons_iff rfl
      simp [closing?, inductionHypothesis, step]
    | token found =>
      have step {inside : List Mark} : Closes inner (.token found :: inside) ↔
          Closes inner inside := Closes.cons_iff (Int.add_zero _).symm
      simp [closing?, inductionHypothesis, step]
    | closing offset =>
      cases inner with
      | zero => simp [closing?, Closes.nil_iff, Closes.not_closing]
      | succ inner =>
        have step {inside : List Mark} : Closes (inner + 1) (.closing offset :: inside) ↔
            Closes inner inside := Closes.cons_iff (by simp [Mark.change])
        simp [closing?, inductionHypothesis, step, Closes.nil_iff]

/-- Partners, by the scan: behind the opening bracket the counter finds the closing one. The split
of the marks that the definition speaks of is the one around what is found. -/
theorem partners_iff {marks : List Mark} {start last : Nat} :
    Partners marks start last ↔
      ∃ front behind,
        marks = front ++ .opening start :: behind ∧ closing? 0 behind = some last := by
  simp only [closing?_eq_some_iff, closes_zero_iff]
  constructor
  · rintro ⟨front, inside, behind, parts, balanced⟩
    exact ⟨front, _, parts, inside, behind, rfl, balanced⟩
  · rintro ⟨front, _, parts, inside, behind, rfl, balanced⟩
    exact ⟨front, inside, behind, parts, balanced⟩

/-- How many brackets are open behind some marks, `depth` being open in front of them. -/
def openBehind : (depth : Nat) → List Mark → Nat
  | depth, [] => depth
  | depth, .opening _ :: rest => openBehind (depth + 1) rest
  | depth, .closing _ :: rest => openBehind (depth - 1) rest
  | depth, .token _ :: rest => openBehind depth rest

/-- The pairs are those of opening brackets for which a closing one is found, with the depth at
which they open and the token that follows them at once. Opening brackets without a partner make no
pair, but they count for the depth of those behind them. -/
theorem mem_ofMarks_iff {depth : Nat} {marks : List Mark} {span : Span} :
    span ∈ ofMarks depth marks ↔
      ∃ front behind, marks = front ++ .opening span.start :: behind ∧
        ∃ last, closing? 0 behind = some last ∧
          span = ⟨span.start, last + 1, openBehind depth front, behind.head?.bind Mark.token?⟩ := by
  induction marks generalizing depth with
  | nil => simp [ofMarks]
  | cons mark rest inductionHypothesis =>
    rw [@exists_parts_cons_iff _ _ _ fun front behind => ∃ last, closing? 0 behind = some last ∧
      span = ⟨span.start, last + 1, openBehind depth front, behind.head?.bind Mark.token?⟩]
    cases mark with
    | closing offset => simp [ofMarks, openBehind, inductionHypothesis]
    | token found => simp [ofMarks, openBehind, inductionHypothesis]
    | opening offset =>
      simp only [ofMarks, openBehind]
      cases closed : closing? 0 rest with
      | none => simp [inductionHypothesis]
      | some last =>
        simp only [List.mem_cons, inductionHypothesis, Option.some.injEq]
        refine or_congr ?_ Iff.rfl
        constructor
        · rintro rfl
          exact ⟨rfl, last, rfl, rfl⟩
        · rintro ⟨same, _, rfl, isSpan⟩
          rw [Mark.opening.inj same]
          exact isSpan

end Span

/-! ## Pairs do not cross -/

/-- Marks stand one behind the other. -/
def Ordered (marks : List Mark) : Prop :=
  marks.Pairwise fun earlier later => earlier.stop ≤ later.start

namespace Ordered

variable {marks front between behind : List Mark} {earlier later : Mark}

/-- The order of two marks, wherever they stand among the others: the earlier one ends before the
later one starts. -/
theorem stop_le (ordered : Ordered (front ++ earlier :: (between ++ later :: behind))) :
    earlier.stop ≤ later.start := by
  have inOrder := (List.pairwise_append.mp ordered).2.1
  exact (List.pairwise_cons.mp inOrder).1 later (by simp)

/-- A bracket stands at one place only, because marks behind one another have different offsets. So
the marks can be split around it in one way. -/
theorem parts_eq {start : Nat} {before after : List Mark}
    (ordered : Ordered (front ++ .opening start :: behind))
    (same : front ++ .opening start :: behind = before ++ .opening start :: after) :
    front = before ∧ behind = after := by
  rcases Grammar.parts_cases same with
    ⟨between, rfl, rfl⟩ | ⟨isFront, _, isBehind⟩ | ⟨between, rfl, rfl⟩
  · exact absurd ordered.stop_le (Nat.not_succ_le_self start)
  · exact ⟨isFront, isBehind⟩
  · rw [same] at ordered
    exact absurd ordered.stop_le (Nat.not_succ_le_self start)

end Ordered

/-- A pair that starts in a pair ends in it. Otherwise the brackets from its start to the end of the
outer pair would not fall, and the outer pair would not be balanced. -/
theorem apart_or_inside {marks front behind : List Mark} {start last innerLast : Nat}
    (ordered : Ordered marks) (outer : Span.closing? 0 marks = some last)
    (parts : marks = front ++ .opening start :: behind)
    (inner : Span.closing? 0 behind = some innerLast) : last + 1 ≤ start ∨ innerLast < last := by
  obtain ⟨inside, after, isMarks, closes⟩ := Span.closing?_eq_some_iff.mp outer
  obtain ⟨within, later, isBehind, closesInner⟩ := Span.closing?_eq_some_iff.mp inner
  have balanced := closes_zero_iff.mp closes
  have balancedInner := closes_zero_iff.mp closesInner
  rcases Grammar.parts_cases (isMarks.symm.trans parts) with
    ⟨between, rfl, _⟩ | ⟨_, same, _⟩ | ⟨between, rfl, rfl⟩
  · left
    rw [parts, List.append_assoc] at ordered
    exact ordered.stop_le
  · cases same
  · right
    have falls : rise between < 0 := by
      have total := balanced.rise_eq
      have begins := balanced.neverNegative front (List.prefix_append _ _)
      rw [rise_append, rise_cons, Mark.change] at total
      omega
    rcases Grammar.parts_cases isBehind with ⟨more, rfl, _⟩ | ⟨rfl, _, _⟩ | ⟨more, rfl, rfl⟩
    · have := balancedInner.neverNegative between (List.prefix_append _ _)
      omega
    · have := balancedInner.rise_eq
      omega
    · have placed : marks = (front ++ .opening start :: within) ++
          .closing innerLast :: (more ++ .closing last :: after) := by
        simp [isMarks]
      rw [placed] at ordered
      exact ordered.stop_le

/-- Pairs are in order and do not cross: of two pairs, the later one is behind the earlier or inside
it.

Proof: by induction on the marks. A pair that is found first is compared with all pairs of the rest,
each of which starts behind its opening bracket. -/
theorem Ordered.pairwise_ofMarks {marks : List Mark} (ordered : Ordered marks) (depth : Nat) :
    (Span.ofMarks depth marks).Pairwise fun earlier later => earlier.start < later.start ∧
      (earlier.stop ≤ later.start ∨ later.stop < earlier.stop) := by
  induction marks generalizing depth with
  | nil => exact .nil
  | cons mark rest inductionHypothesis =>
    obtain ⟨first, others⟩ := List.pairwise_cons.mp ordered
    cases mark with
    | closing offset => exact inductionHypothesis others (depth - 1)
    | token found => exact inductionHypothesis others depth
    | opening offset =>
      simp only [Span.ofMarks]
      cases closed : Span.closing? 0 rest with
      | none => exact inductionHypothesis others (depth + 1)
      | some last =>
        refine .cons ?_ (inductionHypothesis others (depth + 1))
        intro span member
        obtain ⟨front, behind, parts, innerLast, inner, isSpan⟩ := Span.mem_ofMarks_iff.mp member
        have behindFirst : offset + 1 ≤ span.start := first (.opening span.start) (by simp [parts])
        have stop : span.stop = innerLast + 1 := congrArg Span.stop isSpan
        have uncrossed := apart_or_inside others closed parts inner
        rw [stop]
        exact ⟨behindFirst, uncrossed.imp_right Nat.succ_lt_succ⟩

/-! ## Brackets that are still open -/

/-- The opening brackets for which no closing one is found. -/
def leftOpen : List Mark → List Nat
  | [] => []
  | .opening offset :: rest =>
    match Span.closing? 0 rest with
    | some _ => leftOpen rest
    | none => offset :: leftOpen rest
  | .closing _ :: rest | .token _ :: rest => leftOpen rest

/-- How many closing brackets have no opening one. -/
def excess : List Mark → Nat
  | [] => 0
  | .opening _ :: rest => excess rest - 1
  | .closing _ :: rest => excess rest + 1
  | .token _ :: rest => excess rest

/-- No closing bracket is found if too few are left. So whether one is found can be counted, which
the depth needs: it counts open brackets without looking for their partners. -/
theorem closing?_eq_none_iff {inner : Nat} {marks : List Mark} :
    Span.closing? inner marks = none ↔ excess marks ≤ inner := by
  induction marks generalizing inner with
  | nil => simp [Span.closing?, excess]
  | cons mark rest inductionHypothesis =>
    cases mark with
    | opening offset =>
      rw [Span.closing?, inductionHypothesis, excess]
      omega
    | token found => rw [Span.closing?, inductionHypothesis, excess]
    | closing offset =>
      cases inner with
      | zero => simp [Span.closing?, excess]
      | succ inner =>
        rw [Span.closing?, inductionHypothesis, excess]
        omega

/-- What is open behind marks was open in front of them and is not closed by them, or is opened by
them and not closed again. A closing bracket without an opening one takes away what was open in
front, as far as there is any. -/
theorem openBehind_eq (depth : Nat) (marks : List Mark) :
    Span.openBehind depth marks = depth - excess marks + (leftOpen marks).length := by
  induction marks generalizing depth with
  | nil => rfl
  | cons mark rest inductionHypothesis =>
    cases mark with
    | token found => exact inductionHypothesis depth
    | closing offset =>
      rw [Span.openBehind, inductionHypothesis, excess, leftOpen]
      omega
    | opening offset =>
      rw [Span.openBehind, inductionHypothesis, excess, leftOpen]
      cases closed : Span.closing? 0 rest with
      | none =>
        have := closing?_eq_none_iff.mp closed
        rw [List.length_cons]
        omega
      | some last =>
        have : ¬ excess rest ≤ 0 := by
          rw [← closing?_eq_none_iff, closed]
          exact nofun
        simp only
        omega

/-- A bracket is left open if no closing one is found behind it. -/
theorem mem_leftOpen_iff {start : Nat} {marks : List Mark} :
    start ∈ leftOpen marks ↔ ∃ front behind, marks = front ++ .opening start :: behind ∧
      Span.closing? 0 behind = none := by
  induction marks with
  | nil => simp [leftOpen]
  | cons mark rest inductionHypothesis =>
    rw [@exists_parts_cons_iff _ _ _ fun _ behind => Span.closing? 0 behind = none,
      ← inductionHypothesis]
    cases mark with
    | token found => simp [leftOpen]
    | closing offset => simp [leftOpen]
    | opening offset =>
      rw [leftOpen]
      cases closed : Span.closing? 0 rest with
      | none => simp [eq_comm]
      | some last => simp

namespace Ordered

variable {marks : List Mark}

/-- Open brackets are in order, since they are listed as they stand. So the list has none twice, and
its length is their number. -/
theorem pairwise_leftOpen (ordered : Ordered marks) : (leftOpen marks).Pairwise (· < ·) := by
  induction marks with
  | nil => exact .nil
  | cons mark rest inductionHypothesis =>
    obtain ⟨first, others⟩ := List.pairwise_cons.mp ordered
    cases mark with
    | token found => exact inductionHypothesis others
    | closing offset => exact inductionHypothesis others
    | opening offset =>
      rw [leftOpen]
      cases closed : Span.closing? 0 rest with
      | some last => exact inductionHypothesis others
      | none =>
        refine .cons ?_ (inductionHypothesis others)
        intro start member
        obtain ⟨front, behind, parts, _⟩ := mem_leftOpen_iff.mp member
        exact first (.opening start) (by simp [parts])

/-- Open brackets are those without a partner. A bracket stands at one place only, so a partner that
it has anywhere is the one that is looked for behind it. -/
theorem mem_leftOpen_iff_unpaired (ordered : Ordered marks) {start : Nat} :
    start ∈ leftOpen marks ↔ Unpaired marks start := by
  rw [mem_leftOpen_iff]
  constructor
  · rintro ⟨front, behind, rfl, unclosed⟩
    refine ⟨by simp, ?_⟩
    intro last partners
    obtain ⟨before, after, parts, closed⟩ := Span.partners_iff.mp partners
    obtain ⟨_, rfl⟩ := ordered.parts_eq parts
    rw [unclosed] at closed
    cases closed
  · rintro ⟨member, alone⟩
    obtain ⟨front, behind, parts⟩ := List.append_of_mem member
    refine ⟨front, behind, parts, ?_⟩
    cases closed : Span.closing? 0 behind with
    | none => rfl
    | some last => exact absurd (Span.partners_iff.mpr ⟨front, behind, parts, closed⟩) (alone last)

end Ordered

/-! ## Tokens do not matter -/

/-- The counter passes tokens over, so it finds among the brackets alone what it finds among all
marks. -/
theorem closing?_filter (inner : Nat) (marks : List Mark) :
    Span.closing? inner (marks.filter Mark.isBracket) = Span.closing? inner marks := by
  induction marks generalizing inner with
  | nil => rfl
  | cons mark rest inductionHypothesis =>
    cases mark with
    | opening offset => exact inductionHypothesis (inner + 1)
    | token found => exact (inductionHypothesis inner).trans (by rw [Span.closing?])
    | closing offset =>
      cases inner with
      | zero => rfl
      | succ inner => exact inductionHypothesis inner

/-- Tokens open and close nothing, so the depth can be counted among the brackets alone. -/
theorem openBehind_filter (depth : Nat) (marks : List Mark) :
    Span.openBehind depth (marks.filter Mark.isBracket) = Span.openBehind depth marks := by
  induction marks generalizing depth with
  | nil => rfl
  | cons mark rest inductionHypothesis =>
    cases mark with
    | opening offset => exact inductionHypothesis (depth + 1)
    | closing offset => exact inductionHypothesis (depth - 1)
    | token found => exact inductionHypothesis depth

/-- The brackets in front of a bracket and behind it are those of the marks in front of it and
behind it. -/
theorem filter_parts (front behind : List Mark) (start : Nat) :
    (front ++ .opening start :: behind).filter Mark.isBracket =
      front.filter Mark.isBracket ++ .opening start :: behind.filter Mark.isBracket := by
  rw [List.filter_append, List.filter_cons_of_pos rfl]

/-- The pairs among marks lie as pairs do among the brackets.

Proof: the scan goes over all marks while partners are defined for brackets alone. Neither the
search for a closing bracket nor the depth looks at tokens, so both can be moved from the one list
to the other. -/
theorem Ordered.paired {marks : List Mark} (ordered : Ordered marks) :
    Paired (marks.filter Mark.isBracket) (Span.ofMarks 0 marks) where
  partners := by
    intro span member
    obtain ⟨front, behind, rfl, last, closed, isSpan⟩ := Span.mem_ofMarks_iff.mp member
    refine ⟨last, congrArg Span.stop isSpan, Span.partners_iff.mpr ⟨_, _, filter_parts .., ?_⟩⟩
    rw [closing?_filter, closed]
  found := by
    intro start last partners
    obtain ⟨front, behind, parts, closed⟩ := Span.partners_iff.mp partners
    obtain ⟨before, others, rfl, rfl, isRest⟩ := List.filter_eq_append_iff.mp parts
    obtain ⟨passed, after, rfl, _, _, rfl⟩ := List.filter_eq_cons_iff.mp isRest
    rw [closing?_filter] at closed
    let span : Span :=
      ⟨start, last + 1, Span.openBehind 0 (before ++ passed), after.head?.bind Mark.token?⟩
    have member : span ∈ Span.ofMarks 0 (before ++ (passed ++ .opening start :: after)) :=
      Span.mem_ofMarks_iff.mpr ⟨before ++ passed, after, by simp [span], last, closed, rfl⟩
    exact ⟨span, member, rfl, rfl⟩
  ordered := (ordered.pairwise_ofMarks 0).imp And.left
  uncrossed := (ordered.pairwise_ofMarks 0).imp And.right
  depth := by
    intro span member front behind parts
    obtain ⟨before, after, isMarks, _, _, isSpan⟩ := Span.mem_ofMarks_iff.mp member
    have inOrder : Ordered (marks.filter Mark.isBracket) := ordered.filter _
    rw [isMarks, filter_parts] at parts inOrder
    obtain ⟨rfl, rfl⟩ := inOrder.parts_eq parts
    have begins : Ordered (before.filter Mark.isBracket) := (List.pairwise_append.mp inOrder).1
    refine ⟨leftOpen (before.filter Mark.isBracket), begins.pairwise_leftOpen, ?_, ?_⟩
    · intro start
      exact begins.mem_leftOpen_iff_unpaired
    · have depth : span.depth = Span.openBehind 0 before := congrArg Span.depth isSpan
      rw [depth, ← openBehind_filter, openBehind_eq, Nat.zero_sub, Nat.zero_add]

/-- Every text has an outline that lies in it as it should. Whatever the bytes are, the tokens stand
one behind the other with blanks and brackets between them, and the pairs are the partners among
these brackets, nested or apart, each as deep as brackets are open where it starts. -/
theorem outline_of_any_text (bytes : List UInt8) :
    let outline := Outline.ofText (Text.decode bytes)
    Tokenized bytes outline.tokens ∧ Paired (brackets outline.tokens bytes) outline.spans := by
  have split := split_ofText bytes
  have same : brackets (Outline.ofText (Text.decode bytes)).tokens bytes =
      (Mark.ofText (Text.decode bytes)).filter Mark.isBracket := split.bare.2
  refine ⟨split.tokenized, ?_⟩
  rw [same]
  exact Ordered.paired split.ordered

-- Of the brackets in `)((a)"b` only the last two are partners; the one in front of them is open.
example :
    (Outline.ofText (Text.ofString ")((a)\"b")).spans = [⟨2, 5, 1, some ⟨3, [.scalar 'a']⟩⟩] := by
  decide

end TermLang.Server
