import TermLang.Proofs.Reduction.Run

/-!
# The value on its way out

A return is applied in one frame and ends the lists of many. On its way it is copied from scope to
scope: a list leaves it to its caller, a query takes it out of the inner scope of its frame and puts
it into the outer one. Here it is shown that no value is lost or made up on the way. After every
reduction the value on its way out is that of the last return among the acts of the reduction, or
the one from before if no return was applied.

For a query this says all that it does to the outer scope of its frame: a return that was applied in
the inner scope is raised there, and the facts, the rules and the bindings stay. The inner scope
must start without a value on its way out, as it does in every frame; one that waits there would be
raised although nothing was applied.
-/

namespace TermLang

/-- The value of the last return among some acts, which are given the latest first. -/
def lastReturned? (acts : List Act) : Option Term :=
  acts.findSome? fun
    | .returned value => some value
    | _ => none

/-- The latest acts come first, so a return among them is the last one, and the earlier ones decide
only if there is none. -/
theorem lastReturned?_append (late early : List Act) :
    lastReturned? (late ++ early) = (lastReturned? late).or (lastReturned? early) :=
  List.findSome?_append

/-- There is a last return exactly if there is a return. -/
theorem isSome_lastReturned?_iff {acts : List Act} :
    (lastReturned? acts).isSome ↔ ∃ value, .returned value ∈ acts := by
  rw [lastReturned?, List.findSome?_isSome_iff]
  constructor
  · rintro ⟨act, member, returns⟩
    cases act with
    | returned value => exact ⟨value, member⟩
    | _ => cases returns
  · rintro ⟨value, member⟩
    exact ⟨.returned value, member, rfl⟩

/-- Acts were added, and the value on its way out is that of the last return among them, or the one
from before if they hold none. -/
def Sends (scope : Scope) (journal : Journal) (scope' : Scope) (journal' : Journal) : Prop :=
  ∃ added, journal'.acts = added ++ journal.acts ∧
    scope'.leaving = (lastReturned? added).or scope.leaving

namespace Sends

variable {scope scope' scope'' : Scope} {journal journal' journal'' : Journal}

/-- Steps without an act send nothing, and the value on its way out stays. -/
theorem idle (acts : journal'.acts = journal.acts) (leaving : scope'.leaving = scope.leaving) :
    Sends scope journal scope' journal' :=
  ⟨[], acts, leaving⟩

/-- A step with one act sends its value if it is a return, and nothing otherwise. -/
theorem act {act : Act} (acts : journal'.acts = act :: journal.acts)
    (leaving : scope'.leaving = (lastReturned? [act]).or scope.leaving) :
    Sends scope journal scope' journal' :=
  ⟨[act], acts, leaving⟩

/-- Of two steps one after the other the later return counts, and if the later step has none, that
of the earlier one. -/
theorem trans (first : Sends scope journal scope' journal')
    (second : Sends scope' journal' scope'' journal'') : Sends scope journal scope'' journal'' := by
  obtain ⟨early, earlyActs, earlyLeaving⟩ := first
  obtain ⟨late, lateActs, lateLeaving⟩ := second
  refine ⟨late ++ early, ?_, ?_⟩
  · rw [lateActs, earlyActs, List.append_assoc]
  · rw [lateLeaving, earlyLeaving, lastReturned?_append, Option.or_assoc]

/-- Noting an event is no act, so nothing is sent by it. -/
theorem note (scope : Scope) (journal : Journal) (setting : Setting) (event : Event) :
    Sends scope journal scope (journal.note setting event) :=
  .idle (journal.note_acts setting event) rfl

end Sends

/-- The value on its way out is that of the last return after every reduction by an evaluator. -/
def Evaluator.Sends (below : Evaluator) : Prop :=
  ∀ term scope journal, TermLang.Sends scope journal (below term scope journal).scope
    (below term scope journal).journal

/-! ## Queries -/

/-- Of two values that are raised the later one counts, as with returns, so what a query raises can
be put together from its parts. -/
theorem Scope.raise_raise (scope : Scope) (early late : Option Term) :
    (scope.raise early).raise late = scope.raise (late.or early) := by
  simp only [raise_eq, Option.or_assoc]

/-- Acts were added in a frame, and all that its outer scope shows of them is a value that was
raised. If no value was on its way out of the inner scope before, none is now, and the raised value
is that of the last return among the acts. -/
def Aside (frame : Frame) (journal : Journal) (frame' : Frame) (journal' : Journal) : Prop :=
  ∃ added raised, journal'.acts = added ++ journal.acts ∧
    frame'.outer = frame.outer.raise raised ∧
    (frame.inner.leaving = none → raised = lastReturned? added ∧ frame'.inner.leaving = none)

namespace Aside

variable {frame frame' frame'' : Frame} {journal journal' journal'' : Journal}

/-- Steps without an act that leave the frame alone raise nothing. -/
theorem idle (frame : Frame) (acts : journal'.acts = journal.acts) :
    Aside frame journal frame journal' :=
  ⟨[], none, acts, rfl, fun calm => ⟨rfl, calm⟩⟩

/-- Of two parts of a query the later raises over the earlier. The inner scope is calm again between
them, so that the second part raises only what it has sent itself. -/
theorem trans (first : Aside frame journal frame' journal')
    (second : Aside frame' journal' frame'' journal'') : Aside frame journal frame'' journal'' := by
  obtain ⟨early, earlyRaised, earlyActs, earlyOuter, earlyCalm⟩ := first
  obtain ⟨late, lateRaised, lateActs, lateOuter, lateCalm⟩ := second
  refine ⟨late ++ early, lateRaised.or earlyRaised, ?_, ?_, ?_⟩
  · rw [lateActs, earlyActs, List.append_assoc]
  · rw [lateOuter, earlyOuter, Scope.raise_raise]
  · intro calm
    obtain ⟨isEarly, stillCalm⟩ := earlyCalm calm
    obtain ⟨isLate, calmAgain⟩ := lateCalm stillCalm
    refine ⟨?_, calmAgain⟩
    rw [isEarly, isLate, lastReturned?_append]

/-- Beside an inner scope that sends nothing, the outer scope sends the value of the last return,
although that return was applied in the inner one. -/
theorem sends (aside : Aside frame journal frame' journal') (calm : frame.inner.leaving = none) :
    Sends frame.outer journal frame'.outer journal' := by
  obtain ⟨added, raised, acts, outer, isRaised⟩ := aside
  refine ⟨added, acts, ?_⟩
  rw [outer, Scope.raise_eq, (isRaised calm).1]

end Aside

open Reduction

section

variable {α : Type} {setting : Setting} {below : Evaluator} {watch : Watch α} {seen : List α}
  {failed : Option Fault} {journal journal' : Journal}

/-- Whatever a query asks, all that the outer scope shows of it is a value that was raised: the
inner scope has sent the value of the last return, and it is raised there. -/
theorem Asking.raises (sends : below.Sends) {frame frame' : Frame}
    (asking : Asking below watch frame journal seen failed frame' journal') :
    Aside frame journal frame' journal' := by
  induction asking with
  | noted frame journal trace => exact .idle frame rfl
  | aside term frame journal =>
    obtain ⟨added, acts, leaving⟩ := sends term frame.inner journal
    refine ⟨added, _, acts, rfl, ?_⟩
    intro calm
    rw [leaving, calm, Option.or_none]
    exact ⟨rfl, rfl⟩
  | trans first second before after => exact before.trans after

/-- Along the course of a level the value on its way out is that of the last return, if it is so for
the evaluator below. Every other act leaves the value alone, and a query sends what it raises, since
its inner scope starts calm. -/
theorem Course.sends (sends : below.Sends) {scope scope' : Scope}
    (course : Course setting below watch scope journal seen failed scope' journal') :
    Sends scope journal scope' journal' := by
  induction course with
  | quiet scope journal trace sought => exact .idle rfl rfl
  | fails scope arises => exact .idle rfl rfl
  | apply nothing scope journal => exact .idle rfl rfl
  | declare declares scope journal => exact .act rfl rfl
  | define defines scope journal => exact .act rfl rfl
  | print scope journal line => exact .act rfl rfl
  | bind scope journal name term => exact .act rfl rfl
  | leave scope journal value => exact .act rfl rfl
  | call term scope journal => exact sends term scope journal
  | ask calm asking => exact (asking.raises sends).sends calm
  | @load path content program scope journal found isContent =>
    have started : Sends scope journal scope ((journal.record (.loaded path)).enter path) :=
      .act rfl rfl
    have ran := sends program scope ((journal.record (.loaded path)).enter path)
    exact started.trans (ran.trans (.idle rfl rfl))
  | trans first second before after => exact before.trans after

end

/-- After every reduction the value on its way out is that of the last return, or the one from
before. The induction is on the depth that is left. -/
theorem reduce_sends (setting : Setting) (left : Nat) : Evaluator.Sends (reduce setting left) := by
  induction left with
  | zero =>
    intro term scope journal
    cases term with
    | _ => exact .idle rfl rfl
  | succ left inductionHypothesis =>
    intro term scope journal
    cases term with
    | list items =>
      rw [reduce_list]
      have course := reduceFrame_course setting .blind (reduce setting left) items scope
        (journal.note setting (.reduce (.list items) (setting.maxDepth - left)))
      exact (Sends.note _ _ _ _).trans (course.sends inductionHypothesis)
    | _ => exact .idle rfl rfl

namespace Reduction

/-- A query adds acts to the journal, whatever becomes of it, and changes the outer scope of its
frame in one way only: a value is raised there. If no value was on its way out of the inner scope
before, none is afterwards, and the raised value is that of the last return among the acts of the
query; so one is raised exactly if a return was applied. -/
theorem query_only_raises (setting : Setting) (left : Nat) (term : Term) (frame : Frame)
    (journal : Journal) :
    let reply := query setting (reduce setting left) term frame journal
    ∃ added raised, reply.journal.acts = added ++ journal.acts ∧
      reply.scope.outer = { frame.outer with leaving := raised.or frame.outer.leaving } ∧
      (frame.inner.leaving = none →
        reply.scope.inner.leaving = none ∧ raised = lastReturned? added ∧
          (raised.isSome ↔ ∃ value, .returned value ∈ added)) := by
  have asking := query_asking setting .blind (reduce setting left) term frame journal
  obtain ⟨added, raised, acts, outer, isRaised⟩ := asking.raises (reduce_sends setting left)
  refine ⟨added, raised, acts, ?_, ?_⟩
  · rw [outer, Scope.raise_eq]
  · intro calm
    obtain ⟨isLast, stillCalm⟩ := isRaised calm
    rw [isLast]
    exact ⟨stillCalm, rfl, isSome_lastReturned?_iff⟩

/-- A query that declares, binds, returns and then fails: of all that, the outer scope gets the
value of the return. -/
theorem failing_query_only_raises : ∃ reply : Reply Frame,
    reply = query default (reduce default 3) (.list [.list [.keyword ".dec", .str "a"],
      .list [.keyword ".is", .var "X", .str "new"], .list [.keyword ".return", .str "b"],
      .list [.keyword ".head", .str "c"]])
      ⟨⟨[.str "known"], [], [("X", .str "old")], none⟩, .empty⟩ .empty ∧
    reply.outcome.isOk = false ∧ reply.scope.inner.facts = [.str "a"] ∧
    reply.scope.inner.leaving = none ∧
    reply.scope.outer = ⟨[.str "known"], [], [("X", .str "old")], some (.str "b")⟩ := by
  obtain ⟨added, raised, acts, outer, isRaised⟩ := query_only_raises default 3
    (.list [.list [.keyword ".dec", .str "a"],
      .list [.keyword ".is", .var "X", .str "new"], .list [.keyword ".return", .str "b"],
      .list [.keyword ".head", .str "c"]])
    ⟨⟨[.str "known"], [], [("X", .str "old")], none⟩, .empty⟩ .empty
  obtain ⟨calm, isLast, _⟩ := isRaised rfl
  have isAdded : [.returned (.str "b"), .bound "X" (.str "new"), .declared (.str "a")] = added :=
    acts.trans (List.append_nil added)
  refine ⟨_, rfl, rfl, rfl, calm, outer.trans ?_⟩
  rw [isLast, ← isAdded]
  rfl

end Reduction

end TermLang
