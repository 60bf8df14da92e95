import TermLang.Proofs.Reduction.Run

/-!
# Stopping at a return

The reduction looks for a value on its way out before each item of a list, and after the list was
applied. It does not look between the last item and the application, nor between the parts of a
query. Here the same reduction is written with these looks added: `reduceStopping` does nothing more
once a value is on its way out.

The two are compared step by step. Until a value is sent out they are in the same state. From then
on the stopping reduction is over, and all that is said of the other one is that its acts account
for what it still does.

The functions are gone through here beside their stopping counterparts, because the two are
different programs: a course follows one level of one reduction, and `reduceFrame_alike` one level
with two evaluators below it. Where the two reductions part, the rest of the reduction is a run, and
what is needed of it is known of all runs.
-/

namespace TermLang

namespace Reduction

mutual

/-- Answers a query. A value on its way out ends it. -/
def queryStopping (setting : Setting) (below : Evaluator) : Term → Frame → Journal → Reply Frame
  | .list items, frame, journal =>
    match queryItemsStopping setting below items frame journal with
    | (.error fault, frame, journal) => ⟨.error fault, frame, journal⟩
    | (.ok values, frame, journal) =>
      match frame.outer.leaving with
      | some value => ⟨.ok value, frame, journal⟩
      | none => answer setting below values frame journal
  | atom, frame, journal => ⟨.ok atom, frame, journal⟩

/-- Answers the nested lists of a query up to the first that sends a value out. -/
def queryItemsStopping (setting : Setting) (below : Evaluator) :
    List Term → Frame → Journal → Except Fault (List Term) × Frame × Journal
  | [], frame, journal => (.ok [], frame, journal)
  | item :: rest, frame, journal =>
    let reply := queryStopping setting below item frame journal
    match reply.outcome with
    | .error fault => (.error fault, reply.scope, reply.journal)
    | .ok value =>
      match reply.scope.outer.leaving with
      | some _ => (.ok [value], reply.scope, reply.journal)
      | none =>
        match queryItemsStopping setting below rest reply.scope reply.journal with
        | (.error fault, frame, journal) => (.error fault, frame, journal)
        | (.ok values, frame, journal) => (.ok (value :: values), frame, journal)

end

/-- The built-in that a shape calls for, with queries that stop. -/
def applyShapeStopping (setting : Setting) (below : Evaluator) (shape : Shape) (frame : Frame)
    (journal : Journal) : Reply Frame :=
  match shape with
  | .unaryForm .ask x => queryStopping setting below x frame journal
  | other => applyShape setting below other frame journal

/-- Applies a list of reduced items. No rule is tried with a value on its way out. -/
def dispatchStopping (setting : Setting) (below : Evaluator) (items : List Term) (frame : Frame)
    (journal : Journal) : Reply Frame :=
  let shape := Shape.of items
  let reply := applyShapeStopping setting below shape frame journal
  match reply.scope.outer.leaving, reply.outcome with
  | none, .ok .unknown =>
    match useRule? setting below items reply.scope reply.journal with
    | some used => used
    | none => ⟨unreduced shape items, reply.scope, reply.journal⟩
  | _, _ => reply

/-- Reduces the items of a list, and then the list unless a value is on its way out. -/
def reduceFrameStopping (setting : Setting) (below : Evaluator) (items : List Term) (outer : Scope)
    (journal : Journal) : Reply Scope :=
  match reduceItems below items [] outer journal with
  | (.failed fault, scope, journal) => ⟨.error fault, scope, journal⟩
  | (.stopped value, scope, journal) => ⟨.ok value, scope, journal⟩
  | (.reduced values, scope, journal) =>
    match scope.leaving with
    | some value => ⟨.ok value, scope, journal⟩
    | none =>
      let reply := dispatchStopping setting below values ⟨scope, .empty⟩ journal
      ⟨reply.outcome, reply.scope.outer, reply.journal⟩

end Reduction

open Reduction

/-- Reduces a term with this much depth left, and stops at a return. -/
def reduceStopping (setting : Setting) : (left : Nat) → Term → Scope → Journal → Reply Scope
  | 0, .list _, scope, journal => ⟨.error (tooDeep setting), scope, journal⟩
  | left + 1, .list items, scope, journal =>
    reduceFrameStopping setting (reduceStopping setting left) items scope
      (journal.note setting (.reduce (.list items) (setting.maxDepth - left)))
  | _, atom, scope, journal => ⟨.ok atom, scope, journal⟩

/-! ## Two reductions side by side -/

/-- Acts were added, and none of them sends a value out. -/
def Staying (earlier later : Journal) : Prop :=
  ∃ added, later.acts = added ++ earlier.acts ∧ ∀ act ∈ added, act.changes = true

/-- A value is on its way out; sending it was the last act and the first of its kind. -/
def Leaving (earlier : Journal) (value : Term) (scope : Scope) (journal : Journal) : Prop :=
  scope.leaving = some value ∧
    ∃ middle, Staying earlier middle ∧ journal.acts = .returned value :: middle.acts

/-- Without an act nothing was sent out. -/
theorem Staying.refl {earlier later : Journal} (same : later.acts = earlier.acts) :
    Staying earlier later :=
  ⟨[], same, by simp⟩

/-- Acts are added to acts that were added, and if neither send a value out, all together do not. -/
theorem Staying.trans {earlier middle later : Journal} (first : Staying earlier middle)
    (second : Staying middle later) : Staying earlier later := by
  obtain ⟨early, earlyActs, earlyChange⟩ := first
  obtain ⟨late, lateActs, lateChange⟩ := second
  refine ⟨late ++ early, by rw [lateActs, earlyActs, List.append_assoc], ?_⟩
  intro act member
  exact (List.mem_append.mp member).elim (lateChange act) (earlyChange act)

/-- One act that does not send a value out, of which there are five kinds. -/
theorem Staying.act {earlier later : Journal} (act : Act) (changes : act.changes = true)
    (acts : later.acts = act :: earlier.acts) : Staying earlier later :=
  ⟨[act], acts, by simpa using changes⟩

/-- Steps in front that send nothing out do not change that the last act was the first of its kind.
-/
theorem Leaving.since {earlier middle later : Journal} {value : Term} {scope : Scope}
    (first : Staying earlier middle) (second : Leaving middle value scope later) :
    Leaving earlier value scope later := by
  obtain ⟨leaving, before, staying, acts⟩ := second
  exact ⟨leaving, before, first.trans staying, acts⟩

/-- What a comparison looks at in the results of a function of the reduction. -/
structure View (ρ : Type) where
  /-- The scope that a value leaves. -/
  scope : ρ → Scope
  /-- The journal afterwards. -/
  journal : ρ → Journal
  /-- No value is on its way out. -/
  calm : ρ → Prop
  /-- The function did not fail, and its result is no other than the value on its way out. -/
  ended : ρ → Term → Prop

/-- No value is on its way out of either scope of a frame. -/
def Frame.Calm (frame : Frame) : Prop :=
  frame.outer.leaving = none ∧ frame.inner.leaving = none

namespace View

/-- Replies to a caller. -/
abbrev ofScope : View (Reply Scope) :=
  ⟨(·.scope), (·.journal), (·.scope.leaving = none), fun reply value => reply.outcome = .ok value⟩

/-- Replies of the functions that work on a frame. -/
abbrev ofFrame : View (Reply Frame) :=
  ⟨(·.scope.outer), (·.journal), (·.scope.Calm), fun reply value => reply.outcome = .ok value⟩

/-- What became of the items of a list. They may all have been reduced when a value leaves. -/
abbrev ofItems : View (Items × Scope × Journal) :=
  ⟨(·.2.1), (·.2.2), (·.2.1.leaving = none),
    fun items value => items.1 = .stopped value ∨ ∃ values, items.1 = .reduced values⟩

/-- What became of the nested lists of a query. -/
abbrev ofQueries : View (Except Fault (List Term) × Frame × Journal) :=
  ⟨(·.2.1.outer), (·.2.2), (·.2.1.Calm), fun queries _ => ∃ values, queries.1 = .ok values⟩

end View

/-- How the results of a stopping reduction and of another one compare. Either both stay and give
the same result, or the stopping one has just ended with a value, and the acts of the other account
for what it does afterwards. -/
inductive Compares {ρ : Type} (view : View ρ) (earlier : Journal) : (stopping other : ρ) → Prop
    where
  | same {result : ρ} (calm : view.calm result) (staying : Staying earlier (view.journal result)) :
      Compares view earlier result result
  | left (value : Term) {stopping other : ρ} (ended : view.ended stopping value)
      (leaving : Leaving earlier value (view.scope stopping) (view.journal stopping))
      (afterwards : Accounted (view.scope stopping) (view.journal stopping) (view.scope other)
        (view.journal other)) : Compares view earlier stopping other

/-- A comparison may start earlier, as long as nothing is sent out in between. The steps that both
reductions have in common are put in front in this way. -/
theorem Compares.since {ρ : Type} {view : View ρ} {earlier middle : Journal} {stopping other : ρ}
    (first : Staying earlier middle) (second : Compares view middle stopping other) :
    Compares view earlier stopping other := by
  cases second with
  | same calm staying => exact .same calm (first.trans staying)
  | left value ended leaving afterwards => exact .left value ended (leaving.since first) afterwards

/-- An evaluator that stops, beside another one: they compare wherever no value is on its way. -/
def Evaluator.StopsLike (stopping other : Evaluator) : Prop :=
  ∀ term scope journal, scope.leaving = none →
    Compares .ofScope journal (stopping term scope journal) (other term scope journal)

namespace Reduction

variable (setting : Setting) {stopping below : Evaluator}

/-- With a value on its way out no further item is reduced, and the scope and the journal stay.
Whether the items count as stopped depends on whether any is left. -/
theorem reduceItems_of_leaving {scope : Scope} {value : Term} (leaving : scope.leaving = some value)
    (items done : List Term) (journal : Journal) :
    View.ofItems.ended (reduceItems below items done scope journal) value ∧
      (reduceItems below items done scope journal).2 = (scope, journal) := by
  cases items with
  | nil => exact ⟨.inr ⟨_, rfl⟩, rfl⟩
  | cons item rest =>
    have step : reduceItems below (item :: rest) done scope journal =
        (.stopped value, scope, journal) := by simp only [reduceItems, leaving]
    rw [step]
    exact ⟨.inl rfl, rfl⟩

/-- Items compare. As long as both reductions stay, they reduce the same item in the same scope;
when the stopping one leaves, it takes no further item, and the other may still take some.

Proof: by induction on the items. The other reduction's further items are a run, and the acts of a
run account for what it does. -/
theorem reduceItems_compares (alike : stopping.StopsLike below) (runs : below.Runs)
    (items done : List Term) (scope : Scope) (journal : Journal) (calm : scope.leaving = none) :
    Compares .ofItems journal (reduceItems stopping items done scope journal)
      (reduceItems below items done scope journal) := by
  induction items generalizing done scope journal with
  | nil => exact .same calm (.refl rfl)
  | cons item rest inductionHypothesis =>
    have compared := alike item scope journal calm
    simp only [reduceItems, calm]
    generalize stopping item scope journal = reply at compared ⊢
    generalize below item scope journal = other at compared ⊢
    cases compared with
    | same stillCalm staying =>
      cases reply.outcome with
      | error fault => exact .same stillCalm staying
      | ok value => exact .since staying (inductionHypothesis _ _ _ stillCalm)
    | left value outcome leaving afterwards =>
      have isValue : reply.outcome = .ok value := outcome
      simp only [isValue]
      obtain ⟨ended, unchanged⟩ :=
        reduceItems_of_leaving leaving.1 rest (value :: done) reply.journal
      refine .left value ended ?_ ?_
      · simp only [unchanged]
        exact leaving
      · simp only [unchanged]
        refine afterwards.trans ?_
        split
        · exact (Run.done _ _).accounted
        · exact (reduceItems_run runs rest _ _ _).accounted

/-- A rule is used by both or by neither, since both look at the same rules. No value is on its way
out then, so they compare on its result. -/
theorem useRule?_compares (alike : stopping.StopsLike below) (items : List Term) (frame : Frame)
    (journal : Journal) (calm : frame.Calm) :
    (useRule? setting stopping items frame journal = none ∧
      useRule? setting below items frame journal = none) ∨
    ∃ stopped used, useRule? setting stopping items frame journal = some stopped ∧
      useRule? setting below items frame journal = some used ∧
      Compares .ofFrame journal stopped used := by
  cases found : Rule.firstResult? frame.outer.rules (.list items) with
  | none => exact .inl ⟨by simp [useRule?, found], by simp [useRule?, found]⟩
  | some result =>
    right
    simp only [useRule?, found, Option.map_some]
    have noted : Staying journal (journal.note setting (.ruleUsed (.list items) result)) :=
      .refl (Journal.note_acts _ _ _)
    refine ⟨_, _, rfl, rfl, .since noted ?_⟩
    have compared := alike result frame.outer
      (journal.note setting (.ruleUsed (.list items) result)) calm.1
    generalize stopping result frame.outer _ = reply at compared ⊢
    generalize below result frame.outer _ = other at compared ⊢
    cases compared with
    | same stillCalm staying => exact .same ⟨stillCalm, calm.2⟩ staying
    | left value outcome leaving afterwards => exact .left value outcome leaving afterwards

/-- A query put to the facts compares. What leaves the inner scope leaves the outer one: for the
stopping reduction that is its end, and for the other the value is raised, and nothing else changes
there. -/
theorem answer_compares (alike : stopping.StopsLike below) (items : List Term) (frame : Frame)
    (journal : Journal) (calm : frame.Calm) :
    Compares .ofFrame journal (answer setting stopping items frame journal)
      (answer setting below items frame journal) := by
  cases answered : (Fact.answers items (frame.outer.facts ++ frame.inner.facts)).isEmpty with
  | false =>
    simp only [answer, answered, Bool.false_eq_true, if_false]
    exact .same calm (.refl (Journal.note_acts _ _ _))
  | true =>
    rw [answer_of_none setting answered, answer_of_none setting answered]
    have prepared : Staying journal (queryJournal setting items frame journal) := by
      refine .refl ?_
      simp only [queryJournal]
      split <;> simp
    have compared := alike (fallback items) frame.inner
      (queryJournal setting items frame journal) calm.2
    generalize stopping (fallback items) frame.inner _ = reply at compared ⊢
    generalize below (fallback items) frame.inner _ = other at compared ⊢
    refine .since prepared ?_
    cases compared with
    | same stillCalm staying =>
      have nothing : reply.scope.leaving = none := stillCalm
      simp only [nothing, Scope.raise]
      exact .same ⟨calm.1, rfl⟩ staying
    | left value outcome leaving afterwards =>
      have pending : reply.scope.leaving = some value := leaving.1
      simp only [pending]
      refine .left value outcome ⟨rfl, leaving.2⟩ (afterwards.aside ?_ ?_ ?_)
      all_goals simp only [Scope.raise_eq]

mutual

/-- A query compares. The stopping one looks for a value between its nested lists and the facts; the
other one goes on and puts what the nested lists have become to the facts. -/
theorem query_compares (alike : stopping.StopsLike below) (runs : below.Runs) (term : Term)
    (frame : Frame) (journal : Journal) (calm : frame.Calm) :
    Compares .ofFrame journal (queryStopping setting stopping term frame journal)
      (query setting below term frame journal) := by
  cases term with
  | list items =>
    have nested := queryItems_compares alike runs items frame journal calm
    simp only [queryStopping, query]
    generalize queryItemsStopping setting stopping items frame journal = result at nested ⊢
    generalize queryItems setting below items frame journal = other at nested ⊢
    obtain ⟨outcome, frame', journal'⟩ := result
    cases nested with
    | same stillCalm staying =>
      cases outcome with
      | error fault => exact .same stillCalm staying
      | ok values =>
        have nothing : frame'.outer.leaving = none := stillCalm.1
        simp only [nothing]
        exact .since staying (answer_compares setting alike values frame' journal' stillCalm)
    | left value ended leaving afterwards =>
      obtain ⟨values, rfl⟩ : ∃ values, outcome = .ok values := ended
      have pending : frame'.outer.leaving = some value := leaving.1
      simp only [pending]
      refine .left value rfl leaving (afterwards.trans ?_)
      obtain ⟨otherOutcome, otherFrame, otherJournal⟩ := other
      cases otherOutcome with
      | error fault => exact (Run.done _ _).accounted
      | ok otherValues =>
        exact (answer_run setting runs otherValues otherFrame otherJournal).accounted
  | _ => exact .same calm (.refl rfl)

/-- The nested lists of a query compare. The stopping one ends behind the list that sends a value
out; what the other does with the rest is a run of the outer scope, and accounted for. -/
theorem queryItems_compares (alike : stopping.StopsLike below) (runs : below.Runs)
    (items : List Term) (frame : Frame) (journal : Journal) (calm : frame.Calm) :
    Compares .ofQueries journal (queryItemsStopping setting stopping items frame journal)
      (queryItems setting below items frame journal) := by
  cases items with
  | nil => exact .same calm (.refl rfl)
  | cons item rest =>
    have first := query_compares alike runs item frame journal calm
    simp only [queryItemsStopping, queryItems]
    generalize queryStopping setting stopping item frame journal = reply at first ⊢
    generalize query setting below item frame journal = other at first ⊢
    cases first with
    | same stillCalm staying =>
      cases reply.outcome with
      | error fault => exact .same stillCalm staying
      | ok value =>
        have others := queryItems_compares alike runs rest reply.scope reply.journal stillCalm
        have nothing : reply.scope.outer.leaving = none := stillCalm.1
        simp only [nothing]
        generalize queryItemsStopping setting stopping rest reply.scope reply.journal = result
          at others ⊢
        generalize queryItems setting below rest reply.scope reply.journal = other at others ⊢
        refine .since staying ?_
        obtain ⟨outcome, frame', journal'⟩ := result
        cases others with
        | same finallyCalm further =>
          cases outcome with
          | error fault => exact .same finallyCalm further
          | ok values => exact .same finallyCalm further
        | left leaver ended leaving afterwards =>
          obtain ⟨values, rfl⟩ : ∃ values, outcome = .ok values := ended
          refine .left leaver ⟨_, rfl⟩ leaving (afterwards.trans ?_)
          obtain ⟨otherOutcome, otherFrame, otherJournal⟩ := other
          cases otherOutcome with
          | error fault => exact (Run.done _ _).accounted
          | ok otherValues => exact (Run.done _ _).accounted
    | left value outcome leaving afterwards =>
      have isValue : reply.outcome = .ok value := outcome
      have pending : reply.scope.outer.leaving = some value := leaving.1
      simp only [isValue, pending]
      -- The other reduction goes on to the rest of the items, and that is a run.
      refine .left value ⟨_, rfl⟩ leaving (afterwards.trans ?_)
      cases other.outcome with
      | error fault => exact (Run.done _ _).accounted
      | ok otherValue =>
        have onward := queryItems_run setting runs rest other.scope other.journal
        dsimp only
        generalize queryItems setting below rest other.scope other.journal = others at onward ⊢
        obtain ⟨otherOutcome, otherFrame, otherJournal⟩ := others
        cases otherOutcome with
        | error fault => exact onward.accounted
        | ok otherValues => exact onward.accounted

end

/-- The program of a file compares. That it is started is an act of its own, and it changes
something, so it is not the one that sends a value out. -/
theorem runProgram_compares (alike : stopping.StopsLike below) (path : String) (program : Term)
    (scope : Scope) (journal : Journal) (calm : scope.leaving = none) :
    Compares .ofScope journal (runProgram setting stopping path program scope journal)
      (runProgram setting below path program scope journal) := by
  simp only [runProgram]
  generalize isStarted : ((journal.note setting (.load path program.items.length)).record
    (.loaded path)).enter path = started
  have begun : Staying journal started := by
    refine .act (.loaded path) rfl ?_
    rw [← isStarted]
    simp [Journal.enter, Journal.record]
  have compared := alike program scope started calm
  generalize stopping program scope started = reply at compared ⊢
  generalize below program scope started = other at compared ⊢
  refine .since begun ?_
  cases compared with
  | same stillCalm staying => exact .same stillCalm staying
  | left value outcome leaving afterwards =>
    have further : Accounted reply.scope reply.journal other.scope other.journal.exit :=
      afterwards.trans (.idle rfl ⟨rfl, rfl, rfl, rfl⟩)
    have ended : Accounted reply.scope reply.journal.exit reply.scope reply.journal :=
      .idle rfl ⟨rfl, rfl, rfl, rfl⟩
    exact .left value outcome leaving (ended.trans further)

/-- A load compares: up to the program both do the same, and none of the ways in which it ends early
sends a value out. -/
theorem load_compares (alike : stopping.StopsLike below) (spec : String) (frame : Frame)
    (journal : Journal) (calm : frame.Calm) :
    Compares .ofFrame journal (load setting stopping spec frame journal)
      (load setting below spec frame journal) := by
  have sought : Staying journal (journal.seek (candidates setting journal.loading spec)) :=
    .refl rfl
  simp only [load]
  generalize journal.seek (candidates setting journal.loading spec) = afterwards at sought ⊢
  refine .since sought ?_
  cases resolve setting afterwards.loading spec with
  | none => exact .same calm (.refl (Journal.note_acts _ _ _))
  | some path =>
    dsimp only
    cases setting.read path with
    | error _ => exact .same calm (.refl rfl)
    | ok content =>
      dsimp only
      cases openProgram path (Text.decode content).chars afterwards with
      | error fault => exact .same calm (.refl rfl)
      | ok program =>
        have compared :=
          runProgram_compares setting alike path program frame.outer afterwards calm.1
        dsimp only
        generalize runProgram setting stopping path program frame.outer afterwards = reply
          at compared ⊢
        generalize runProgram setting below path program frame.outer afterwards = other
          at compared ⊢
        cases compared with
        | same stillCalm staying => exact .same ⟨stillCalm, calm.2⟩ staying
        | left value outcome leaving further => exact .left value outcome leaving further

/-- A form with one operand that is no query compares. Only a return sends a value out, and loads
give a program to the evaluators; all others do the same on both sides. -/
theorem applyUnary_compares (alike : stopping.StopsLike below) {form : Form}
    (notAsked : form ≠ .ask) (x : Term) (frame : Frame) (journal : Journal) (calm : frame.Calm) :
    Compares .ofFrame journal (applyUnary setting stopping form x frame journal)
      (applyUnary setting below form x frame journal) := by
  have declared : Compares .ofFrame journal (declare setting x frame journal)
      (declare setting x frame journal) :=
    .same calm (.act (.declared x) rfl (by simp [declare, Journal.record]))
  cases form with
  | print =>
    simp only [applyUnary]
    split
    · exact .same calm (.refl rfl)
    · exact .same calm (.act (.printed _) rfl rfl)
  | leave =>
    exact .left x rfl ⟨rfl, journal, .refl rfl, rfl⟩ (Run.done _ _).accounted
  | load =>
    cases x with
    | str spec => exact load_compares setting alike spec frame journal calm
    | _ => exact .same calm (.refl rfl)
  | declare => exact declared
  | declareShort => exact declared
  | ask => exact absurd rfl notAsked
  | _ => exact .same calm (.refl rfl)

/-- A form with two operands sends no value out, and as it gives nothing to an evaluator, both sides
are the same. -/
theorem applyBinary_compares (form : Form) (a b : Term) (frame : Frame) (journal : Journal)
    (calm : frame.Calm) :
    Compares .ofFrame journal (applyBinary setting form a b frame journal)
      (applyBinary setting form a b frame journal) := by
  unfold applyBinary
  split
  · exact .same calm (.refl rfl)
  · exact .same calm (.refl rfl)
  · exact .same calm (.refl rfl)
  · exact .same calm (.act (.defined ⟨a, b⟩) rfl (by simp [Journal.record]))
  · exact .same calm (.act (.bound _ _) rfl rfl)
  · exact .same calm (.refl rfl)

/-- The built-in that a shape calls for compares. The stopping functions differ from the others at
queries only. -/
theorem applyShape_compares (alike : stopping.StopsLike below) (runs : below.Runs) (shape : Shape)
    (frame : Frame) (journal : Journal) (calm : frame.Calm) :
    Compares .ofFrame journal (applyShapeStopping setting stopping shape frame journal)
      (applyShape setting below shape frame journal) := by
  cases shape with
  | unaryForm form x =>
    by_cases asked : form = .ask
    · subst asked
      exact query_compares setting alike runs x frame journal calm
    · have sameForm : applyShapeStopping setting stopping (.unaryForm form x) frame journal =
          applyUnary setting stopping form x frame journal := by
        cases form with
        | ask => exact absurd rfl asked
        | _ => rfl
      rw [sameForm]
      exact applyUnary_compares setting alike asked x frame journal calm
  | binaryForm form x y => exact applyBinary_compares setting form x y frame journal calm
  | _ => exact .same calm (.refl rfl)

/-- Applying a list compares. With a value on its way out the stopping one tries no rule, and what
the other does from there on is a run. -/
theorem dispatch_compares (alike : stopping.StopsLike below) (runs : below.Runs) (items : List Term)
    (frame : Frame) (journal : Journal) (calm : frame.Calm) :
    Compares .ofFrame journal (dispatchStopping setting stopping items frame journal)
      (dispatch setting below items frame journal) := by
  have applied := applyShape_compares setting alike runs (Shape.of items) frame journal calm
  have after := dispatch_run_after setting runs items frame journal
  simp only [dispatchStopping]
  generalize applyShapeStopping setting stopping (Shape.of items) frame journal = reply at applied ⊢
  generalize isOther : applyShape setting below (Shape.of items) frame journal = other
    at applied after
  cases applied with
  | same stillCalm staying =>
    have nothing : reply.scope.outer.leaving = none := stillCalm.1
    simp only [dispatch, isOther, nothing]
    refine .since staying ?_
    split
    · rename_i outcome
      simp only [outcome]
      rcases useRule?_compares setting alike items reply.scope reply.journal stillCalm with
        ⟨none, alsoNone⟩ | ⟨stopped, used, isStopped, isUsed, compared⟩
      · rw [none, alsoNone]
        exact .same stillCalm (.refl rfl)
      · rw [isStopped, isUsed]
        exact compared
    · rename_i known
      split
      · rename_i outcome
        exact absurd outcome (known rfl)
      · exact .same stillCalm (.refl rfl)
  | left value outcome leaving afterwards =>
    have pending : reply.scope.outer.leaving = some value := leaving.1
    simp only [pending]
    exact .left value outcome leaving (afterwards.trans after.accounted)

/-- Reducing a list in its frame compares.

Proof: if the items have sent a value out, the stopping reduction is over, and the other may still
apply the list, which is a run. Otherwise both apply the same list, and a value that is sent out
there is the result on both sides. -/
theorem reduceFrame_compares (alike : stopping.StopsLike below) (runs : below.Runs)
    (items : List Term) (outer : Scope) (journal : Journal) (calm : outer.leaving = none) :
    Compares .ofScope journal (reduceFrameStopping setting stopping items outer journal)
      (reduceFrame setting below items outer journal) := by
  have reduced := reduceItems_compares alike runs items [] outer journal calm
  have after := reduceFrame_run_after setting runs items outer journal
  simp only [reduceFrameStopping]
  generalize reduceItems stopping items [] outer journal = result at reduced ⊢
  generalize isOther : reduceItems below items [] outer journal = other at reduced after
  obtain ⟨items', scope', journal'⟩ := result
  cases reduced with
  | same stillCalm staying =>
    simp only [reduceFrame, isOther]
    refine .since staying ?_
    cases items' with
    | failed fault => exact .same stillCalm (.refl rfl)
    | stopped value => exact .same stillCalm (.refl rfl)
    | reduced values =>
      have applied := dispatch_compares setting alike runs values ⟨scope', .empty⟩ journal'
        ⟨stillCalm, rfl⟩
      have nothing : scope'.leaving = none := stillCalm
      simp only [nothing]
      generalize dispatchStopping setting stopping values ⟨scope', .empty⟩ journal' = reply
        at applied ⊢
      generalize dispatch setting below values ⟨scope', .empty⟩ journal' = other at applied ⊢
      cases applied with
      | same finallyCalm further =>
        have stillNothing : reply.scope.outer.leaving = none := finallyCalm.1
        have kept : overriding reply.scope.outer reply.outcome = reply.outcome := by
          simp only [overriding, stillNothing]
          cases reply.outcome <;> rfl
        rw [kept]
        exact .same finallyCalm.1 further
      | left value outcome leaving afterwards => exact .left value outcome leaving afterwards
  | left value ended leaving afterwards =>
    have pending : scope'.leaving = some value := leaving.1
    -- The stopping reduction is over, and the other may still apply the list.
    have onward := afterwards.trans after.accounted
    obtain rfl | ⟨values, rfl⟩ : items' = .stopped value ∨ ∃ values, items' = .reduced values :=
      ended
    · exact .left value rfl leaving onward
    · simp only [pending]
      exact .left value rfl leaving onward

end Reduction

/-- The stopping reduction compares with the reduction. The induction is on the depth that is left,
and the fold at the end of a list is taken away first, since the stopping reduction has none. -/
theorem reduceStopping_stopsLike (setting : Setting) (left : Nat) :
    Evaluator.StopsLike (reduceStopping setting left) (reduce setting left) := by
  induction left with
  | zero =>
    intro term scope journal calm
    cases term with
    | _ => exact .same calm (.refl rfl)
  | succ left inductionHypothesis =>
    intro term scope journal calm
    cases term with
    | list items =>
      rw [reduce_list]
      have noted : Staying journal
          (journal.note setting (.reduce (.list items) (setting.maxDepth - left))) :=
        .refl (Journal.note_acts _ _ _)
      exact .since noted (reduceFrame_compares setting inductionHypothesis
        (reduce_runs setting left) items scope _ calm)
    | _ => exact .same calm (.refl rfl)

/-! ## A value on its way out from the start -/

/-- With a value on its way out from the start a reduction does nothing. The empty list has no item
to stop it, but all it can do is to use rules. -/
theorem reduce_acts_of_leaving (setting : Setting) (left : Nat) (term : Term) {scope : Scope}
    {value : Term} (leaving : scope.leaving = some value) (journal : Journal) :
    (reduce setting left term scope journal).journal.acts = journal.acts := by
  induction left generalizing term journal with
  | zero =>
    cases term with
    | _ => rfl
  | succ left inductionHypothesis =>
    cases term with
    | list items =>
      rw [reduce_list]
      cases items with
      | cons item rest => simp [reduceFrame, reduceItems, leaving]
      | nil =>
        simp only [reduceFrame, reduceItems, List.reverse_nil, dispatch, Shape.of, applyShape]
        split
        · rename_i used isUsed
          simp only [useRule?, Option.map_eq_some_iff] at isUsed
          obtain ⟨result, _, rfl⟩ := isUsed
          simp [inductionHypothesis]
        · simp
    | _ => rfl

/-- So does the stopping reduction, which does not even use rules then. -/
theorem reduceStopping_acts_of_leaving (setting : Setting) (left : Nat) (term : Term)
    {scope : Scope} {value : Term} (leaving : scope.leaving = some value) (journal : Journal) :
    (reduceStopping setting left term scope journal).journal.acts = journal.acts := by
  cases left with
  | zero =>
    cases term with
    | _ => rfl
  | succ left =>
    cases term with
    | list items =>
      cases items with
      | cons item rest => simp [reduceStopping, reduceFrameStopping, reduceItems, leaving]
      | nil => simp [reduceStopping, reduceFrameStopping, reduceItems, leaving]
    | _ => rfl

end TermLang
