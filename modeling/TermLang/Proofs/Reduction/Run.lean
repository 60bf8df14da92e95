import TermLang.Proofs.Reduction.Course

/-!
# What a reduction can do

A reduction changes its scope and its journal in a few ways only: it prints, declares, defines,
binds, sends a value on its way out, starts the program of a file, or lets a query run aside in a
scope of its own. `Run` lists these ways over all levels: where the course of one level gives a term
to the evaluator below, a run holds the run of that term. Every reduction is a run, by induction on
the depth that is left and on the course of each level.

What holds of all reductions then follows by induction on runs. Scopes only grow, the acts of the
journal account for every change, and the files that are being loaded are the same at the end.
Because scopes only grow, folding the scope of a finished list back into its caller's changes
nothing: that scope already holds all that the fold would add.

Which of the ways a given list takes, and the outcome, are not covered by a run.
-/

namespace TermLang

/-- The ways in which a reduction changes a scope and a journal. -/
inductive Run : Scope → Journal → Scope → Journal → Prop where
  | done (scope : Scope) (journal : Journal) : Run scope journal scope journal
  /-- Events are noted and paths are sought; nothing else happens. -/
  | quiet (scope : Scope) (journal : Journal) (trace : List Event) (sought : List String) :
      Run scope journal scope { journal with trace, sought }
  | print (scope : Scope) (journal : Journal) (line : String) :
      Run scope journal scope (journal.print line)
  | declare (scope : Scope) (journal : Journal) (fact : Term) :
      Run scope journal (scope.declare fact) (journal.record (.declared fact))
  | define (scope : Scope) (journal : Journal) (rule : Rule) :
      Run scope journal (scope.define rule) (journal.record (.defined rule))
  | bind (scope : Scope) (journal : Journal) (name : String) (term : Term) :
      Run scope journal (scope.bind name term) (journal.record (.bound name term))
  | leave (scope : Scope) (journal : Journal) (value : Term) :
      Run scope journal (scope.leave value) (journal.record (.returned value))
  /-- A query is reduced in another scope, and what leaves that scope leaves this one. -/
  | aside (scope : Scope) {inner inner' : Scope} {journal journal' : Journal}
      (inside : Run inner journal inner' journal') :
      Run scope journal (scope.raise inner'.leaving) journal'
  | load (path : String) {scope scope' : Scope} {journal journal' : Journal}
      (inside : Run scope ((journal.record (.loaded path)).enter path) scope' journal') :
      Run scope journal scope' journal'.exit
  | trans {scope scope' scope'' : Scope} {journal journal' journal'' : Journal}
      (first : Run scope journal scope' journal') (second : Run scope' journal' scope'' journal'') :
      Run scope journal scope'' journal''

/-! ## Scopes only grow -/

namespace Bindings

/-- An entry's name is bound, though perhaps to another term: an earlier entry of the same name is
found first. -/
theorem find?_of_mem {bindings : Bindings} {entry : String × Term} (member : entry ∈ bindings) :
    (bindings.find? entry.1).isSome := by
  induction bindings with
  | nil => cases member
  | cons first rest inductionHypothesis =>
    obtain ⟨name, term⟩ := first
    rcases List.mem_cons.mp member with rfl | later
    · simp [find?]
    · by_cases same : name = entry.1
      · simp [find?, same]
      · simp [find?, same, inductionHypothesis later]

/-- Where all names of the second bindings are bound in the first, nothing is taken over: the fold
looks each of them up and finds it. -/
theorem orElse_of_bound {preferred other : Bindings}
    (bound : ∀ entry ∈ other, (preferred.find? entry.1).isSome) :
    preferred.orElse other = preferred := by
  induction other with
  | nil => rfl
  | cons first rest inductionHypothesis =>
    obtain ⟨here, later⟩ := List.forall_mem_cons.mp bound
    obtain ⟨found, isFound⟩ := Option.isSome_iff_exists.mp here
    simp only [orElse, isFound]
    exact inductionHypothesis later

end Bindings

/-- Facts and rules are kept in front, names stay bound, and a value on its way out is not lost. -/
structure Scope.Extends (before after : Scope) : Prop where
  facts : before.facts <+: after.facts
  rules : before.rules <+: after.rules
  bound : ∀ name, (before.bindings.find? name).isSome → (after.bindings.find? name).isSome
  leaving : before.leaving.isSome → after.leaving.isSome

namespace Scope

variable {scope scope' scope'' : Scope}

/-- A scope extends itself, and that is all that is needed of steps that leave it alone. -/
theorem Extends.refl (scope : Scope) : scope.Extends scope :=
  ⟨List.prefix_refl _, List.prefix_refl _, fun _ => id, id⟩

/-- What extends an extension extends the first scope: each of the four parts is kept twice. -/
theorem Extends.trans (first : scope.Extends scope') (second : scope'.Extends scope'') :
    scope.Extends scope'' where
  facts := first.facts.trans second.facts
  rules := first.rules.trans second.rules
  bound name := second.bound name ∘ first.bound name
  leaving := second.leaving ∘ first.leaving

/-- Binding a name unbinds none. The term that the name was bound to is lost, which is why bindings
are compared by their names only. -/
theorem extends_bind (scope : Scope) (name : String) (term : Term) :
    scope.Extends (scope.bind name term) := by
  refine ⟨List.prefix_refl _, List.prefix_refl _, ?_, id⟩
  intro sought found
  by_cases same : name = sought
  · subst same
    simp [Scope.bind, Bindings.find?_insert_self]
  · rw [Scope.bind, Bindings.find?_insert_of_ne _ _ _ _ same]
    exact found

/-- Raising a value adds it, and changes nothing else. A value that was on its way out already is
replaced, and then one still is. -/
theorem extends_raise (scope : Scope) (raised : Option Term) :
    scope.Extends (scope.raise raised) := by
  cases raised with
  | none => exact .refl scope
  | some value => exact ⟨List.prefix_refl _, List.prefix_refl _, fun _ => id, fun _ => rfl⟩

/-- Folding a scope that extends its caller's back into it gives that scope. Its facts and rules are
taken as they are, it binds every name that the caller's binds, and a value that was on its way out
before still is. -/
theorem Extends.merge (extended : scope.Extends scope') : scope.merge scope' = scope' := by
  have leaving : scope'.leaving.or scope.leaving = scope'.leaving := by
    cases after : scope'.leaving with
    | some value => rfl
    | none =>
      have before : scope.leaving = none := by
        rw [← Option.not_isSome_iff_eq_none]
        intro pending
        have kept := extended.leaving pending
        rw [after] at kept
        exact absurd kept (by simp)
      rw [before]
      rfl
  have bindings : scope'.bindings.orElse scope.bindings = scope'.bindings :=
    Bindings.orElse_of_bound fun entry member => extended.bound _ (Bindings.find?_of_mem member)
  simp only [Scope.merge, bindings, leaving]

end Scope

/-- A reduction only adds to its scope: facts and rules are added behind the others, names are
bound, and a value on its way out is replaced by another at most. What a query does in its own scope
adds nothing here but such a value. -/
theorem Run.extends {scope scope' : Scope} {journal journal' : Journal}
    (run : Run scope journal scope' journal') : scope.Extends scope' := by
  induction run with
  | done => exact .refl _
  | quiet => exact .refl _
  | print => exact .refl _
  | declare scope journal fact =>
    exact ⟨List.prefix_append _ _, List.prefix_refl _, fun _ => id, id⟩
  | define scope journal rule =>
    exact ⟨List.prefix_refl _, List.prefix_append _ _, fun _ => id, id⟩
  | bind scope journal name term => exact scope.extends_bind name term
  | leave scope journal value => exact scope.extends_raise (some value)
  | aside scope => exact scope.extends_raise _
  | load path inside inductionHypothesis => exact inductionHypothesis
  | trans first second before after => exact before.trans after

/-! ## Acts account for every change -/

/-- Whether an act changes what is known or the world. Sending a value on its way out does not. -/
def Act.changes : Act → Bool
  | .returned _ => false
  | _ => true

/-- Nothing was printed in between, and facts, rules and bindings are the same. -/
structure Unchanged (scope : Scope) (journal : Journal) (scope' : Scope) (journal' : Journal) :
    Prop where
  printed : journal'.printed = journal.printed
  facts : scope'.facts = scope.facts
  rules : scope'.rules = scope.rules
  bindings : scope'.bindings = scope.bindings

/-- Acts were added in front of the earlier ones, and unless one of them changes something, nothing
has changed. -/
def Accounted (scope : Scope) (journal : Journal) (scope' : Scope) (journal' : Journal) : Prop :=
  ∃ added, journal'.acts = added ++ journal.acts ∧
    ((∀ act ∈ added, act.changes = false) → Unchanged scope journal scope' journal')

namespace Accounted

variable {scope scope' scope'' : Scope} {journal journal' journal'' : Journal}

/-- Steps without an act, after which nothing has changed, are accounted for by no act. -/
theorem idle (acts : journal'.acts = journal.acts)
    (unchanged : Unchanged scope journal scope' journal') :
    Accounted scope journal scope' journal' :=
  ⟨[], acts, fun _ => unchanged⟩

/-- A step whose one act says that something may have changed is accounted for by it, whatever the
step was. -/
theorem change {act : Act} (changes : act.changes = true)
    (acts : journal'.acts = act :: journal.acts) : Accounted scope journal scope' journal' := by
  refine ⟨[act], acts, ?_⟩
  intro none
  have contradiction := none act List.mem_cons_self
  rw [changes] at contradiction
  exact absurd contradiction (by simp)

/-- Of two steps one after the other, the acts of both account for what has changed: if none of them
changes anything, neither step has. -/
theorem trans (first : Accounted scope journal scope' journal')
    (second : Accounted scope' journal' scope'' journal'') :
    Accounted scope journal scope'' journal'' := by
  obtain ⟨early, earlyActs, earlyStill⟩ := first
  obtain ⟨late, lateActs, lateStill⟩ := second
  refine ⟨late ++ early, ?_, ?_⟩
  · rw [lateActs, earlyActs, List.append_assoc]
  · intro none
    have first := earlyStill fun act member => none act (List.mem_append_right _ member)
    have second := lateStill fun act member => none act (List.mem_append_left _ member)
    exact ⟨second.printed.trans first.printed, second.facts.trans first.facts,
      second.rules.trans first.rules, second.bindings.trans first.bindings⟩

/-- What happens in one scope happens aside of any other, which may only take a value on its way
out. The acts are the same, and so is what was printed. -/
theorem aside (inside : Accounted scope journal scope' journal') {outer outer' : Scope}
    (facts : outer'.facts = outer.facts) (rules : outer'.rules = outer.rules)
    (bindings : outer'.bindings = outer.bindings) : Accounted outer journal outer' journal' := by
  obtain ⟨added, acts, still⟩ := inside
  exact ⟨added, acts, fun none => ⟨(still none).printed, facts, rules, bindings⟩⟩

end Accounted

/-- The acts of the journal account for every change of a run.

Proof: by induction on the run. Each way of changing something records an act that says so, except
for noting and seeking, which change neither the scope nor what was printed. -/
theorem Run.accounted {scope scope' : Scope} {journal journal' : Journal}
    (run : Run scope journal scope' journal') : Accounted scope journal scope' journal' := by
  induction run with
  | done scope journal => exact .idle rfl ⟨rfl, rfl, rfl, rfl⟩
  | quiet scope journal => exact .idle rfl ⟨rfl, rfl, rfl, rfl⟩
  | print scope journal line => exact .change rfl rfl
  | declare scope journal fact => exact .change rfl rfl
  | define scope journal rule => exact .change rfl rfl
  | bind scope journal name term => exact .change rfl rfl
  | leave scope journal value => exact ⟨[.returned value], rfl, fun _ => ⟨rfl, rfl, rfl, rfl⟩⟩
  | aside scope inside inductionHypothesis =>
    refine inductionHypothesis.aside ?_ ?_ ?_
    all_goals
      rw [Scope.raise_eq]
  | @load path scope scope' journal journal' inside inductionHypothesis =>
    have started : Accounted scope journal scope ((journal.record (.loaded path)).enter path) :=
      .change rfl rfl
    exact started.trans (inductionHypothesis.trans (.idle rfl ⟨rfl, rfl, rfl, rfl⟩))
  | trans first second before after => exact before.trans after

/-- The files that are being loaded are the same after a run: each load takes its own file away
again. -/
theorem Run.loading {scope scope' : Scope} {journal journal' : Journal}
    (run : Run scope journal scope' journal') : journal'.loading = journal.loading := by
  induction run with
  | aside scope inside inductionHypothesis => exact inductionHypothesis
  | load path inside inductionHypothesis =>
    rw [Journal.exit, inductionHypothesis]
    rfl
  | trans first second before after => exact after.trans before
  | _ => rfl

/-! ## Every course is a run -/

/-- Every reduction by an evaluator is a run. -/
def Evaluator.Runs (below : Evaluator) : Prop :=
  ∀ term scope journal, Run scope journal (below term scope journal).scope
    (below term scope journal).journal

section

variable {α : Type} {setting : Setting} {below : Evaluator} {watch : Watch α} {seen : List α}
  {failed : Option Fault} {journal journal' : Journal}

/-- A query is a run of the outer scope, to which it raises values. What the evaluator does in the
inner scope is a run aside. -/
theorem Asking.run (runs : below.Runs) {frame frame' : Frame}
    (asking : Asking below watch frame journal seen failed frame' journal') :
    Run frame.outer journal frame'.outer journal' := by
  induction asking with
  | noted frame journal trace => exact .quiet frame.outer journal trace journal.sought
  | aside term frame journal => exact .aside frame.outer (runs term frame.inner journal)
  | trans first second before after => exact before.trans after

/-- The course of a level is a run, if every reduction by the evaluator below is: the steps of a
course are those of a run, except that a course does not look into what it gives to the evaluator.
-/
theorem Course.run (runs : below.Runs) {scope scope' : Scope}
    (course : Course setting below watch scope journal seen failed scope' journal') :
    Run scope journal scope' journal' := by
  induction course with
  | quiet scope journal trace sought => exact .quiet scope journal trace sought
  | fails scope arises => exact .done scope _
  | apply nothing scope journal => exact .done scope journal
  | declare declares scope journal => exact .declare scope journal _
  | define defines scope journal => exact .define scope journal _
  | print scope journal line => exact .print scope journal line
  | bind scope journal name term => exact .bind scope journal name term
  | leave scope journal value => exact .leave scope journal value
  | call term scope journal => exact runs term scope journal
  | ask calm asking => exact asking.run runs
  | load program scope journal found isContent => exact .load _ (runs program scope _)
  | trans first second before after => exact before.trans after

end

/-- Noting an event is quiet, whether or not the setting asks for a trace. -/
theorem Run.note (scope : Scope) (journal : Journal) (setting : Setting) (event : Event) :
    Run scope journal scope (journal.note setting event) := by
  obtain ⟨trace, noted⟩ := journal.note_eq setting event
  rw [noted]
  exact .quiet scope journal trace journal.sought

/-- A watch that sees nothing, for what does not depend on what is seen. -/
def Watch.blind : Watch Empty :=
  ⟨fun _ _ _ => [], fun _ _ _ => [], fun _ _ _ _ => [], fun _ => []⟩

/-! ## The functions of a level -/

namespace Reduction

variable (setting : Setting) {below : Evaluator}

/-- Reducing items is a run, since its course is one. For this, as for the functions below, no
property of terms is needed, so the one is taken that all terms have. -/
theorem reduceItems_run (runs : below.Runs) (items done : List Term) (scope : Scope)
    (journal : Journal) :
    Run scope journal (reduceItems below items done scope journal).2.1
      (reduceItems below items done scope journal).2.2 :=
  (reduceItems_takes default .blind below.keeps_true (fun _ _ => trivial) (fun _ _ => trivial)
    scope.allTerms_true journal).1.run runs

/-- Using a rule is a run: its result is given to the evaluator in the outer scope. -/
theorem useRule?_run (runs : below.Runs) {items : List Term} {frame : Frame} {journal : Journal}
    {reply : Reply Frame} (used : useRule? setting below items frame journal = some reply) :
    Run frame.outer journal reply.scope.outer reply.journal :=
  (useRule?_takes setting .blind Term.lasts_true below.keeps_true (fun _ _ => trivial)
    frame.allTerms_true used).course.run runs

/-- Putting a query to the facts is a run of the outer scope, whether or not they answer. -/
theorem answer_run (runs : below.Runs) (items : List Term) (frame : Frame) (journal : Journal) :
    Run frame.outer journal (answer setting below items frame journal).scope.outer
      (answer setting below items frame journal).journal :=
  (answer_asks setting .blind Term.lasts_true below.keeps_true (fun _ _ => trivial)
    frame.allTerms_true journal).1.run runs

/-- Answering the nested lists of a query is a run of the outer scope, up to the first that fails.
-/
theorem queryItems_run (runs : below.Runs) (items : List Term) (frame : Frame)
    (journal : Journal) :
    Run frame.outer journal (queryItems setting below items frame journal).2.1.outer
      (queryItems setting below items frame journal).2.2 :=
  (queryItems_asks setting .blind Term.lasts_true below.keeps_true (fun _ _ => trivial)
    frame.allTerms_true journal).1.run runs

/-- The program of a file is reduced while the file counts as being loaded, and the file is taken
off the list afterwards, however that ends. -/
theorem runProgram_run (runs : below.Runs) (path : String) (program : Term) (scope : Scope)
    (journal : Journal) :
    Run scope journal (runProgram setting below path program scope journal).scope
      (runProgram setting below path program scope journal).journal :=
  (Run.note _ _ _ _).trans (.load path (runs program scope _))

/-- After the built-in there may be a rule to use; if the built-in has an answer, or no rule
matches, nothing more happens. -/
theorem dispatch_run_after (runs : below.Runs) (items : List Term) (frame : Frame)
    (journal : Journal) :
    Run (applyShape setting below (Shape.of items) frame journal).scope.outer
      (applyShape setting below (Shape.of items) frame journal).journal
      (dispatch setting below items frame journal).scope.outer
      (dispatch setting below items frame journal).journal := by
  simp only [dispatch]
  split
  · split
    · rename_i used isUsed
      exact useRule?_run setting runs isUsed
    · exact .done _ _
  · exact .done _ _

/-- After its items a list may be applied; if an item has failed or a value is on its way out,
nothing more happens. -/
theorem reduceFrame_run_after (runs : below.Runs) (items : List Term) (outer : Scope)
    (journal : Journal) :
    Run (reduceItems below items [] outer journal).2.1
      (reduceItems below items [] outer journal).2.2
      (reduceFrame setting below items outer journal).scope
      (reduceFrame setting below items outer journal).journal := by
  simp only [reduceFrame]
  split
  · rename_i fault scope' journal' failed
    rw [failed]
    exact .done _ _
  · rename_i value scope' journal' stopped
    rw [stopped]
    exact .done _ _
  · rename_i values scope' journal' whole
    rw [whole]
    have start : Frame.AllTerms (fun _ => True) ⟨scope', .empty⟩ := Frame.allTerms_true _
    exact (dispatch_takes setting .blind Term.lasts_true below.keeps_true (fun _ _ => trivial) start
      rfl journal').course.run runs

end Reduction

open Reduction

/-- Every reduction is a run. The induction is on the depth that is left; one level is a run because
its course is, and folding its scope back changes nothing, since scopes only grow along a run. -/
theorem reduce_runs (setting : Setting) (left : Nat) : Evaluator.Runs (reduce setting left) := by
  induction left with
  | zero =>
    intro term scope journal
    cases term with
    | _ => exact .done _ _
  | succ left inductionHypothesis =>
    intro term scope journal
    cases term with
    | list items =>
      have inFrame := (reduceFrame_course setting .blind (reduce setting left) items scope
        (journal.note setting (.reduce (.list items) (setting.maxDepth - left)))).run
          inductionHypothesis
      simp only [reduce]
      rw [inFrame.extends.merge]
      exact (Run.note _ _ _ _).trans inFrame
    | _ => exact .done _ _

/-- A list leaves the scope of its frame to the caller as it is: there is nothing to fold back. -/
theorem reduce_list (setting : Setting) (left : Nat) (items : List Term) (caller : Scope)
    (journal : Journal) :
    reduce setting (left + 1) (.list items) caller journal =
      reduceFrame setting (reduce setting left) items caller
        (journal.note setting (.reduce (.list items) (setting.maxDepth - left))) := by
  have inFrame := (reduceFrame_course setting .blind (reduce setting left) items caller
    (journal.note setting (.reduce (.list items) (setting.maxDepth - left)))).run
      (reduce_runs setting left)
  simp only [reduce]
  rw [inFrame.extends.merge]

/-- Every reduction keeps every property of terms that lasts. The induction is on the depth that is
left; the course of a level has said that it keeps what the evaluator below keeps. -/
theorem reduce_keeps {holds : Term → Prop} (lasts : Term.Lasts holds) (setting : Setting)
    (left : Nat) : Evaluator.Keeps holds (reduce setting left) := by
  induction left with
  | zero =>
    intro term scope journal given known
    cases term with
    | list items => exact ⟨gives_error _, known⟩
    | _ => exact ⟨gives_ok given, known⟩
  | succ left inductionHypothesis =>
    intro term scope journal given known
    cases term with
    | list items =>
      rw [reduce_list]
      exact (reduceFrame_takes setting .blind lasts inductionHypothesis
        ((lasts.list items).mp given) known _).2
    | _ => exact ⟨gives_ok given, known⟩

/-- So does reducing the program of a file: the journal in which it is reduced plays no role for the
terms. -/
theorem Reduction.runProgram_keeps {holds : Term → Prop} (setting : Setting) {below : Evaluator}
    (keeps : below.Keeps holds) (path : String) {program : Term} {scope : Scope}
    (given : holds program) (known : scope.AllTerms holds) (journal : Journal) :
    (runProgram setting below path program scope journal).Keeps holds (Scope.AllTerms holds) := by
  have inside := keeps program scope
    (((journal.note setting (.load path program.items.length)).record (.loaded path)).enter path)
    given known
  exact ⟨inside.outcome, inside.scope⟩

end TermLang
