import TermLang.Proofs.Reduction.Origins
import TermLang.Proofs.Reduction.Terms

/-!
# The course of a level

What one level of a reduction does to a scope and a journal is made of a few kinds of steps: it
notes events and seeks paths, prints, declares, defines, binds, sends a value on its way out, gives
a term to the evaluator below, lets a query run aside, starts the program of a file, or fails.
`Course` lists them, each with what a watch sees of it, and says with which fault a level ends, if
it does. `Asking` does the same for queries, which do less.

Every function of the reduction is shown here, once, to take such a course, whatever evaluator is
below it and whatever watch is kept; and to keep every property of terms that lasts, which is needed
on the way to say what is given to the evaluator. What holds of all levels is proved elsewhere by
induction on their courses, without looking at the functions again.

A course says nothing about results, except that they keep a property. Two levels with different
evaluators or journals are not compared.
-/

namespace TermLang

/-! ## Lists that add -/

/-- The fact that a list declares when it is applied, told from its items. -/
def declared? : List Term → Option Term
  | [.keyword ".declare", fact] | [.keyword ".dec", fact] => some fact
  | _ => none

/-- The rule that a list defines when it is applied, told from its items. -/
def defined? : List Term → Option Rule
  | [.keyword ".def", pattern, result] => some ⟨pattern, result⟩
  | _ => none

/-- A list that defines does not declare: the keywords differ. So at most one thing is added when a
list is applied. -/
theorem declared?_of_defined {items : List Term} {rule : Rule}
    (defines : defined? items = some rule) : declared? items = none := by
  unfold defined? at defines
  split at defines
  · rfl
  · cases defines

/-- Nor does a list that declares define, for the same reason. -/
theorem defined?_of_declared {items : List Term} {fact : Term}
    (declares : declared? items = some fact) : defined? items = none := by
  cases defines : defined? items with
  | none => rfl
  | some rule =>
    rw [declared?_of_defined defines] at declares
    cases declares

namespace Reduction

/-- A keyword with some operands has a form exactly if it is the keyword of one that takes as many.
No two forms share a keyword, so there is at most one. -/
theorem formOf?_eq_some_iff {keyword : String} {operands : Nat} {form : Form} :
    formOf? keyword operands = some form ↔ form.keyword = keyword ∧ form.arity = operands := by
  rw [formOf?, Option.filter_eq_some_iff, beq_iff_eq]
  refine and_congr_left fun _ => ?_
  constructor
  · intro found
    have same := List.find?_some found
    exact beq_iff_eq.mp same
  · rintro rfl
    exact Form.find?_keyword form

/-- A list has the shape of a form with one operand exactly if it is the keyword of that form with
an operand. This ties the shapes by which lists are applied to the items that are written. -/
theorem shape_unaryForm_iff {items : List Term} {form : Form} {x : Term} :
    Shape.of items = .unaryForm form x ↔
      items = [.keyword form.keyword, x] ∧ form.arity = 1 := by
  constructor
  · intro shape
    unfold Shape.of at shape
    split at shape
    · cases shape
    · cases shape
    · split at shape
      · rename_i keyword form' operand found
        cases shape
        obtain ⟨rfl, one⟩ := formOf?_eq_some_iff.mp found
        exact ⟨rfl, one⟩
      · cases shape
      · cases shape
    · cases shape
  · rintro ⟨rfl, one⟩
    have found : formOf? form.keyword [x].length = some form := formOf?_eq_some_iff.mpr ⟨rfl, one⟩
    simp only [Shape.of, found]

/-- A list has the shape of a form with two operands exactly if it is the keyword of that form with
the operands. -/
theorem shape_binaryForm_iff {items : List Term} {form : Form} {x y : Term} :
    Shape.of items = .binaryForm form x y ↔
      items = [.keyword form.keyword, x, y] ∧ form.arity = 2 := by
  constructor
  · intro shape
    unfold Shape.of at shape
    split at shape
    · cases shape
    · cases shape
    · split at shape
      · cases shape
      · rename_i keyword form' first second found
        cases shape
        obtain ⟨rfl, two⟩ := formOf?_eq_some_iff.mp found
        exact ⟨rfl, two⟩
      · cases shape
    · cases shape
  · rintro ⟨rfl, two⟩
    have found : formOf? form.keyword [x, y].length = some form :=
      formOf?_eq_some_iff.mpr ⟨rfl, two⟩
    simp only [Shape.of, found]

/-- A list declares a fact exactly if it has the shape of one of the two forms that do. What a list
declares is told from its items, what is done from its shape; here the two are compared. -/
theorem declared?_eq_some_iff {items : List Term} {fact : Term} :
    declared? items = some fact ↔ Shape.of items = .unaryForm .declare fact ∨
      Shape.of items = .unaryForm .declareShort fact := by
  rw [shape_unaryForm_iff, shape_unaryForm_iff]
  constructor
  · intro declares
    unfold declared? at declares
    split at declares
    · cases declares
      exact .inl ⟨rfl, rfl⟩
    · cases declares
      exact .inr ⟨rfl, rfl⟩
    · cases declares
  · rintro (⟨rfl, -⟩ | ⟨rfl, -⟩)
    · rfl
    · rfl

/-- A list defines a rule exactly if it has the shape of the form that does, with the two sides of
the rule as its operands. -/
theorem defined?_eq_some_iff {items : List Term} {rule : Rule} :
    defined? items = some rule ↔
      Shape.of items = .binaryForm .define rule.pattern rule.result := by
  rw [shape_binaryForm_iff]
  constructor
  · intro defines
    unfold defined? at defines
    split at defines
    · cases defines
      exact ⟨rfl, rfl⟩
    · cases defines
  · rintro ⟨rfl, -⟩
    rfl

/-- Whether a list of this shape adds a fact or a rule when it is applied. -/
def Shape.adds : Shape → Bool
  | .unaryForm .declare _ | .unaryForm .declareShort _ | .binaryForm .define _ _ => true
  | _ => false

/-- A list of any other shape neither declares nor defines, so that applying it may do anything but
that. -/
theorem nothing_of_adds {items : List Term} (adds : (Shape.of items).adds = false) :
    declared? items = none ∧ defined? items = none := by
  constructor
  · refine Option.eq_none_iff_forall_ne_some.mpr fun fact declares => ?_
    rcases declared?_eq_some_iff.mp declares with shape | shape
    · rw [shape] at adds
      cases adds
    · rw [shape] at adds
      cases adds
  · refine Option.eq_none_iff_forall_ne_some.mpr fun rule defines => ?_
    rw [defined?_eq_some_iff.mp defines] at adds
    cases adds

/-! ## Courses -/

/-- The fault with which an outcome ends, if it does. -/
def failure {α : Type} : Except Fault α → Option Fault
  | .ok _ => none
  | .error fault => some fault

/-- An outcome is the fault with which it ends, if it ends with one. -/
theorem failure_eq_some_iff {α : Type} {outcome : Except Fault α} {fault : Fault} :
    failure outcome = some fault ↔ outcome = .error fault := by
  cases outcome with
  | ok value => simp [failure]
  | error other => simp [failure]

/-- The fault with which the items of a list end, if they do. -/
def Items.failure : Items → Option Fault
  | .failed fault => some fault
  | .reduced _ | .stopped _ => none

end Reduction

open Reduction

variable {α : Type}

/-- What a query does to the frame of its list, what is seen of it, and the fault with which it
ends, if it does. -/
inductive Asking (below : Evaluator) (watch : Watch α) :
    Frame → Journal → List α → Option Fault → Frame → Journal → Prop where
  /-- Events are noted. -/
  | noted (frame : Frame) (journal : Journal) (trace : List Event) :
      Asking below watch frame journal [] none frame { journal with trace }
  /-- A term is reduced in the inner scope, and what leaves that scope leaves the outer one. -/
  | aside (term : Term) (frame : Frame) (journal : Journal) :
      Asking below watch frame journal (watch.aside term frame.inner journal)
        (failure (below term frame.inner journal).outcome)
        ⟨frame.outer.raise (below term frame.inner journal).scope.leaving,
          { (below term frame.inner journal).scope with leaving := none }⟩
        (below term frame.inner journal).journal
  | trans {frame frame' frame'' : Frame} {journal journal' journal'' : Journal}
      {seen later : List α} {failed : Option Fault}
      (first : Asking below watch frame journal seen none frame' journal')
      (second : Asking below watch frame' journal' later failed frame'' journal'') :
      Asking below watch frame journal (seen ++ later) failed frame'' journal''

/-- What one level of a reduction does to a scope and a journal, what is seen of it, and the fault
with which it ends, if it does. -/
inductive Course (setting : Setting) (below : Evaluator) (watch : Watch α) :
    Scope → Journal → List α → Option Fault → Scope → Journal → Prop where
  /-- Events are noted and paths are sought; nothing else happens. -/
  | quiet (scope : Scope) (journal : Journal) (trace : List Event) (sought : List String) :
      Course setting below watch scope journal [] none scope { journal with trace, sought }
  /-- The level fails by itself. -/
  | fails (scope : Scope) {journal : Journal} {fault : Fault}
      (arises : fault.Arises setting journal.loading) :
      Course setting below watch scope journal [] (some fault) scope journal
  /-- A list is applied that neither declares nor defines. What it does otherwise comes after. -/
  | apply {items : List Term} (nothing : declared? items = none ∧ defined? items = none)
      (scope : Scope) (journal : Journal) :
      Course setting below watch scope journal (watch.apply items) none scope journal
  /-- A list is applied that declares. -/
  | declare {items : List Term} {fact : Term} (declares : declared? items = some fact)
      (scope : Scope) (journal : Journal) :
      Course setting below watch scope journal (watch.apply items) none (scope.declare fact)
        (journal.record (.declared fact))
  /-- A list is applied that defines. -/
  | define {items : List Term} {rule : Rule} (defines : defined? items = some rule)
      (scope : Scope) (journal : Journal) :
      Course setting below watch scope journal (watch.apply items) none (scope.define rule)
        (journal.record (.defined rule))
  | print (scope : Scope) (journal : Journal) (line : String) :
      Course setting below watch scope journal [] none scope (journal.print line)
  | bind (scope : Scope) (journal : Journal) (name : String) (term : Term) :
      Course setting below watch scope journal [] none (scope.bind name term)
        (journal.record (.bound name term))
  | leave (scope : Scope) (journal : Journal) (value : Term) :
      Course setting below watch scope journal [] none (scope.leave value)
        (journal.record (.returned value))
  /-- A term is given to the evaluator below. -/
  | call (term : Term) (scope : Scope) (journal : Journal) :
      Course setting below watch scope journal (watch.call term scope journal)
        (failure (below term scope journal).outcome) (below term scope journal).scope
        (below term scope journal).journal
  /-- A query is answered. Its frame starts with no value on its way out of the inner scope. -/
  | ask {frame frame' : Frame} {journal journal' : Journal} {seen : List α} {failed : Option Fault}
      (calm : frame.inner.leaving = none)
      (asking : Asking below watch frame journal seen failed frame' journal') :
      Course setting below watch frame.outer journal seen failed frame'.outer journal'
  /-- The program of a file that was found is given to the evaluator below. -/
  | load {path : String} {content : List UInt8} (program : Term) (scope : Scope)
      (journal : Journal) (found : setting.Finds journal.loading path)
      (isContent : setting.read path = .ok content) :
      Course setting below watch scope journal
        (watch.program path program scope ((journal.record (.loaded path)).enter path))
        (failure
          (below program scope ((journal.record (.loaded path)).enter path)).outcome)
        (below program scope ((journal.record (.loaded path)).enter path)).scope
        (below program scope ((journal.record (.loaded path)).enter path)).journal.exit
  | trans {scope scope' scope'' : Scope} {journal journal' journal'' : Journal}
      {seen later : List α} {failed : Option Fault}
      (first : Course setting below watch scope journal seen none scope' journal')
      (second : Course setting below watch scope' journal' later failed scope'' journal'') :
      Course setting below watch scope journal (seen ++ later) failed scope'' journal''

variable {setting : Setting} {below : Evaluator} {watch : Watch α}

/-- Noting an event changes at most the trace, and not even that if the setting asks for none. -/
theorem Journal.note_eq (journal : Journal) (setting : Setting) (event : Event) :
    ∃ trace, journal.note setting event = { journal with trace } := by
  unfold note
  split
  · exact ⟨_, rfl⟩
  · exact ⟨journal.trace, rfl⟩

/-- Noting an event prints nothing: traces go another way than the output. -/
@[simp]
theorem Journal.note_printed (journal : Journal) (setting : Setting) (event : Event) :
    (journal.note setting event).printed = journal.printed := by
  obtain ⟨trace, noted⟩ := journal.note_eq setting event
  rw [noted]

/-- Noting an event loads nothing, so the files that are being loaded stay as they are. -/
@[simp]
theorem Journal.note_loading (journal : Journal) (setting : Setting) (event : Event) :
    (journal.note setting event).loading = journal.loading := by
  obtain ⟨trace, noted⟩ := journal.note_eq setting event
  rw [noted]

/-- Noting an event is no act: what is recorded does not depend on whether a trace is kept. -/
@[simp]
theorem Journal.note_acts (journal : Journal) (setting : Setting) (event : Event) :
    (journal.note setting event).acts = journal.acts := by
  obtain ⟨trace, noted⟩ := journal.note_eq setting event
  rw [noted]

namespace Asking

variable {frame frame' : Frame} {journal journal' : Journal} {seen : List α}
  {failed : Option Fault}

/-- A query that does nothing, which an atom is. -/
theorem done (frame : Frame) (journal : Journal) :
    Asking below watch frame journal [] none frame journal :=
  .noted frame journal journal.trace

/-- A query may note an event, and its frame stays. -/
theorem note (setting : Setting) (frame : Frame) (journal : Journal) (event : Event) :
    Asking below watch frame journal [] none frame (journal.note setting event) := by
  obtain ⟨trace, noted⟩ := journal.note_eq setting event
  rw [noted]
  exact .noted frame journal trace

/-- Nothing is seen after the end. Where a function stops early, the list of what is seen has
nothing more to add. -/
theorem ended (asking : Asking below watch frame journal seen failed frame' journal') :
    Asking below watch frame journal (seen ++ []) failed frame' journal' := by
  rwa [List.append_nil]

end Asking

namespace Course

variable {scope scope' : Scope} {journal journal' : Journal} {seen : List α}
  {failed : Option Fault}

/-- A level that does nothing takes the course of a step that notes nothing. -/
theorem done (scope : Scope) (journal : Journal) :
    Course setting below watch scope journal [] none scope journal :=
  .quiet scope journal journal.trace journal.sought

/-- A level may note an event, and its scope stays. -/
theorem note (scope : Scope) (journal : Journal) (event : Event) :
    Course setting below watch scope journal [] none scope (journal.note setting event) := by
  obtain ⟨trace, noted⟩ := journal.note_eq setting event
  rw [noted]
  exact .quiet scope journal trace journal.sought

/-- An outcome that was computed, without any further step, is a result or a fault of the level. The
fault has to be one that can arise. -/
theorem computed {β : Type} (scope : Scope) {journal : Journal} {outcome : Except Fault β}
    (raises : Raises setting journal.loading outcome) :
    Course setting below watch scope journal [] (failure outcome) scope journal := by
  cases outcome with
  | ok value => exact .done scope journal
  | error fault => exact .fails scope (raises fault rfl)

/-- Nothing is seen after the end, as with queries. -/
theorem ended (course : Course setting below watch scope journal seen failed scope' journal') :
    Course setting below watch scope journal (seen ++ []) failed scope' journal' := by
  rwa [List.append_nil]

end Course

/-! ## Every function of the reduction takes a course -/

variable {holds : Term → Prop}

/-- The result has a property, and so has all that the reply leaves behind. -/
structure Reply.Keeps {σ : Type} (holds : Term → Prop) (known : σ → Prop) (reply : Reply σ) :
    Prop where
  outcome : Gives holds reply.outcome
  scope : known reply.scope

/-- An evaluator keeps a property of terms: where the term and the scope have it, the reply has. -/
def Evaluator.Keeps (holds : Term → Prop) (below : Evaluator) : Prop :=
  ∀ term scope journal, holds term → scope.AllTerms holds →
    (below term scope journal).Keeps holds (Scope.AllTerms holds)

/-- Every evaluator keeps the property that all terms have. So a course can be had without knowing
anything about terms. -/
theorem Evaluator.keeps_true (below : Evaluator) : below.Keeps fun _ => True :=
  fun _ _ _ _ _ => ⟨fun _ _ => trivial, Scope.allTerms_true _⟩

/-- A function of a level that works on a frame has taken a course to a reply that keeps a property.
The result may have a weaker one. -/
structure Takes (setting : Setting) (below : Evaluator) (watch : Watch α)
    (holds result : Term → Prop) (frame : Frame) (journal : Journal) (seen : List α)
    (reply : Reply Frame) : Prop where
  course : Course setting below watch frame.outer journal seen (failure reply.outcome)
    reply.scope.outer reply.journal
  keeps : reply.Keeps result (Frame.AllTerms holds)

namespace Takes

variable {result : Term → Prop} {frame frame' : Frame} {journal journal' : Journal}
  {seen later : List α} {reply : Reply Frame}

/-- A course may have started earlier, with steps that do not fail and leave a frame whose outer
scope is that of the later one. -/
theorem since
    (first : Course setting below watch frame.outer journal seen none frame'.outer journal')
    (takes : Takes setting below watch holds result frame' journal' later reply) :
    Takes setting below watch holds result frame journal (seen ++ later) reply :=
  ⟨first.trans takes.course, takes.keeps⟩

/-- A computed outcome leaves the frame alone, so the frame keeps what it had. -/
theorem computed {outcome : Except Fault Term} (raises : Raises setting journal.loading outcome)
    (gives : Gives result outcome) (known : frame.AllTerms holds) :
    Takes setting below watch holds result frame journal [] ⟨outcome, frame, journal⟩ :=
  ⟨.computed frame.outer raises, gives, known⟩

/-- So does a result, which cannot fail. -/
theorem gives {value : Term} (given : result value) (known : frame.AllTerms holds)
    (journal : Journal) :
    Takes setting below watch holds result frame journal [] ⟨.ok value, frame, journal⟩ :=
  .computed (raises_ok value) (gives_ok given) known

/-- A fault of the level itself leaves it alone, too, and has no result of which a property would
have to hold. -/
theorem fails {fault : Fault} (arises : fault.Arises setting journal.loading)
    (known : frame.AllTerms holds) :
    Takes setting below watch holds result frame journal [] ⟨.error fault, frame, journal⟩ :=
  .computed (raises_error arises) (gives_error fault) known

/-- Nothing is seen after the end, as with courses. -/
theorem ended (takes : Takes setting below watch holds result frame journal seen reply) :
    Takes setting below watch holds result frame journal (seen ++ []) reply :=
  ⟨takes.course.ended, takes.keeps⟩

/-- A weaker property of the result is kept as well. Forms with one operand always have an answer,
while lists in general may have none. -/
theorem mono {weaker : Term → Prop}
    (takes : Takes setting below watch holds result frame journal seen reply)
    (weaken : ∀ value, result value → weaker value) :
    Takes setting below watch holds weaker frame journal seen reply :=
  ⟨takes.course, takes.keeps.outcome.mono weaken, takes.keeps.scope⟩

end Takes

namespace Reduction

variable (setting : Setting) (watch : Watch α)

/-- What became of the items of a list has a property. -/
def Items.AllTerms (holds : Term → Prop) : Items → Prop
  | .reduced values => ∀ value ∈ values, holds value
  | .stopped value => holds value
  | .failed _ => True

/-- Items are given to the evaluator one after the other, up to the first that fails or sends a
value out. The induction is on the items; the scope and the journal go through. -/
theorem reduceItems_takes (keeps : below.Keeps holds) {items done : List Term} {scope : Scope}
    (given : ∀ item ∈ items, holds item) (before : ∀ value ∈ done, holds value)
    (known : scope.AllTerms holds) (journal : Journal) :
    Course setting below watch scope journal (itemsSeen below watch items scope journal)
        (reduceItems below items done scope journal).1.failure
        (reduceItems below items done scope journal).2.1
        (reduceItems below items done scope journal).2.2 ∧
      (reduceItems below items done scope journal).1.AllTerms holds ∧
      (reduceItems below items done scope journal).2.1.AllTerms holds := by
  induction items generalizing done scope journal with
  | nil =>
    refine ⟨.done scope journal, ?_, known⟩
    intro value member
    exact before value (List.mem_reverse.mp member)
  | cons item rest inductionHypothesis =>
    obtain ⟨itemGiven, restGiven⟩ := List.forall_mem_cons.mp given
    simp only [reduceItems, itemsSeen]
    cases leaving : scope.leaving with
    | some value => exact ⟨.done scope journal, known.leaving value leaving, known⟩
    | none =>
      have called : Course setting below watch scope journal _ _ _ _ := .call item scope journal
      have reply := keeps item scope journal itemGiven known
      dsimp only
      cases isOutcome : (below item scope journal).outcome with
      | error fault =>
        rw [isOutcome] at called
        exact ⟨called.ended, trivial, reply.scope⟩
      | ok value =>
        rw [isOutcome] at called
        have after : ∀ other ∈ value :: done, holds other :=
          List.forall_mem_cons.mpr ⟨reply.outcome value isOutcome, before⟩
        obtain ⟨others, values, scopes⟩ := inductionHypothesis restGiven after reply.scope
          (below item scope journal).journal
        exact ⟨called.trans others, values, scopes⟩

/-- The result of a rule is given to the evaluator, in the outer scope. It is made of parts of the
list and of the right side of the rule, so it has the property that these have. -/
theorem useRule?_takes (lasts : Term.Lasts holds) (keeps : below.Keeps holds) {items : List Term}
    {frame : Frame} {journal : Journal} (given : ∀ item ∈ items, holds item)
    (known : frame.AllTerms holds) {reply : Reply Frame}
    (used : useRule? setting below items frame journal = some reply) :
    Takes setting below watch holds holds frame journal
      (ruleSeen setting watch items frame journal) reply := by
  simp only [useRule?, Option.map_eq_some_iff] at used
  obtain ⟨result, fired, rfl⟩ := used
  have resultGiven := Rule.firstResult?_holds lasts known.outer.rules
    ((lasts.list items).mpr given) fired
  have kept := keeps result frame.outer (journal.note setting (.ruleUsed (.list items) result))
    resultGiven known.outer
  simp only [ruleSeen, fired]
  have noted : Course setting below watch frame.outer journal [] none frame.outer
      (journal.note setting (.ruleUsed (.list items) result)) := .note _ _ _
  exact ⟨noted.trans (.call result frame.outer _), kept.outcome, kept.scope, known.inner⟩

/-- A query without an answer is reduced as itself or as a union, which the property lasts for. The
keyword of a union is among the atoms that a reduction makes of its own. -/
theorem fallback_holds (lasts : Term.Lasts holds) {items : List Term}
    (given : ∀ item ∈ items, holds item) : holds (fallback items) := by
  unfold fallback
  split
  · rename_i x y
    rw [lasts.list]
    intro item member
    rcases List.mem_cons.mp member with rfl | later
    · exact lasts.union
    · exact given item (List.mem_cons_of_mem _ later)
  · exact (lasts.list items).mpr given

/-- Preparing a query only notes events, one or two of them. -/
theorem queryJournal_asking (items : List Term) (frame : Frame) (journal : Journal) :
    Asking below watch frame journal [] none frame (queryJournal setting items frame journal) := by
  simp only [queryJournal]
  split
  · exact (Asking.note setting frame journal _).trans (.note setting frame _ _)
  · exact .note setting frame journal _

/-- A query that facts answer is noted; any other is reduced aside. What it leaves in the inner
scope keeps the property, and what it raises came from there. -/
theorem answer_asks (lasts : Term.Lasts holds) (keeps : below.Keeps holds) {items : List Term}
    {frame : Frame} (given : ∀ item ∈ items, holds item) (known : frame.AllTerms holds)
    (journal : Journal) :
    Asking below watch frame journal (answerSeen setting watch items frame journal)
        (failure (answer setting below items frame journal).outcome)
        (answer setting below items frame journal).scope
        (answer setting below items frame journal).journal ∧
      (answer setting below items frame journal).Keeps holds (Frame.AllTerms holds) := by
  cases answered : (Fact.answers items (frame.outer.facts ++ frame.inner.facts)).isEmpty with
  | true =>
    rw [answer_of_none setting answered, answerSeen, if_pos answered]
    have kept := keeps (fallback items) frame.inner (queryJournal setting items frame journal)
      (fallback_holds lasts given) known.inner
    have prepared : Asking below watch frame journal [] none frame
        (queryJournal setting items frame journal) := queryJournal_asking setting watch items _ _
    exact ⟨prepared.trans (.aside _ _ _), kept.outcome, known.outer.raise kept.scope.leaving,
      kept.scope.stay⟩
  | false =>
    have facts : ∀ fact ∈ frame.outer.facts ++ frame.inner.facts, holds fact := by
      intro fact member
      exact (List.mem_append.mp member).elim (known.outer.facts fact) (known.inner.facts fact)
    simp only [answer, answerSeen, answered, Bool.false_eq_true, if_false]
    exact ⟨.note setting frame journal _, gives_ok (Fact.answers_hold lasts given facts), known⟩

mutual

/-- A query asks its nested lists first and then itself, unless one of them fails. The induction is
on the query, together with the lists of its items. -/
theorem query_asks (lasts : Term.Lasts holds) (keeps : below.Keeps holds) {term : Term}
    {frame : Frame} (given : holds term) (known : frame.AllTerms holds) (journal : Journal) :
    Asking below watch frame journal (querySeen setting below watch term frame journal)
        (failure (query setting below term frame journal).outcome)
        (query setting below term frame journal).scope
        (query setting below term frame journal).journal ∧
      (query setting below term frame journal).Keeps holds (Frame.AllTerms holds) := by
  cases term with
  | list items =>
    have nested := queryItems_asks lasts keeps ((lasts.list items).mp given) known journal
    simp only [query, querySeen]
    generalize queryItems setting below items frame journal = result at nested ⊢
    obtain ⟨outcome, frame', journal'⟩ := result
    obtain ⟨asked, values, frames⟩ := nested
    cases outcome with
    | error fault => exact ⟨asked.ended, gives_error fault, frames⟩
    | ok items' =>
      obtain ⟨answers, kept⟩ :=
        answer_asks setting watch lasts keeps (values items' rfl) frames journal'
      exact ⟨asked.trans answers, kept⟩
  | _ => exact ⟨.done frame journal, gives_ok given, known⟩

/-- The nested lists of a query ask one after the other, up to the first that fails, each in the
frame that the one before has left. -/
theorem queryItems_asks (lasts : Term.Lasts holds) (keeps : below.Keeps holds) {items : List Term}
    {frame : Frame} (given : ∀ item ∈ items, holds item) (known : frame.AllTerms holds)
    (journal : Journal) :
    Asking below watch frame journal (queryItemsSeen setting below watch items frame journal)
        (failure (queryItems setting below items frame journal).1)
        (queryItems setting below items frame journal).2.1
        (queryItems setting below items frame journal).2.2 ∧
      (∀ values, (queryItems setting below items frame journal).1 = .ok values →
        ∀ value ∈ values, holds value) ∧
      (queryItems setting below items frame journal).2.1.AllTerms holds := by
  cases items with
  | nil =>
    refine ⟨.done frame journal, ?_, known⟩
    intro values same
    cases same
    exact given
  | cons item rest =>
    obtain ⟨itemGiven, restGiven⟩ := List.forall_mem_cons.mp given
    have first := query_asks lasts keeps itemGiven known journal
    simp only [queryItems, queryItemsSeen]
    generalize query setting below item frame journal = reply at first ⊢
    obtain ⟨outcome, frame', journal'⟩ := reply
    obtain ⟨asked, kept⟩ := first
    cases outcome with
    | error fault => exact ⟨asked.ended, by simp, kept.scope⟩
    | ok value =>
      have others := queryItems_asks lasts keeps restGiven kept.scope journal'
      dsimp only
      generalize queryItems setting below rest frame' journal' = result at others ⊢
      obtain ⟨outcomes, frame'', journal''⟩ := result
      obtain ⟨further, values, frames⟩ := others
      cases outcomes with
      | error fault => exact ⟨asked.trans further, by simp, frames⟩
      | ok values' =>
        refine ⟨asked.trans further, ?_, frames⟩
        intro all same
        cases same
        exact List.forall_mem_cons.mpr ⟨kept.outcome value rfl, values values' rfl⟩

end

/-- A program that a file holds has the property, since it was read. A property that lasts is one
that all programs have. -/
theorem openProgram_holds (lasts : Term.Lasts holds) {path : String} {source : List Char}
    {journal : Journal} {program : Term} (opened : openProgram path source journal = .ok program) :
    holds program := by
  unfold openProgram at opened
  split at opened
  · cases opened
  · split at opened
    · cases opened
    · rename_i read
      cases opened
      exact lasts.read read

/-- A load seeks paths and gives the program that it finds to the evaluator, if there is one.

Proof: along the ways in which a load can end early. It finds no file or cannot read it, and is
false; it cannot open the program, and fails; or else the file was found and is not being loaded
yet, as the step of a course asks. -/
theorem load_takes (lasts : Term.Lasts holds) (keeps : below.Keeps holds) (spec : String)
    {frame : Frame} (known : frame.AllTerms holds) (journal : Journal) :
    Takes setting below watch holds holds frame journal
      (loadSeen setting watch spec frame journal) (load setting below spec frame journal) := by
  have sought : Course setting below watch frame.outer journal [] none frame.outer
      (journal.seek (candidates setting journal.loading spec)) :=
    .quiet frame.outer journal journal.trace _
  have loading : (journal.seek (candidates setting journal.loading spec)).loading =
      journal.loading := rfl
  simp only [load, loadSeen, loading]
  generalize journal.seek (candidates setting journal.loading spec) = journal' at sought loading ⊢
  refine .since sought ?_
  cases resolved : resolve setting journal.loading spec with
  | none =>
    exact .since (.note frame.outer journal' _) (.gives (lasts.bool false) known _)
  | some path =>
    dsimp only
    cases isContent : setting.read path with
    | error _ => exact .gives (lasts.bool false) known journal'
    | ok content =>
      have opens : Raises setting journal'.loading
          (openProgram path (Text.decode content).chars journal') :=
        openProgram_raises ⟨spec, loading ▸ resolved⟩ isContent
      dsimp only
      cases opened : openProgram path (Text.decode content).chars journal' with
      | error fault => exact .fails (opens fault opened) known
      | ok program =>
        have noted : Course setting below watch frame.outer journal' [] none frame.outer
            (journal'.note setting (.load path program.items.length)) := .note _ _ _
        -- The file was found before the event was noted, which changes nothing that is loaded.
        have found : setting.Finds
            (journal'.note setting (.load path program.items.length)).loading path := by
          obtain ⟨trace, isNoted⟩ := journal'.note_eq setting (.load path program.items.length)
          rw [isNoted]
          exact ⟨⟨spec, loading ▸ resolved⟩, not_mem_of_openProgram opened⟩
        have kept := keeps program frame.outer
          (((journal'.note setting (.load path program.items.length)).record (.loaded path)).enter
            path) (openProgram_holds lasts opened) known.outer
        exact ⟨noted.trans (.load program frame.outer _ found isContent), kept.outcome, kept.scope,
          known.inner⟩

/-- An item from one end of a list has the property with the list; of anything else there is no
result. -/
theorem endItem_gives (lasts : Term.Lasts holds) (form : Form) {x : Term} (given : holds x) :
    Gives holds (endItem form x) := by
  unfold endItem
  split
  · exact gives_error _
  · rename_i first rest
    rw [lasts.list] at given
    apply gives_ok
    split
    · exact given first List.mem_cons_self
    · exact given _ (List.getLast_mem _)
  · exact gives_error _

/-- A list with the shape of a form with one operand is applied. Only the two forms that declare do
so, and only loads and queries give anything to the evaluator.

Proof: by the form. The step of being applied comes first in each case, as one that declares or as
one that adds nothing, and what the form does follows it. -/
theorem applyUnary_takes (lasts : Term.Lasts holds) (keeps : below.Keeps holds) {items : List Term}
    {form : Form} {x : Term} (shape : Shape.of items = .unaryForm form x) {frame : Frame}
    (given : holds x) (known : frame.AllTerms holds) (calm : frame.inner.leaving = none)
    (journal : Journal) :
    Takes setting below watch holds holds frame journal
      (watch.apply items ++ shapeSeen setting below watch (.unaryForm form x) frame journal)
      (applyUnary setting below form x frame journal) := by
  have declared (declares : declared? items = some x) :
      Takes setting below watch holds holds frame journal (watch.apply items ++ [])
        (declare setting x frame journal) := by
    have noted : Course setting below watch frame.outer journal [] none frame.outer
        (journal.note setting (.declare x (frame.outer.declare x).facts.length)) := .note _ _ _
    exact ⟨(noted.trans (.declare declares _ _)).ended, gives_ok (lasts.bool true),
      known.outer.declare given, known.inner⟩
  have applied (adds : Shape.adds (.unaryForm form x) = false) :
      Course setting below watch frame.outer journal (watch.apply items) none frame.outer journal :=
    .apply (nothing_of_adds (shape ▸ adds)) frame.outer journal
  cases form with
  | declare => exact declared (declared?_eq_some_iff.mpr (.inl shape))
  | declareShort => exact declared (declared?_eq_some_iff.mpr (.inr shape))
  | print =>
    refine .since (applied rfl) ?_
    simp only [applyUnary]
    split
    · exact .fails .unwritten known
    · exact ⟨.print _ _ _, gives_ok (lasts.bool true), known⟩
  | leave =>
    exact .since (applied rfl)
      ⟨.leave _ _ _, gives_ok given, known.outer.leave given, known.inner⟩
  | load =>
    refine .since (applied rfl) ?_
    cases x with
    | str spec => exact load_takes setting watch lasts keeps spec known journal
    | _ => exact .fails (.eval _ _) known
  | lookUp =>
    refine .since (applied rfl) (.gives ?_ known journal)
    rw [lasts.list]
    intro entry member
    obtain ⟨values, found, rfl⟩ := List.mem_map.mp member
    obtain ⟨fact, isFact, matched⟩ := List.mem_filterMap.mp found
    exact Fact.match?_holds lasts given (known.outer.facts fact isFact) matched
  | ask =>
    obtain ⟨asks, kept⟩ := query_asks setting watch lasts keeps given known journal
    exact .since (applied rfl) ⟨.ask calm asks, kept⟩
  | head =>
    exact .since (applied rfl)
      (.computed (endItem_raises journal.loading .head x) (endItem_gives lasts .head given) known)
  | back =>
    exact .since (applied rfl)
      (.computed (endItem_raises journal.loading .back x) (endItem_gives lasts .back given) known)
  | _ => exact .since (applied rfl) (.fails (.eval _ _) known)

/-- A list with the shape of a form with two operands is applied. It may have no answer, and only
one form defines. None of them gives anything to the evaluator, so nothing is seen but that the list
is applied. -/
theorem applyBinary_takes (lasts : Term.Lasts holds) {items : List Term} {form : Form} {a b : Term}
    (shape : Shape.of items = .binaryForm form a b) {frame : Frame} (aGiven : holds a)
    (bGiven : holds b) (known : frame.AllTerms holds) (journal : Journal) :
    Takes setting below watch holds (fun value => value = .unknown ∨ holds value) frame journal
      (watch.apply items ++ []) (applyBinary setting form a b frame journal) := by
  have applied (adds : Shape.adds (.binaryForm form a b) = false) :
      Course setting below watch frame.outer journal (watch.apply items) none frame.outer journal :=
    .apply (nothing_of_adds (shape ▸ adds)) frame.outer journal
  by_cases defines : form = .define
  · subst defines
    have isDefined : defined? items = some ⟨a, b⟩ := defined?_eq_some_iff.mpr shape
    have noted : Course setting below watch frame.outer journal [] none frame.outer
        (journal.note setting (.define a b)) := .note _ _ _
    exact ⟨(noted.trans (.define isDefined _ _)).ended, gives_ok (.inr (lasts.bool true)),
      known.outer.define ⟨aGiven, bGiven⟩, known.inner⟩
  · have idle : Shape.adds (.binaryForm form a b) = false := by
      cases form with
      | define => exact absurd rfl defines
      | _ => rfl
    refine .since (applied idle) ?_
    unfold applyBinary
    split
    · exact .gives (.inr (lasts.bool _)) known journal
    · exact .gives (.inr (lasts.bool _)) known journal
    · rename_i xs ys
      refine .gives (.inr ?_) known journal
      rw [lasts.list] at aGiven bGiven ⊢
      intro item member
      exact (List.mem_append.mp member).elim (aGiven item) (bGiven item)
    · exact absurd rfl defines
    · exact ⟨.bind _ _ _ _, gives_ok (.inr (lasts.bool true)), known.outer.bind _ bGiven,
        known.inner⟩
    · exact .gives (.inl rfl) known journal

/-- The parts of a shape have a property. -/
def Shape.AllTerms (holds : Term → Prop) : Shape → Prop
  | .binaryOp _ x y | .binaryForm _ x y => holds x ∧ holds y
  | .unaryOp _ x | .unaryForm _ x => holds x
  | .formless _ _ | .data => True

/-- The operands of a list are among its items, so they have the property that the items have. -/
theorem shape_allTerms {items : List Term} (given : ∀ item ∈ items, holds item) :
    (Shape.of items).AllTerms holds := by
  unfold Shape.of
  split
  · exact ⟨given _ (by simp), given _ (by simp)⟩
  · exact given _ (by simp)
  · split
    · exact given _ (by simp)
    · exact ⟨given _ (by simp), given _ (by simp)⟩
    · trivial
  · trivial

/-- A list is applied by its shape. The answer may be the unknown, which no property has to hold of:
it is not a term of any source. -/
theorem applyShape_takes (lasts : Term.Lasts holds) (keeps : below.Keeps holds) {items : List Term}
    {frame : Frame} (given : ∀ item ∈ items, holds item) (known : frame.AllTerms holds)
    (calm : frame.inner.leaving = none) (journal : Journal) :
    Takes setting below watch holds (fun value => value = .unknown ∨ holds value) frame journal
      (watch.apply items ++ shapeSeen setting below watch (Shape.of items) frame journal)
      (applyShape setting below (Shape.of items) frame journal) := by
  have parts := shape_allTerms given
  have applied (adds : (Shape.of items).adds = false) :
      Course setting below watch frame.outer journal (watch.apply items) none frame.outer journal :=
    .apply (nothing_of_adds adds) frame.outer journal
  generalize isShape : Shape.of items = shape at parts applied ⊢
  cases shape with
  | unaryForm form x =>
    have takes := applyUnary_takes setting watch lasts keeps isShape parts known calm journal
    exact takes.mono fun _ => .inr
  | binaryForm form x y =>
    exact applyBinary_takes setting watch lasts isShape parts.1 parts.2 known journal
  | binaryOp symbol x y =>
    exact .since (applied rfl) (.gives (Operator.binary_holds lasts symbol x y) known journal)
  | unaryOp symbol x =>
    exact .since (applied rfl) (.gives (Operator.unary_holds lasts symbol x) known journal)
  | formless keyword operands => exact .since (applied rfl) (.gives (.inl rfl) known journal)
  | data => exact .since (applied rfl) (.gives (.inl rfl) known journal)

/-- A list that stays as it is keeps the property, or fails for want of a form. -/
theorem unreduced_takes (lasts : Term.Lasts holds) (shape : Shape) {items : List Term}
    {frame : Frame} (given : ∀ item ∈ items, holds item) (known : frame.AllTerms holds)
    (journal : Journal) :
    Takes setting below watch holds holds frame journal []
      ⟨unreduced shape items, frame, journal⟩ := by
  unfold unreduced
  split
  · exact .fails (.eval _ _) known
  · exact .gives ((lasts.list items).mpr given) known journal

/-- A list is applied by its shape, and by a rule if that has no answer. The unknown goes no
further: a rule or the list itself takes its place.

Proof: the course of the shape comes first. If it has ended with the unknown, the course of the rule
follows, or none; otherwise nothing more happens, and the result is known to have the property. -/
theorem dispatch_takes (lasts : Term.Lasts holds) (keeps : below.Keeps holds) {items : List Term}
    {frame : Frame} (given : ∀ item ∈ items, holds item) (known : frame.AllTerms holds)
    (calm : frame.inner.leaving = none) (journal : Journal) :
    Takes setting below watch holds holds frame journal
      (dispatchSeen setting below watch items frame journal)
      (dispatch setting below items frame journal) := by
  have applied := applyShape_takes setting watch lasts keeps given known calm journal
  simp only [dispatch, dispatchSeen]
  generalize applyShape setting below (Shape.of items) frame journal = reply at applied ⊢
  obtain ⟨outcome, frame', journal'⟩ := reply
  obtain ⟨course, gives, frames⟩ := applied
  by_cases unknown : outcome = .ok .unknown
  · subst unknown
    refine .since course ?_
    dsimp only
    cases isUsed : useRule? setting below items frame' journal' with
    | some used => exact useRule?_takes setting watch lasts keeps given frames isUsed
    | none =>
      have nothing : ruleSeen setting watch items frame' journal' = [] := by
        rw [useRule?, Option.map_eq_none_iff] at isUsed
        simp only [ruleSeen, isUsed]
      rw [nothing]
      exact unreduced_takes setting watch lasts _ given frames journal'
  · have known' : Gives holds outcome := by
      intro value isValue
      rcases gives value isValue with isUnknown | holdsValue
      · exact absurd (isUnknown ▸ isValue) unknown
      · exact holdsValue
    have takes : Takes setting below watch holds holds frame journal _
        ⟨outcome, frame', journal'⟩ := ⟨course, known', frames⟩
    cases outcome with
    | error fault => exact takes.ended
    | ok value =>
      cases value with
      | unknown => exact absurd rfl unknown
      | _ => exact takes.ended

/-- A value on its way out takes the place of a result, and of no fault. So a level fails exactly if
applying its list does. -/
theorem failure_overriding (scope : Scope) (outcome : Except Fault Term) :
    failure (overriding scope outcome) = failure outcome := by
  unfold overriding
  split
  · rfl
  · rfl

/-- Items, then the list of their results: one level, from the caller's scope to what it leaves
there. The inner scope of the frame starts empty, so no value is on its way out of it. -/
theorem reduceFrame_takes (lasts : Term.Lasts holds) (keeps : below.Keeps holds)
    {items : List Term} {outer : Scope} (given : ∀ item ∈ items, holds item)
    (known : outer.AllTerms holds) (journal : Journal) :
    Course setting below watch outer journal (frameSeen setting below watch items outer journal)
        (failure (reduceFrame setting below items outer journal).outcome)
        (reduceFrame setting below items outer journal).scope
        (reduceFrame setting below items outer journal).journal ∧
      (reduceFrame setting below items outer journal).Keeps holds (Scope.AllTerms holds) := by
  have nothing : ∀ value ∈ ([] : List Term), holds value := by simp
  have reduced := reduceItems_takes setting watch keeps given nothing known journal
  simp only [reduceFrame, frameSeen]
  generalize reduceItems below items [] outer journal = result at reduced ⊢
  obtain ⟨became, scope', journal'⟩ := result
  obtain ⟨course, values, scope⟩ := reduced
  cases became with
  | failed fault => exact ⟨course.ended, gives_error fault, scope⟩
  | stopped value => exact ⟨course.ended, gives_ok values, scope⟩
  | reduced values' =>
    have start : Frame.AllTerms holds ⟨scope', .empty⟩ := ⟨scope, Scope.allTerms_empty⟩
    have applied := dispatch_takes setting watch lasts keeps values start rfl journal'
    dsimp only
    generalize dispatch setting below values' ⟨scope', .empty⟩ journal' = reply at applied ⊢
    refine ⟨?_, ?_, applied.keeps.scope.outer⟩
    · rw [failure_overriding]
      exact course.trans applied.course
    · intro value isValue
      unfold overriding at isValue
      split at isValue
      · rename_i leaver _ leaving
        cases isValue
        exact applied.keeps.scope.outer.leaving _ leaving
      · exact applied.keeps.outcome value isValue

/-- A query asks whatever its terms are, by taking the property that all terms have. -/
theorem query_asking (below : Evaluator) (term : Term) (frame : Frame) (journal : Journal) :
    Asking below watch frame journal (querySeen setting below watch term frame journal)
      (failure (query setting below term frame journal).outcome)
      (query setting below term frame journal).scope
      (query setting below term frame journal).journal :=
  (query_asks setting watch Term.lasts_true below.keeps_true trivial frame.allTerms_true journal).1

/-- A level takes a course whatever its terms are. This is what the walks over all levels start
from. -/
theorem reduceFrame_course (below : Evaluator) (items : List Term) (outer : Scope)
    (journal : Journal) :
    Course setting below watch outer journal (frameSeen setting below watch items outer journal)
      (failure (reduceFrame setting below items outer journal).outcome)
      (reduceFrame setting below items outer journal).scope
      (reduceFrame setting below items outer journal).journal :=
  (reduceFrame_takes setting watch Term.lasts_true below.keeps_true (fun _ _ => trivial)
    outer.allTerms_true journal).1

end Reduction

end TermLang
