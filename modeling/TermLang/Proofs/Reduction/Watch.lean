import TermLang.Reduction

/-!
# What is seen of a level

One level of a reduction asks the evaluator below for a series of replies and applies one list in
between. A watch says what is made of each of these steps, and `frameSeen` lists what it makes of
all of them, in order. The list follows the functions of the reduction one by one: what they ask
depends on the replies so far, and nothing more is asked once an item has failed or a return is on
its way out.

A watch can tell a query that is reduced aside from a term that is reduced in the caller's scope. It
is not told of replies, of events in the trace or of paths that are sought.
-/

namespace TermLang

/-- A value that leaves another scope leaves this one too. -/
def Scope.raise (scope : Scope) : Option Term → Scope
  | some value => scope.leave value
  | none => scope

/-- Raising a value changes nothing of a scope but the value on its way out, and without a value to
raise the one that was there stays. -/
theorem Scope.raise_eq (scope : Scope) (raised : Option Term) :
    scope.raise raised = { scope with leaving := raised.or scope.leaving } := by
  cases raised with
  | none => rfl
  | some value => rfl

/-- What is made of the steps of one level of a reduction. -/
structure Watch (α : Type) where
  /-- A term is given to the evaluator below, in the outer scope of the list. -/
  call : Term → Scope → Journal → List α
  /-- A query without an answer is given to the evaluator below, in the inner scope of the list. -/
  aside : Term → Scope → Journal → List α
  /-- The program of a file is, with a journal in which the file is being loaded. -/
  program : String → Term → Scope → Journal → List α
  /-- A list is applied, after its items were reduced to these. -/
  apply : List Term → List α

namespace Reduction

/-! ## Queries without an answer -/

/-- The journal in which a query without an answer is reduced. -/
def queryJournal (setting : Setting) (items : List Term) (frame : Frame) (journal : Journal) :
    Journal :=
  let facts := frame.outer.facts ++ frame.inner.facts
  let journal := journal.note setting
    (.query (.list items) facts.length (Fact.answers items facts).length)
  if isAlternatives items then journal.note setting (.widen (fallback items)) else journal

section

variable (setting : Setting) {below : Evaluator}

/-- A query without an answer is reduced in the inner scope. What leaves that scope leaves the outer
one instead, so that the inner scope keeps no value on its way out. -/
theorem answer_of_none {items : List Term} {frame : Frame}
    (unanswered : (Fact.answers items (frame.outer.facts ++ frame.inner.facts)).isEmpty = true)
    (journal : Journal) :
    answer setting below items frame journal =
      let reply := below (fallback items) frame.inner (queryJournal setting items frame journal)
      ⟨reply.outcome,
        ⟨frame.outer.raise reply.scope.leaving, { reply.scope with leaving := none }⟩,
        reply.journal⟩ := by
  simp only [answer, unanswered, if_true]
  rfl

end

/-! ## The steps of a level, in order -/

variable {α : Type} (setting : Setting) (below : Evaluator) (watch : Watch α)

/-- What is seen while items are reduced. -/
def itemsSeen : List Term → Scope → Journal → List α
  | [], _, _ => []
  | item :: rest, scope, journal =>
    match scope.leaving with
    | some _ => []
    | none =>
      let reply := below item scope journal
      watch.call item scope journal ++
        match reply.outcome with
        | .error _ => []
        | .ok _ => itemsSeen rest reply.scope reply.journal

/-- What is seen while the first rule that matches a list is used. -/
def ruleSeen (items : List Term) (frame : Frame) (journal : Journal) : List α :=
  match Rule.firstResult? frame.outer.rules (.list items) with
  | none => []
  | some result =>
    watch.call result frame.outer (journal.note setting (.ruleUsed (.list items) result))

/-- What is seen while a query is put to the facts. -/
def answerSeen (items : List Term) (frame : Frame) (journal : Journal) : List α :=
  if (Fact.answers items (frame.outer.facts ++ frame.inner.facts)).isEmpty then
    watch.aside (fallback items) frame.inner (queryJournal setting items frame journal)
  else []

mutual

/-- What is seen while a query is answered. -/
def querySeen : Term → Frame → Journal → List α
  | .list items, frame, journal =>
    queryItemsSeen items frame journal ++
      match queryItems setting below items frame journal with
      | (.error _, _, _) => []
      | (.ok values, frame, journal) => answerSeen setting watch values frame journal
  | _, _, _ => []

/-- What is seen while the nested lists of a query are answered. -/
def queryItemsSeen : List Term → Frame → Journal → List α
  | [], _, _ => []
  | item :: rest, frame, journal =>
    let reply := query setting below item frame journal
    querySeen item frame journal ++
      match reply.outcome with
      | .error _ => []
      | .ok _ => queryItemsSeen rest reply.scope reply.journal

end

/-- What is seen while a file is loaded. -/
def loadSeen (spec : String) (frame : Frame) (journal : Journal) : List α :=
  let journal := journal.seek (candidates setting journal.loading spec)
  match resolve setting journal.loading spec with
  | none => []
  | some path =>
    match setting.read path with
    | .error _ => []
    | .ok content =>
      match openProgram path (Text.decode content).chars journal with
      | .error _ => []
      | .ok program =>
        watch.program path program frame.outer
          (((journal.note setting (.load path program.items.length)).record (.loaded path)).enter
            path)

/-- What is seen while the built-in that a shape calls for is applied. -/
def shapeSeen (shape : Shape) (frame : Frame) (journal : Journal) : List α :=
  match shape with
  | .unaryForm .load (.str spec) => loadSeen setting watch spec frame journal
  | .unaryForm .ask x => querySeen setting below watch x frame journal
  | _ => []

/-- What is seen while a list of reduced items is applied: first that it is, then the steps of its
built-in, and those of a rule if no built-in answers. -/
def dispatchSeen (items : List Term) (frame : Frame) (journal : Journal) : List α :=
  let reply := applyShape setting below (Shape.of items) frame journal
  watch.apply items ++ shapeSeen setting below watch (Shape.of items) frame journal ++
    match reply.outcome with
    | .ok .unknown => ruleSeen setting watch items reply.scope reply.journal
    | _ => []

/-- What is seen while a list is reduced. -/
def frameSeen (items : List Term) (outer : Scope) (journal : Journal) : List α :=
  itemsSeen below watch items outer journal ++
    match reduceItems below items [] outer journal with
    | (.reduced values, scope, journal) =>
      dispatchSeen setting below watch values ⟨scope, .empty⟩ journal
    | _ => []

end Reduction

end TermLang
