import TermLang.Proofs.Reduction.Agreement
import TermLang.Proofs.Term.Equality

/-!
# What a query is answered with

A query without nested lists is put to the facts directly. `Meets` says which facts answer it: those
that can be had from the query by putting terms in the places of its variables and wildcards, up to
equal terms elsewhere. The code asks the operator `=` at each place instead, whose answer is not
always a truth value; at the places that matter it is one, and it is false exactly where the terms
differ.

Answers are compared with the facts by `List.Forall₂`, so that their order and their number are part
of the statement. Queries with nested lists, and queries that no fact answers, are not covered.
-/

namespace TermLang

namespace Operator

/-- With anything but a variable on its left, equality has an answer: that of the terms, unless a
wildcard is compared. It is the only operator that a query relies on, and the left side is always
the query's. -/
theorem binary_equality {x y : Term} (closed : x.isVar = false) :
    binary "=" x y = .bool (!x.isWildcard && x.equal y) := by
  cases x with
  | var name => cases closed
  | number a =>
    cases y with
    | number b => simp [binary, onNumbers, Term.equal, Term.isWildcard]
    | _ => simp [binary, equality, Term.equal, Term.isPattern]
  | _ =>
    cases y <;>
      simp [binary, equality, Term.equal, Term.isPattern, Term.isVar, Term.isWildcard]

end Operator

namespace Fact

/-! ## Facts that answer -/

/-- A fact answers a query: it is a list of the same length whose items equal those of the query
wherever the query has neither a variable nor a wildcard. -/
def Meets (query : List Term) (fact : Term) : Prop :=
  ∃ items, fact = .list items ∧
    List.Forall₂ (fun x y => x.isPattern = false → x.equal y = true) query items

/-- A place of a query admits an item if it is open or holds an equal term. The code asks whether
`=` does not say false, and at a closed place it says true or false and nothing else. -/
theorem admits_place_iff (x y : Term) :
    (x.isPattern || !isFalse (Operator.binary "=" x y)) = true ↔
      (x.isPattern = false → x.equal y = true) := by
  cases isPattern : x.isPattern with
  | true => simp
  | false =>
    have closed := isPattern
    rw [Term.isPattern, Bool.or_eq_false_iff] at closed
    simp [Operator.binary_equality closed.1, closed.2, isFalse]

/-- Items are admitted place by place, and only if they are as many as the places of the query. -/
theorem admitsItems_iff {query items : List Term} :
    admitsItems query items = true ↔
      List.Forall₂ (fun x y => x.isPattern = false → x.equal y = true) query items := by
  induction query generalizing items with
  | nil => cases items <;> simp [admitsItems]
  | cons x xs inductionHypothesis =>
    cases items with
    | nil => simp [admitsItems]
    | cons y ys =>
      rw [admitsItems, Bool.and_eq_true, admits_place_iff, inductionHypothesis, List.forall₂_cons]

/-- A query admits the facts that answer it. What is no list is neither admitted nor an answer. -/
theorem admits_iff_meets {query : List Term} {fact : Term} :
    admits query fact = true ↔ Meets query fact := by
  cases fact with
  | list items => simp [admits, Meets, admitsItems_iff]
  | _ => simp [admits, Meets]

/-- Whether a fact answers can be computed, because the code's own test decides it. -/
instance (query : List Term) (fact : Term) : Decidable (Meets query fact) :=
  decidable_of_iff _ admits_iff_meets

/-! ## Entries -/

/-- The right side of an equation. -/
def rightSide : Term → Term
  | .list [_, _, value] => value
  | other => other

/-- A query with values in the places of its variables, one after the other, and the items of a fact
in the places of its wildcards. -/
def restored : (query values items : List Term) → List Term
  | x :: xs, values, y :: ys =>
    if x.isVar then values.headD .unknown :: restored xs values.tail ys
    else if x.isWildcard then y :: restored xs values ys
    else x :: restored xs values ys
  | _, _, _ => []

/-- Terms give the items of a fact back place by place: the items themselves where the query is
open, and equal terms elsewhere. There the fact is not open either. -/
inductive GivesBack : (query terms items : List Term) → Prop where
  | nil : GivesBack [] [] []
  | same {x item : Term} {query terms items : List Term} (isOpen : x.isPattern = true)
      (others : GivesBack query terms items) :
      GivesBack (x :: query) (item :: terms) (item :: items)
  | equal {x term item : Term} {query terms items : List Term} (closed : x.isPattern = false)
      (equal : term.equal item = true) (closedItem : item.isPattern = false)
      (others : GivesBack query terms items) :
      GivesBack (x :: query) (term :: terms) (item :: items)

/-- One equation for each variable of a query, in their order, with the value at its place. -/
def entryOf (query values : List Term) : Term :=
  .list (((query.zip values).filter fun place => place.1.isVar).map
    fun place => .list [.binaryOp "=", place.1, place.2])

/-- What a query is answered with for a fact. -/
structure IsEntry (query : List Term) (fact entry : Term) : Prop where
  /-- The variables of the query are equated with the items of the fact. -/
  equations : entry = entryOf query fact.items
  /-- The values of the entry give the fact back. -/
  restores : GivesBack query (restored query (entry.items.map rightSide) fact.items) fact.items

/-- The equations of a query, read off its places. The code collects them on the way through both
lists; pairing the places first and keeping those of variables gives the same. -/
theorem list_equations (query items : List Term) :
    .list (equations query items) = entryOf query items := by
  apply congrArg Term.list
  induction query generalizing items with
  | nil => rfl
  | cons x xs inductionHypothesis =>
    cases items with
    | nil => rfl
    | cons y ys =>
      rw [equations, inductionHypothesis, List.zip_cons_cons, List.filter_cons]
      split <;> rfl

/-- A term that equals one that is neither a variable nor a wildcard is neither, because equality
compares kinds first. -/
theorem isPattern_of_equal {x y : Term} (closed : x.isPattern = false) (equal : x.equal y = true) :
    y.isPattern = false := by
  have tags := Term.tag_eq_of_equal equal
  cases x <;> cases y <;> simp_all [Term.tag, Term.isPattern, Term.isVar, Term.isWildcard]

/-- The values of the equations of a fact that answers give it back. The equations stand in the
order of the variables, so handing the values out one after the other puts each in its own place. -/
theorem givesBack_restored {query items : List Term}
    (meets : List.Forall₂ (fun x y => x.isPattern = false → x.equal y = true) query items) :
    GivesBack query (restored query ((equations query items).map rightSide) items) items := by
  induction meets with
  | nil => exact .nil
  | @cons x y xs ys equal _ inductionHypothesis =>
    cases x with
    | var name => exact .same rfl inductionHypothesis
    | wildcard name => exact .same rfl inductionHypothesis
    | _ => exact .equal rfl (equal rfl) (isPattern_of_equal rfl (equal rfl)) inductionHypothesis

/-- A fact that answers has an entry, and it is the list of equations that the code makes for it. -/
theorem isEntry_equations {query : List Term} {fact : Term} (meets : Meets query fact) :
    IsEntry query fact (.list (equations query fact.items)) := by
  obtain ⟨items, rfl, each⟩ := meets
  exact ⟨list_equations query items, givesBack_restored each⟩

/-- The answers of a query are the entries of the facts that answer it, in their order. The code
filters by its own test, so the two filters are shown to keep the same facts first. -/
theorem answers_forall₂ (query facts : List Term) :
    List.Forall₂ (IsEntry query) (facts.filter fun fact => Meets query fact)
      (answers query facts) := by
  have same : facts.filter (admits query) = facts.filter fun fact => Meets query fact := by
    congr 1
    funext fact
    rw [Bool.eq_iff_iff, admits_iff_meets, decide_eq_true_iff]
  rw [answers, same, List.forall₂_map_right_iff, List.forall₂_same]
  intro fact member
  apply isEntry_equations
  simpa using (List.mem_filter.mp member).2

/-- There are answers exactly when some fact answers. An answer may be empty, namely if the query
has no variables, and it still counts as one. -/
theorem answers_ne_nil_iff {query facts : List Term} :
    answers query facts ≠ [] ↔ ∃ fact ∈ facts, Meets query fact := by
  simp [answers, admits_iff_meets]

end Fact

/-! ## Queries -/

namespace Reduction

open TermLang.Fact

variable (setting : Setting) (below : Evaluator)

/-- A query without nested lists has nothing to answer first: its atoms stay as they are, and
neither the frame nor the journal is touched. -/
theorem queryItems_of_flat {items : List Term} (flat : ∀ item ∈ items, item.isList = false)
    (frame : Frame) (journal : Journal) :
    queryItems setting below items frame journal = (.ok items, frame, journal) := by
  induction items with
  | nil => rfl
  | cons item rest inductionHypothesis =>
    obtain ⟨atomic, flatRest⟩ := List.forall_mem_cons.mp flat
    have stays : query setting below item frame journal = ⟨.ok item, frame, journal⟩ := by
      cases item with
      | list items => cases atomic
      | _ => rfl
    simp only [queryItems, stays, inductionHypothesis flatRest]

/-- A query that facts answer is noted and changes nothing else. The fallback is not reached, so no
level below is used, and the trace is all that can differ in the journal. -/
theorem query_of_flat {items : List Term} (flat : ∀ item ∈ items, item.isList = false)
    {frame : Frame} (met : ∃ fact ∈ frame.outer.facts ++ frame.inner.facts, Meets items fact)
    (journal : Journal) :
    ∃ trace, query setting below (.list items) frame journal =
      ⟨.ok (.list (answers items (frame.outer.facts ++ frame.inner.facts))), frame,
        { journal with trace }⟩ := by
  have answered := List.isEmpty_eq_false_iff.mpr (answers_ne_nil_iff.mpr met)
  obtain ⟨trace, noted⟩ := journal.note_eq setting (.query (.list items)
    (frame.outer.facts ++ frame.inner.facts).length
    (answers items (frame.outer.facts ++ frame.inner.facts)).length)
  refine ⟨trace, ?_⟩
  simp only [query, queryItems_of_flat setting below flat, answer, answered, noted,
    Bool.false_eq_true, if_false]

/-- A query without nested lists that some fact answers is answered with one entry for each fact
that does: the outer facts first, then the inner ones, each in the order in which they were
declared. No scope changes, and the journal but for its trace. -/
theorem query_lists_entries (frame : Frame) (journal : Journal) {items : List Term}
    (flat : ∀ item ∈ items, item.isList = false)
    (met : ∃ fact ∈ frame.outer.facts ++ frame.inner.facts, Meets items fact) :
    ∃ entries trace,
      query setting below (.list items) frame journal =
        ⟨.ok (.list entries), frame, { journal with trace }⟩ ∧
      List.Forall₂ (IsEntry items)
        ((frame.outer.facts.filter fun fact => Meets items fact) ++
          frame.inner.facts.filter fun fact => Meets items fact) entries := by
  obtain ⟨trace, answered⟩ := query_of_flat setting below flat met journal
  refine ⟨_, trace, answered, ?_⟩
  rw [← List.filter_append]
  exact answers_forall₂ items _

/-- Of five facts three answer `(likes X _)`: one has a variable, and one is declared twice. -/
theorem likings_are_listed :
    let items : List Term := [.str "likes", .var "X", .wildcard "_"]
    let pie : Term := .list [.str "likes", .str "tom", .str "pie"]
    let anyone : Term := .list [.str "likes", .var "Who", .str "cake"]
    let equation (value : Term) : Term := .list [.list [.binaryOp "=", .var "X", value]]
    let frame : Frame :=
      ⟨⟨[pie, .str "likes", anyone], [], [], none⟩,
        ⟨[.list [.var "Y", .str "tom", .str "pie"], pie], [], [], none⟩⟩
    (∀ item ∈ items, item.isList = false) ∧
    (∃ fact ∈ frame.outer.facts ++ frame.inner.facts, Meets items fact) ∧
    (∃ trace, query default (reduce default 0) (.list items) frame .empty =
      ⟨.ok (.list [equation (.str "tom"), equation (.var "Who"), equation (.str "tom")]), frame,
        { Journal.empty with trace }⟩) ∧
    List.Forall₂ (IsEntry items) [pie, anyone, pie]
      [equation (.str "tom"), equation (.var "Who"), equation (.str "tom")] := by
  intro items pie anyone equation frame
  have flat : ∀ item ∈ items, item.isList = false := by decide
  have met : ∃ fact ∈ frame.outer.facts ++ frame.inner.facts, Meets items fact :=
    ⟨pie, List.mem_cons_self, admits_iff_meets.mp rfl⟩
  obtain ⟨entries, trace, answered, each⟩ :=
    query_lists_entries default (reduce default 0) frame .empty flat met
  have listed : entries =
      [equation (.str "tom"), equation (.var "Who"), equation (.str "tom")] := by
    have outcome := congrArg Reply.outcome answered
    exact (Term.list.inj (Except.ok.inj outcome)).symm
  rw [listed] at answered each
  exact ⟨flat, met, ⟨trace, answered⟩, each⟩

end Reduction

end TermLang
