import TermLang.Proofs.Fact.Asking
import TermLang.Proofs.Reduction.Inert

/-!
# Asking for alternatives

A query for alternatives that no fact answers becomes the union of the answers to both, and that
union is reduced like any other list. So the answers, which are results already, are reduced once
more. Where they are data this changes them in one way: an equation between a variable of the query
and a variable of a fact is no longer open, since two variables can be compared, and a truth value
takes its place. `decidedEntry` says what becomes of an entry.

Answers with values that reduction does not leave alone, and depths that do not hold their nesting,
are not covered.
-/

namespace TermLang

namespace Fact

/-! ## Equations that are decided -/

/-- An equation as reduction leaves it: two variables are compared by their names. -/
def decided : Term → Term
  | .list [.binaryOp "=", .var x, .var y] => .bool (x == y)
  | equation => equation

/-- An entry whose equations are decided. -/
def decidedEntry (entry : Term) : Term :=
  .list (entry.items.map decided)

/-- A variable of a query stands where a fact has one too. -/
def MeetsVariable (query : List Term) (fact : Term) : Prop :=
  ∃ place ∈ query.zip fact.items, place.1.isVar = true ∧ place.2.isVar = true

/-- Values are the terms that they are computed from exactly if each one is. Comparing the lists as
a whole is thereby comparing place by place. -/
theorem map_eq_self_iff {value : Term → Term} {terms : List Term} :
    terms.map value = terms ↔ ∀ term ∈ terms, value term = term := by
  nth_rewrite 2 [← List.map_id terms]
  exact List.map_inj_left

/-- Whether a variable meets one can be computed from the places of a query and a fact, so that the
condition on facts can be evaluated. -/
instance (query : List Term) (fact : Term) : Decidable (MeetsVariable query fact) :=
  inferInstanceAs (Decidable (∃ place ∈ query.zip fact.items,
    place.1.isVar = true ∧ place.2.isVar = true))

/-- The equation of a variable is decided exactly if its value is a variable. With any other value
the operator leaves it open, which is what lets answers be reduced again. -/
theorem decided_eq_iff (name : String) (value : Term) :
    decided (.list [.binaryOp "=", .var name, value]) = .list [.binaryOp "=", .var name, value] ↔
      value.isVar = false := by
  cases value <;> simp [decided, Term.isVar]

/-- The equations of a query are those of its variables with the items at their places. Read in this
form an equation always has a variable on its left, whatever the fact is. -/
theorem mem_equations {query items : List Term} {equation : Term} :
    equation ∈ equations query items ↔
      ∃ name value, (.var name, value) ∈ query.zip items ∧
        equation = .list [.binaryOp "=", .var name, value] := by
  rw [Term.list.inj (list_equations query items)]
  constructor
  · intro member
    obtain ⟨⟨x, value⟩, kept, rfl⟩ := List.mem_map.mp member
    obtain ⟨place, isVar⟩ := List.mem_filter.mp kept
    cases x with
    | var name => exact ⟨name, value, place, rfl⟩
    | _ => cases isVar
  · rintro ⟨name, value, place, rfl⟩
    exact List.mem_map.mpr ⟨_, List.mem_filter.mpr ⟨place, rfl⟩, rfl⟩

/-- An entry stays as it is exactly if no variable of the query meets one. A single variable that
meets one is enough, since the truth value takes the place of its equation. -/
theorem decidedEntry_eq_iff {query : List Term} {fact : Term} :
    decidedEntry (.list (equations query fact.items)) = .list (equations query fact.items) ↔
      ¬ MeetsVariable query fact := by
  rw [decidedEntry, Term.items, Term.list.injEq, map_eq_self_iff]
  constructor
  · rintro stays ⟨⟨x, value⟩, place, isVar, isVar'⟩
    cases x with
    | var name =>
      have closed := (decided_eq_iff name value).mp (stays _ (mem_equations.mpr ⟨_, _, place, rfl⟩))
      exact absurd (closed.symm.trans isVar') (by simp)
    | _ => cases isVar
  · intro none equation member
    obtain ⟨name, value, place, rfl⟩ := mem_equations.mp member
    rw [decided_eq_iff, ← Bool.not_eq_true]
    intro isVar
    exact none ⟨_, place, rfl, isVar⟩

/-- The answers to a query stay as they are exactly if none of its variables meets one in a fact
that answers it. Facts that do not answer may hold variables anywhere. -/
theorem map_decidedEntry_eq_iff {query facts : List Term} :
    (answers query facts).map decidedEntry = answers query facts ↔
      ∀ fact ∈ facts, Meets query fact → ¬ MeetsVariable query fact := by
  rw [map_eq_self_iff]
  simp only [answers, List.forall_mem_map, List.mem_filter, admits_iff_meets, decidedEntry_eq_iff,
    and_imp]

/-- Only a list of three items behind the keyword answers a query for alternatives. The keyword is a
closed place and equals itself alone, so without such a fact there is no answer, whatever stands in
the two other places. -/
theorem answers_alternatives {facts : List Term}
    (noAlternatives : ∀ x y, .list [.keyword ".or", x, y] ∉ facts) (x y : Term) :
    answers [.keyword ".or", x, y] facts = [] := by
  by_contra answered
  obtain ⟨fact, member, items, rfl, each⟩ := answers_ne_nil_iff.mp answered
  cases each with
  | cons first others =>
    cases others with
    | cons _ others =>
      cases others with
      | cons _ others =>
        cases others
        obtain rfl := Term.eq_of_equal_atom (first rfl) rfl (fun _ => Term.noConfusion)
        exact noAlternatives _ _ member

end Fact

namespace Reduction

open TermLang.Fact

variable (setting : Setting)

/-! ## Decided answers are data -/

/-- What is decided of an equation with an inert value is inert where there are no rules. An
equation that stays open is not an operator at work, and one that does not has become a truth value.
-/
theorem inert_decided {value : Term} (inert : Inert [] value) (name : String) :
    Inert [] (decided (.list [.binaryOp "=", .var name, value])) := by
  cases isVar : value.isVar with
  | false =>
    rw [(decided_eq_iff name value).mpr isVar, inert_list_iff]
    refine ⟨?_, ?_, List.forall_mem_nil _⟩
    · intro item member
      rcases List.mem_cons.mp member with rfl | member
      · exact .atom rfl
      · rcases List.mem_cons.mp member with rfl | member
        · exact .atom rfl
        · rwa [List.mem_singleton.mp member]
    · cases value with
      | var other => cases isVar
      | _ => rfl
  | true =>
    cases value with
    | var other => exact .atom rfl
    | _ => cases isVar

/-- The decided answers from facts with inert items are inert where there are no rules. This is how
the conditions on answers are met in practice: it is enough to look at the facts.

Proof: an answer is a list of entries and an entry a list of equations, so neither begins with a
keyword or an operator. -/
theorem inert_answers {facts : List Term}
    (inert : ∀ fact ∈ facts, ∀ item ∈ fact.items, Inert [] item) (query : List Term) :
    Inert [] (.list ((answers query facts).map decidedEntry)) := by
  refine inert_list_iff.mpr ⟨?_, ?_, List.forall_mem_nil _⟩
  · intro _ member
    obtain ⟨entry, isAnswer, rfl⟩ := List.mem_map.mp member
    obtain ⟨fact, admitted, rfl⟩ := List.mem_map.mp isAnswer
    have inertItems := inert fact (List.mem_filter.mp admitted).1
    refine inert_list_iff.mpr ⟨?_, ?_, List.forall_mem_nil _⟩
    · intro equation member
      obtain ⟨_, isEquation, rfl⟩ := List.mem_map.mp member
      obtain ⟨name, value, place, rfl⟩ := mem_equations.mp isEquation
      exact inert_decided (inertItems value (List.of_mem_zip place).2) name
    · apply isIdle_of_data
      intro item isFirst
      obtain ⟨_, isEquation, rfl⟩ := List.mem_map.mp (List.mem_of_mem_head? isFirst)
      obtain ⟨name, value, _, rfl⟩ := mem_equations.mp isEquation
      cases value with
      | _ => rfl
  · apply isIdle_of_data
    intro item isFirst
    obtain ⟨entry, _, rfl⟩ := List.mem_map.mp (List.mem_of_mem_head? isFirst)
    rfl

/-! ## Answers are reduced once more -/

section Settling

variable {scope : Scope} (calm : scope.leaving = none)
include calm

/-- An equation settles to what is decided. If its value is a variable the operator compares two
names; otherwise the equation is inert and settles as data does. -/
theorem settles_equation {name : String} {value : Term}
    (inert : Inert scope.rules (decided (.list [.binaryOp "=", .var name, value]))) {left : Nat}
    (fits : (Term.list [.binaryOp "=", .var name, value]).height ≤ left) :
    Evaluator.Settles (reduce setting left) scope (.list [.binaryOp "=", .var name, value])
      (decided (.list [.binaryOp "=", .var name, value])) := by
  cases isVar : value.isVar with
  | false =>
    rw [(decided_eq_iff name value).mpr isVar] at inert ⊢
    exact settles_inert setting calm inert fits
  | true =>
    cases value with
    | var other =>
      obtain ⟨level, rfl, _⟩ := Term.exists_level fits
      have atoms : ∀ item ∈ [Term.binaryOp "=", .var name, .var other],
          Evaluator.Settles (reduce setting level) scope item item := by
        intro item member
        apply settles_atom
        fin_cases member <;> rfl
      exact settles_list setting calm (List.forall₂_same.mpr atoms) fun _ => rfl
    | _ => cases isVar

/-- An entry settles to the entry whose equations are decided: its equations are reduced in order,
and the list that they leave is data. -/
theorem settles_entry {query items : List Term}
    (inert : Inert scope.rules (decidedEntry (.list (equations query items)))) {left : Nat}
    (fits : (Term.list (equations query items)).height ≤ left) :
    Evaluator.Settles (reduce setting left) scope (.list (equations query items))
      (decidedEntry (.list (equations query items))) := by
  refine settles_map setting calm inert ?_ fits
  intro equation member inertEquation left fitsEquation
  obtain ⟨name, value, _, rfl⟩ := mem_equations.mp member
  exact settles_equation setting calm inertEquation fitsEquation

/-- The answers to a query settle to the answers whose equations are decided, which is the same step
once more, from the entries to their list. -/
theorem settles_answers {query facts : List Term}
    (inert : Inert scope.rules (.list ((answers query facts).map decidedEntry))) {left : Nat}
    (fits : (Term.list (answers query facts)).height ≤ left) :
    Evaluator.Settles (reduce setting left) scope (.list (answers query facts))
      (.list ((answers query facts).map decidedEntry)) := by
  refine settles_map setting calm inert ?_ fits
  intro entry member inertEntry left fitsEntry
  obtain ⟨fact, _, rfl⟩ := List.mem_map.mp member
  exact settles_entry setting calm inertEntry fitsEntry

/-- Two lists that settle to lists are put together. The form is applied to what they have settled
to, so it never sees the answers as they were found. -/
theorem settles_union {xs ys xs' ys' : List Term} {left : Nat}
    (first : Evaluator.Settles (reduce setting left) scope (.list xs) (.list xs'))
    (second : Evaluator.Settles (reduce setting left) scope (.list ys) (.list ys')) :
    Evaluator.Settles (reduce setting (left + 1)) scope
      (.list [.keyword ".union", .list xs, .list ys]) (.list (xs' ++ ys')) := by
  have applied (journal : Journal) :
      dispatch setting (reduce setting left) [.keyword ".union", .list xs', .list ys']
        ⟨scope, .empty⟩ journal = ⟨.ok (.list (xs' ++ ys')), ⟨scope, .empty⟩, journal⟩ := rfl
  refine settles_list setting calm ?_ applied
  exact .cons (settles_atom setting rfl left scope) (.cons first (.cons second .nil))

end Settling

/-! ## Queries for alternatives -/

/-- The facts that a query is put to. -/
def known (frame : Frame) : List Term :=
  frame.outer.facts ++ frame.inner.facts

/-- A query without nested lists that some fact answers. -/
structure Answered (frame : Frame) (query : List Term) : Prop where
  flat : ∀ item ∈ query, item.isList = false
  met : ∃ fact ∈ known frame, Meets query fact

/-- Preparing a query changes at most the trace: it notes the query and, if no fact answers, that it
falls back, and both are written only where the setting asks for them. -/
theorem queryJournal_eq (items : List Term) (frame : Frame) (journal : Journal) :
    ∃ trace, queryJournal setting items frame journal = { journal with trace } := by
  simp only [queryJournal]
  generalize Event.query _ _ _ = event
  obtain ⟨trace, noted⟩ := journal.note_eq setting event
  rw [noted]
  split
  · exact Journal.note_eq { journal with trace } setting _
  · exact ⟨trace, rfl⟩

variable {frame : Frame} {one other : List Term}

/-- Both alternatives are answered before the query itself, in their order and in the same frame.
The keyword in front is an atom and stays. -/
theorem queryItems_alternatives (below : Evaluator) (answeredOne : Answered frame one)
    (answeredOther : Answered frame other) (journal : Journal) :
    ∃ trace, queryItems setting below [.keyword ".or", .list one, .list other] frame journal =
      (.ok [.keyword ".or", .list (answers one (known frame)),
        .list (answers other (known frame))], frame, { journal with trace }) := by
  have keyword : query setting below (.keyword ".or") frame journal =
      ⟨.ok (.keyword ".or"), frame, journal⟩ := rfl
  obtain ⟨trace, first⟩ :=
    query_of_flat setting below answeredOne.flat answeredOne.met journal
  obtain ⟨trace', second⟩ :=
    query_of_flat setting below answeredOther.flat answeredOther.met { journal with trace }
  refine ⟨trace', ?_⟩
  simp only [queryItems, keyword, first, second, known]

/-- A query for alternatives is the union of the answers to the one and to the other, and both have
their equations decided.

Proof: both lists are answered first. No fact answers what is then asked, so the form for
alternatives becomes the one for unions, and that is reduced in the inner scope, where it settles.
-/
theorem query_alternatives (calm : frame.inner.leaving = none)
    (noAlternatives : ∀ x y, .list [.keyword ".or", x, y] ∉ known frame)
    (answeredOne : Answered frame one) (answeredOther : Answered frame other)
    (inertOne : Inert frame.inner.rules (.list ((answers one (known frame)).map decidedEntry)))
    (inertOther : Inert frame.inner.rules (.list ((answers other (known frame)).map decidedEntry)))
    {left : Nat} (fits : (Term.list [.keyword ".union", .list (answers one (known frame)),
      .list (answers other (known frame))]).height ≤ left) (journal : Journal) :
    ∃ trace, query setting (reduce setting left) (.list [.keyword ".or", .list one, .list other])
      frame journal = ⟨.ok (.list ((answers one (known frame) ++ answers other (known frame)).map
        decidedEntry)), frame, { journal with trace }⟩ := by
  obtain ⟨level, rfl, fitsItems⟩ := Term.exists_level fits
  have settlesOne := settles_answers setting calm inertOne (fitsItems _ (by simp))
  have settlesOther := settles_answers setting calm inertOther (fitsItems _ (by simp))
  have settles := settles_union setting calm settlesOne settlesOther
  generalize reduce setting (level + 1) = below at settles ⊢
  obtain ⟨trace, nested⟩ :=
    queryItems_alternatives setting below answeredOne answeredOther journal
  -- The query is put to the facts again, now with the answers in the places of its lists.
  have unanswered : (answers [.keyword ".or", .list (answers one (known frame)),
      .list (answers other (known frame))] (known frame)).isEmpty = true :=
    List.isEmpty_iff.mpr (answers_alternatives noAlternatives _ _)
  obtain ⟨trace', noted⟩ := queryJournal_eq setting
    [.keyword ".or", .list (answers one (known frame)), .list (answers other (known frame))] frame
    { journal with trace }
  obtain ⟨last, settled⟩ := settles { journal with trace := trace' }
  refine ⟨last, ?_⟩
  simp only [query, nested]
  rw [answer_of_none setting unanswered, noted, List.map_append]
  simp only [fallback, Form.keyword, settled, calm, Scope.raise]
  rw [← calm]

/-- A query for alternatives, each of which some fact answers, gives the answers to the one and then
those to the other, but with their equations decided. So it gives the answers as they are exactly
when no variable of a query meets a variable in a fact that answers it. No scope changes, and the
journal but for its trace. -/
theorem alternatives_give_decided_answers (left : Nat) (frame : Frame) (journal : Journal)
    (one other : List Term) (calm : frame.inner.leaving = none)
    (noAlternatives : ∀ x y, .list [.keyword ".or", x, y] ∉ known frame)
    (answeredOne : Answered frame one) (answeredOther : Answered frame other)
    (inertOne : Inert frame.inner.rules (.list ((answers one (known frame)).map decidedEntry)))
    (inertOther : Inert frame.inner.rules (.list ((answers other (known frame)).map decidedEntry)))
    (fits : (Term.list [.keyword ".union", .list (answers one (known frame)),
      .list (answers other (known frame))]).height ≤ left) :
    ∃ first second trace,
      (query setting (reduce setting left) (.list one) frame journal).outcome = .ok (.list first) ∧
      (query setting (reduce setting left) (.list other) frame journal).outcome =
        .ok (.list second) ∧
      query setting (reduce setting left) (.list [.keyword ".or", .list one, .list other]) frame
        journal = ⟨.ok (.list ((first ++ second).map decidedEntry)), frame,
          { journal with trace }⟩ ∧
      ((query setting (reduce setting left) (.list [.keyword ".or", .list one, .list other]) frame
          journal).outcome = .ok (.list (first ++ second)) ↔
        ∀ fact ∈ known frame, (Meets one fact → ¬ MeetsVariable one fact) ∧
          (Meets other fact → ¬ MeetsVariable other fact)) := by
  obtain ⟨trace, answered⟩ := query_alternatives setting calm noAlternatives answeredOne
    answeredOther inertOne inertOther fits journal
  obtain ⟨_, first⟩ :=
    query_of_flat setting (reduce setting left) answeredOne.flat answeredOne.met journal
  obtain ⟨_, second⟩ :=
    query_of_flat setting (reduce setting left) answeredOther.flat answeredOther.met journal
  refine ⟨answers one (known frame), answers other (known frame), trace,
    congrArg Reply.outcome first, congrArg Reply.outcome second, answered, ?_⟩
  rw [answered, Except.ok.injEq, Term.list.injEq, map_eq_self_iff, List.forall_mem_append,
    ← map_eq_self_iff, ← map_eq_self_iff, map_decidedEntry_eq_iff, map_decidedEntry_eq_iff,
    forall₂_and]

/-- Who likes pie or cake: the values of the facts are a word and a list, and both answers stay. -/
theorem likings_stay_as_they_are :
    let friend : Term := .list [.str "best", .str "friend"]
    let frame : Frame := ⟨⟨[.list [.str "likes", .str "tom", .str "pie"],
      .list [.str "likes", friend, .str "cake"]], [], [], none⟩, .empty⟩
    let pie : List Term := [.str "likes", .var "X", .str "pie"]
    let cake : List Term := [.str "likes", .var "X", .str "cake"]
    let equation (value : Term) : Term := .list [.list [.binaryOp "=", .var "X", value]]
    (Answered frame pie ∧ Answered frame cake) ∧
    (Inert [] (.list ((answers pie (known frame)).map decidedEntry)) ∧
      Inert [] (.list ((answers cake (known frame)).map decidedEntry))) ∧
    (query default (reduce default 5) (.list [.keyword ".or", .list pie, .list cake]) frame
      .empty).outcome = .ok (.list [equation (.str "tom"), equation friend]) := by
  intro friend frame pie cake equation
  have noAlternatives : ∀ x y, .list [.keyword ".or", x, y] ∉ known frame := by
    simp [known, frame, Scope.empty]
  have answeredPie : Answered frame pie := ⟨by decide, by decide⟩
  have answeredCake : Answered frame cake := ⟨by decide, by decide⟩
  have inert : ∀ fact ∈ known frame, ∀ item ∈ fact.items, Inert [] item := by
    have word (text : String) : Inert [] (.str text) := .atom rfl
    have inertFriend : Inert [] friend := .list (by simp [word]) rfl (List.forall_mem_nil _)
    simp [known, frame, Scope.empty, Term.items, word, inertFriend]
  obtain ⟨first, second, trace, isFirst, isSecond, answered, stays⟩ :=
    alternatives_give_decided_answers default 5 frame .empty pie cake rfl noAlternatives
      answeredPie answeredCake (inert_answers inert pie) (inert_answers inert cake) (by decide)
  have isPie : first = [equation (.str "tom")] := (Term.list.inj (Except.ok.inj isFirst)).symm
  have isCake : second = [equation friend] := (Term.list.inj (Except.ok.inj isSecond)).symm
  refine ⟨⟨answeredPie, answeredCake⟩, ⟨inert_answers inert pie, inert_answers inert cake⟩, ?_⟩
  rw [stays.mpr (by decide), isPie, isCake]
  rfl

/-- Anyone likes pie, and ann likes cake: the answer that anyone gives is taken for a comparison of
two variables, and `false` stands in its place. -/
theorem liking_of_anyone_is_decided :
    let frame : Frame := ⟨⟨[.list [.str "likes", .var "Who", .str "pie"],
      .list [.str "likes", .str "ann", .str "cake"]], [], [], none⟩, .empty⟩
    let pie : List Term := [.str "likes", .var "X", .str "pie"]
    let cake : List Term := [.str "likes", .var "X", .str "cake"]
    let equation (value : Term) : Term := .list [.binaryOp "=", .var "X", value]
    let ask (term : Term) : Except Fault Term :=
      (query default (reduce default 4) term frame .empty).outcome
    ask (.list pie) = .ok (.list [.list [equation (.var "Who")]]) ∧
    ask (.list cake) = .ok (.list [.list [equation (.str "ann")]]) ∧
    ask (.list [.keyword ".or", .list pie, .list cake]) ≠
      .ok (.list [.list [equation (.var "Who")], .list [equation (.str "ann")]]) := by
  intro frame pie cake equation ask
  have noAlternatives : ∀ x y, .list [.keyword ".or", x, y] ∉ known frame := by
    simp [known, frame, Scope.empty]
  have answeredPie : Answered frame pie := ⟨by decide, by decide⟩
  have answeredCake : Answered frame cake := ⟨by decide, by decide⟩
  have inert : ∀ fact ∈ known frame, ∀ item ∈ fact.items, Inert [] item := by
    have word (text : String) : Inert [] (.str text) := .atom rfl
    have who : Inert [] (.var "Who") := .atom rfl
    simp [known, frame, Scope.empty, Term.items, word, who]
  have fits : (Term.list [.keyword ".union", .list (answers pie (known frame)),
      .list (answers cake (known frame))]).height ≤ 4 := by decide
  obtain ⟨trace, answered⟩ := query_alternatives default rfl noAlternatives answeredPie answeredCake
    (inert_answers inert pie) (inert_answers inert cake) fits .empty
  have decided : ask (.list [.keyword ".or", .list pie, .list cake]) =
      .ok (.list [.list [.bool false], .list [equation (.str "ann")]]) :=
    congrArg Reply.outcome answered
  refine ⟨rfl, rfl, ?_⟩
  rw [decided]
  simp [equation]

end Reduction

end TermLang
