import TermLang.Proofs.Fact.Asking

/-!
# Looking up and asking

Facts can be looked up with a pattern and asked with a query, and the two ways decide place by place
in opposite terms: one asks whether `=` says true, the other whether it does not say false. They
also differ in what they leave open, since a wildcard opens a place of a query only, and a variable
of a fact opens a place for a pattern only. Where there is neither they agree: the same facts are
found, in the same order, and each answer to the query can be read off what the pattern has found.

What a pattern finds in a place is `valueAt?`; the results about lists and scopes follow from it by
induction on the places and on the facts.
-/

namespace TermLang

namespace Fact

/-! ## One place -/

/-- What a pattern finds at a place of a fact: the fact's item where the pattern is open, the
pattern's own where the fact is open or `=` says true, and nothing elsewhere. -/
def valueAt? (x y : Term) : Option Term :=
  if x.isVar then some y
  else if y.isVar || (!x.isWildcard && x.equal y) then some x
  else none

/-- Places are matched one by one, and the first that finds nothing ends the match. Whichever side
has the variable, and whatever `=` says, is inside what is found at a place, so that the inductions
below have one case for a place. -/
theorem matchItems_cons (x y : Term) (xs ys : List Term) :
    matchItems (x :: xs) (y :: ys) =
      (valueAt? x y).bind fun value => (matchItems xs ys).map (value :: ·) := by
  by_cases left : x.isVar = true
  · cases x with
    | var name => rfl
    | _ => cases left
  · have unnamed : ∀ name, x ≠ .var name := by
      rintro name rfl
      exact left rfl
    by_cases right : y.isVar = true
    · cases y with
      | var name =>
        rw [matchItems, valueAt?, if_neg left]
        · rfl
        · exact unnamed
      | _ => cases right
    · have unnamedItem : ∀ name, y ≠ .var name := by
        rintro name rfl
        exact right rfl
      rw [Bool.not_eq_true] at left right
      rw [matchItems, Operator.binary_equality left, valueAt?, left, right]
      · cases !x.isWildcard && x.equal y <;> rfl
      · exact unnamed
      · exact unnamedItem

/-- Terms that are equal are both wildcards or both not, because equality compares kinds first. So a
test for wildcards on one side is one on the other. -/
theorem isWildcard_eq_of_equal {x y : Term} (equal : x.equal y = true) :
    x.isWildcard = y.isWildcard := by
  have tags := Term.tag_eq_of_equal equal
  cases x <;> cases y <;> simp_all [Term.tag, Term.isWildcard]

/-- Whether something is found at a place does not depend on which side is the pattern. What is
found may: the value is taken from the side that is closed. -/
theorem isSome_valueAt?_comm (x y : Term) : (valueAt? x y).isSome = (valueAt? y x).isSome := by
  have compared : (!x.isWildcard && x.equal y) = (!y.isWildcard && y.equal x) := by
    rw [Term.equal_comm y x]
    by_cases equal : x.equal y = true
    · rw [isWildcard_eq_of_equal equal]
    · simp [equal]
  by_cases left : x.isVar = true
  · by_cases right : y.isVar = true <;> simp [valueAt?, left, right]
  · by_cases right : y.isVar = true
    · simp [valueAt?, left, right]
    · simp only [valueAt?, left, right, compared]
      cases !y.isWildcard && y.equal x <;> rfl

/-- At a place without a wildcard in the pattern and a variable in the fact, something is found
exactly when the query admits the item.

Both conditions are needed. A query takes any item at a wildcard where a pattern finds nothing, and
a pattern takes a variable of the fact where a query compares it. -/
theorem isSome_valueAt? {x y : Term} (definite : x.isWildcard = false) (closed : y.isVar = false) :
    (valueAt? x y).isSome = (x.isPattern || !isFalse (Operator.binary "=" x y)) := by
  rw [Bool.eq_iff_iff, admits_place_iff]
  by_cases left : x.isVar = true <;>
    simp [valueAt?, Term.isPattern, left, definite, closed]

/-! ## All places -/

/-- Matching two lists succeeds in either order or in none, by induction on their places; lists of
different lengths match in neither. -/
theorem isSome_matchItems_comm (xs ys : List Term) :
    (matchItems xs ys).isSome = (matchItems ys xs).isSome := by
  induction xs generalizing ys with
  | nil => cases ys <;> rfl
  | cons x rest inductionHypothesis =>
    cases ys with
    | nil => rfl
    | cons y others =>
      have atPlace := isSome_valueAt?_comm x y
      rw [matchItems_cons, matchItems_cons]
      generalize valueAt? x y = value at atPlace ⊢
      generalize valueAt? y x = value' at atPlace ⊢
      cases value <;> cases value' <;> simp_all

/-- Matching two terms succeeds in either order or in none. Only two lists are ever matched place by
place, so all other pairs of shapes fail both ways. -/
theorem isSome_match?_comm (a b : Term) : (match? a b).isSome = (match? b a).isSome := by
  cases a with
  | list xs =>
    cases b with
    | list ys => exact isSome_matchItems_comm xs ys
    | _ => rfl
  | _ => cases b <;> rfl

/-- A pattern without wildcards matches the items of a fact without variables exactly when the query
admits them: place by place both say the same, and both ask for equal lengths. -/
theorem isSome_matchItems {pattern items : List Term}
    (definite : ∀ x ∈ pattern, x.isWildcard = false) (closed : ∀ y ∈ items, y.isVar = false) :
    (matchItems pattern items).isSome = admitsItems pattern items := by
  induction pattern generalizing items with
  | nil => cases items <;> rfl
  | cons x xs inductionHypothesis =>
    cases items with
    | nil => rfl
    | cons y ys =>
      obtain ⟨definiteHere, definiteLater⟩ := List.forall_mem_cons.mp definite
      obtain ⟨closedHere, closedLater⟩ := List.forall_mem_cons.mp closed
      have atPlace := isSome_valueAt? definiteHere closedHere
      rw [matchItems_cons, admitsItems, ← atPlace, ← inductionHypothesis definiteLater closedLater]
      cases valueAt? x y <;> simp

/-- What a pattern without wildcards finds in a fact without variables gives the fact back: the item
itself where the pattern has a variable, and an equal term elsewhere.

Proof: by induction on the places. Where the pattern is closed it has found its own term, so there
the fact holds an equal one. -/
theorem givesBack_of_matchItems {pattern items values : List Term}
    (definite : ∀ x ∈ pattern, x.isWildcard = false) (closed : ∀ y ∈ items, y.isVar = false)
    (found : matchItems pattern items = some values) : GivesBack pattern values items := by
  induction pattern generalizing items values with
  | nil =>
    cases items with
    | nil =>
      cases found
      exact .nil
    | cons y ys => cases found
  | cons x xs inductionHypothesis =>
    cases items with
    | nil => cases found
    | cons y ys =>
      obtain ⟨definiteHere, definiteLater⟩ := List.forall_mem_cons.mp definite
      obtain ⟨closedHere, closedLater⟩ := List.forall_mem_cons.mp closed
      rw [matchItems_cons, Option.bind_eq_some_iff] at found
      obtain ⟨value, atPlace, found⟩ := found
      obtain ⟨rest, foundRest, rfl⟩ := Option.map_eq_some_iff.mp found
      have others := inductionHypothesis definiteLater closedLater foundRest
      by_cases left : x.isVar = true
      · rw [valueAt?, if_pos left] at atPlace
        cases atPlace
        exact .same (by simp [Term.isPattern, left]) others
      · have closedPlace : x.isPattern = false := by simp [Term.isPattern, left, definiteHere]
        rw [valueAt?, if_neg left, closedHere, definiteHere] at atPlace
        split at atPlace
        · rename_i equal
          cases atPlace
          exact .equal closedPlace equal (isPattern_of_equal closedPlace equal) others
        · cases atPlace

namespace GivesBack

variable {query terms items : List Term}

/-- Terms that give a fact back are as many as its items: each place of the query has one of either.
-/
theorem length_eq (back : GivesBack query terms items) : terms.length = items.length := by
  induction back with
  | nil => rfl
  | same _ _ inductionHypothesis => exact congrArg Nat.succ inductionHypothesis
  | equal _ _ _ _ inductionHypothesis => exact congrArg Nat.succ inductionHypothesis

/-- Terms that give a fact back are equal to it. At an open place they are the very items, which
equal themselves only if no number is NaN. -/
theorem equal_list (back : GivesBack query terms items) (numeric : (Term.list items).NaNFree) :
    (Term.list terms).equal (.list items) = true := by
  rw [Term.naNFree_list_iff] at numeric
  rw [Term.equal_list_list]
  induction back with
  | nil => exact .nil
  | same _ _ inductionHypothesis =>
    obtain ⟨here, later⟩ := List.forall_mem_cons.mp numeric
    exact .cons here.equal_self (inductionHypothesis later)
  | equal _ equal _ _ inductionHypothesis =>
    obtain ⟨_, later⟩ := List.forall_mem_cons.mp numeric
    exact .cons equal (inductionHypothesis later)

/-- They have the entry of the fact, because an entry reads the places of variables only, and there
the terms are the items themselves and not merely equal to them. -/
theorem entryOf_eq (back : GivesBack query terms items) :
    entryOf query terms = entryOf query items := by
  apply congrArg Term.list
  induction back with
  | nil => rfl
  | same _ _ inductionHypothesis =>
    simp only [List.zip_cons_cons, List.filter_cons]
    split
    · exact congrArg (List.cons _) inductionHypothesis
    · exact inductionHypothesis
  | equal closed _ _ _ inductionHypothesis =>
    rw [Term.isPattern, Bool.or_eq_false_iff] at closed
    simpa [List.filter_cons, closed.1] using inductionHypothesis

end GivesBack

/-! ## All facts -/

/-- A fact without variables is found by a pattern without wildcards exactly when the query admits
it; a fact that is no list is found by neither. -/
theorem isSome_match? {pattern : List Term} {fact : Term}
    (definite : ∀ x ∈ pattern, x.isWildcard = false)
    (closed : ∀ item ∈ fact.items, item.isVar = false) :
    (match? (.list pattern) fact).isSome = admits pattern fact := by
  cases fact with
  | list items => exact isSome_matchItems definite closed
  | _ => rfl

/-- The answers to a query are the entries of what the pattern finds, in the same order.

Proof: by induction on the facts. One that the pattern does not find is not admitted either, and one
that it finds has the entry of what is found. -/
theorem answers_eq_map_match? {pattern facts : List Term}
    (definite : ∀ x ∈ pattern, x.isWildcard = false)
    (closed : ∀ fact ∈ facts, ∀ item ∈ fact.items, item.isVar = false) :
    answers pattern facts = (facts.filterMap (match? (.list pattern))).map (entryOf pattern) := by
  induction facts with
  | nil => rfl
  | cons fact rest inductionHypothesis =>
    obtain ⟨closedHere, closedLater⟩ := List.forall_mem_cons.mp closed
    have admitted := isSome_match? definite closedHere
    have others := inductionHypothesis closedLater
    rw [answers] at others ⊢
    cases found : match? (.list pattern) fact with
    | none =>
      rw [found] at admitted
      rw [List.filter_cons, ← admitted, List.filterMap_cons_none found]
      exact others
    | some values =>
      rw [found] at admitted
      rw [List.filter_cons, ← admitted, List.filterMap_cons_some found]
      have entry : .list (equations pattern fact.items) = entryOf pattern values := by
        cases fact with
        | list items =>
          rw [list_equations, ← (givesBack_of_matchItems definite closedHere found).entryOf_eq]
        | _ => cases found
      exact congrArg₂ List.cons entry others

end Fact

namespace Reduction

open TermLang.Fact

variable (setting : Setting) (below : Evaluator)

/-- A pattern is looked up in the outer facts. The inner ones are not searched, which is where
looking up and asking would differ, so the two are compared where there are none. -/
theorem dispatch_lookUp (pattern : Term) (frame : Frame) (journal : Journal) :
    dispatch setting below [.keyword Form.lookUp.keyword, pattern] frame journal =
      ⟨.ok (.list ((frame.outer.facts.filterMap (match? pattern)).map .list)), frame, journal⟩ :=
  rfl

/-- A query that facts answer is the result of asking it, since the form hands its argument over and
returns what comes back. -/
theorem dispatch_ask {items : List Term} (flat : ∀ item ∈ items, item.isList = false)
    {frame : Frame} (met : ∃ fact ∈ frame.outer.facts ++ frame.inner.facts, Meets items fact)
    (journal : Journal) :
    (dispatch setting below [.keyword Form.ask.keyword, .list items] frame journal).outcome =
      .ok (.list (answers items (frame.outer.facts ++ frame.inner.facts))) := by
  obtain ⟨trace, answered⟩ := query_of_flat setting below flat met journal
  have shape : Shape.of [.keyword Form.ask.keyword, .list items] = .unaryForm .ask (.list items) :=
    rfl
  simp only [dispatch, shape, applyShape, applyUnary, answered]

/-- Looking up and asking agree. A pattern without wildcards finds a fact without variables exactly
when the query admits it; what it finds is then equal to the fact and has the entry of the fact. So
the answers that a query has from facts without variables are the entries of what the pattern finds
among them. And matching two terms succeeds in either order or in none. -/
theorem looking_up_agrees_with_asking :
    (∀ pattern items : List Term, (∀ x ∈ pattern, x.isWildcard = false) →
      (∀ item ∈ items, item.isVar = false) →
      ((match? (.list pattern) (.list items)).isSome = true ↔
        admits pattern (.list items) = true) ∧
      ∀ values, match? (.list pattern) (.list items) = some values →
        values.length = items.length ∧
        ((Term.list items).NaNFree → (Term.list values).equal (.list items) = true) ∧
        .list (equations pattern items) = entryOf pattern values) ∧
    (∀ (setting : Setting) (below : Evaluator) (scope : Scope) (journal : Journal)
      (pattern : List Term), (∀ x ∈ pattern, x.isWildcard = false) →
      (∀ x ∈ pattern, x.isList = false) →
      (∀ fact ∈ scope.facts, ∀ item ∈ fact.items, item.isVar = false) →
      (∃ fact ∈ scope.facts, (match? (.list pattern) fact).isSome = true) →
      ∃ found : List (List Term),
        (dispatch setting below [.keyword ".match", .list pattern] ⟨scope, .empty⟩
          journal).outcome = .ok (.list (found.map .list)) ∧
        (dispatch setting below [.keyword ".eval", .list pattern] ⟨scope, .empty⟩
          journal).outcome = .ok (.list (found.map (entryOf pattern)))) ∧
    ∀ a b : Term, (match? a b).isSome = (match? b a).isSome := by
  refine ⟨?_, ?_, isSome_match?_comm⟩
  · intro pattern items definite closed
    have sameFound : (match? (.list pattern) (.list items)).isSome = admits pattern (.list items) :=
      isSome_matchItems definite closed
    constructor
    · rw [sameFound]
    · intro values found
      have back := givesBack_of_matchItems definite closed found
      refine ⟨back.length_eq, back.equal_list, ?_⟩
      rw [list_equations, back.entryOf_eq]
  · intro setting below scope journal pattern definite flat closed matched
    have lookedUp := dispatch_lookUp setting below (.list pattern) ⟨scope, .empty⟩ journal
    refine ⟨scope.facts.filterMap (match? (.list pattern)), congrArg Reply.outcome lookedUp, ?_⟩
    -- A fact that the pattern finds is one that the query meets, so the facts do answer.
    have met : ∃ fact ∈ scope.facts ++ Scope.empty.facts, Meets pattern fact := by
      obtain ⟨fact, member, found⟩ := matched
      rw [isSome_match? definite (closed fact member), admits_iff_meets] at found
      exact ⟨fact, List.mem_append_left _ member, found⟩
    refine (dispatch_ask setting below flat met journal).trans ?_
    rw [← answers_eq_map_match? definite closed]
    simp [Scope.empty]

/-- Of three facts `(likes X pie)` finds two, and asking it gives the two who are found. -/
theorem likings_are_found_and_asked :
    let pattern : List Term := [.str "likes", .var "X", .str "pie"]
    let liking (who what : String) : List Term := [.str "likes", .str who, .str what]
    let equation (who : String) : Term := .list [.list [.binaryOp "=", .var "X", .str who]]
    let scope : Scope :=
      ⟨[.list (liking "tom" "pie"), .list (liking "ann" "cake"), .list (liking "ann" "pie")],
        [], [], none⟩
    (.list (equations pattern (liking "tom" "pie")) = entryOf pattern (liking "tom" "pie") ∧
      (Term.list (liking "tom" "pie")).equal (.list (liking "tom" "pie")) = true) ∧
    (dispatch default (reduce default 0) [.keyword ".match", .list pattern] ⟨scope, .empty⟩
      .empty).outcome = .ok (.list [.list (liking "tom" "pie"), .list (liking "ann" "pie")]) ∧
    (dispatch default (reduce default 0) [.keyword ".eval", .list pattern] ⟨scope, .empty⟩
      .empty).outcome = .ok (.list [equation "tom", equation "ann"]) ∧
    (match? (.list pattern) (.list (liking "ann" "cake"))).isSome =
      (match? (.list (liking "ann" "cake")) (.list pattern)).isSome := by
  intro pattern liking equation scope
  have definite : ∀ x ∈ pattern, x.isWildcard = false := by decide
  have flat : ∀ x ∈ pattern, x.isList = false := by decide
  have closed : ∀ fact ∈ scope.facts, ∀ item ∈ fact.items, item.isVar = false := by decide
  obtain ⟨placewise, scopewise, symmetric⟩ := looking_up_agrees_with_asking
  refine ⟨?_, ?_, ?_, symmetric _ _⟩
  · have numeric : (Term.list (liking "tom" "pie")).NaNFree := by
      simp [Term.NaNFree, Term.atoms, Term.atomsOf, liking]
    obtain ⟨_, equal, entry⟩ :=
      (placewise pattern (liking "tom" "pie") definite (by decide)).2 _ rfl
    exact ⟨entry, equal numeric⟩
  · rfl
  · obtain ⟨found, lookedUp, asked⟩ := scopewise default (reduce default 0) scope .empty pattern
      definite flat closed ⟨.list (liking "tom" "pie"), List.mem_cons_self, rfl⟩
    have lists := Term.list.inj (Except.ok.inj lookedUp)
    have same : found = [liking "tom" "pie", liking "ann" "pie"] :=
      List.map_injective_iff.mpr (fun _ _ => Term.list.inj) lists.symm
    rw [asked, same]
    rfl

end Reduction

end TermLang
