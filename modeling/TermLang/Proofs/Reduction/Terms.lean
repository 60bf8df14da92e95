import TermLang.Proofs.Reduction.Watch

/-!
# Properties of terms that last

A reduction takes terms apart and puts them together again, by matching, filling in, answering and
joining. The only atoms that it makes of its own are truth values, numbers, the operator of an
equation and the keyword of a union. A property that lists share with their items, and that these
atoms and all programs have, therefore lasts: what has it before a step has it afterwards.

Here this is said of each of the operations on terms. That a whole reduction keeps such a property
is proved where the levels of a reduction are followed.
-/

namespace TermLang

/-- A property of terms that reductions keep: a list has it together with its items, and the atoms
that a reduction makes of its own have it, as have the programs that it loads. -/
structure Term.Lasts (holds : Term → Prop) : Prop where
  list : ∀ items, holds (.list items) ↔ ∀ item ∈ items, holds item
  bool : ∀ value, holds (.bool value)
  number : ∀ value, holds (.number value)
  equals : holds (.binaryOp "=")
  union : holds (.keyword Form.union.keyword)
  read : ∀ {source program}, readProgram source = .ok program → holds program

/-- The property that all terms have lasts. What is proved of all properties that last holds through
it of every reduction, whatever its terms are. -/
theorem Term.lasts_true : Term.Lasts fun _ => True where
  list _ := by simp
  bool _ := trivial
  number _ := trivial
  equals := trivial
  union := trivial
  read _ := trivial

variable {holds : Term → Prop}

/-! ## Bindings, rules and facts -/

namespace Bindings

/-- All bound terms have a property. -/
def AllTerms (bindings : Bindings) (holds : Term → Prop) : Prop := ∀ entry ∈ bindings, holds entry.2

/-- A binding that is made adds no entry but its own. The entry for the same name is replaced, and
all others are kept. -/
theorem mem_of_mem_insert {bindings : Bindings} {name : String} {term : Term}
    {entry : String × Term} (member : entry ∈ bindings.insert name term) :
    entry = (name, term) ∨ entry ∈ bindings := by
  induction bindings with
  | nil => exact .inl (List.mem_singleton.mp member)
  | cons first rest inductionHypothesis =>
    obtain ⟨other, old⟩ := first
    simp only [insert] at member
    split at member
    · rcases List.mem_cons.mp member with own | later
      · exact .inl own
      · exact .inr (List.mem_cons_of_mem _ later)
    · split at member
      · exact List.mem_cons.mp member
      · rcases List.mem_cons.mp member with same | later
        · exact .inr (same ▸ List.mem_cons_self)
        · rcases inductionHypothesis later with own | kept
          · exact .inl own
          · exact .inr (List.mem_cons_of_mem _ kept)

/-- A binding that is made keeps the property if its own term has it, since all other entries were
there before. -/
theorem AllTerms.insert {bindings : Bindings} (known : bindings.AllTerms holds) (name : String)
    {term : Term} (own : holds term) : AllTerms (bindings.insert name term) holds := by
  intro entry member
  rcases mem_of_mem_insert member with isOwn | kept
  · rw [isOwn]
    exact own
  · exact known entry kept

/-- What a name is bound to stands in an entry, so it has the property. -/
theorem AllTerms.find? {bindings : Bindings} (known : bindings.AllTerms holds) {name : String}
    {term : Term} (found : bindings.find? name = some term) : holds term := by
  induction bindings with
  | nil => cases found
  | cons first rest inductionHypothesis =>
    obtain ⟨here, later⟩ := List.forall_mem_cons.mp known
    simp only [Bindings.find?] at found
    split at found
    · cases found
      exact here
    · exact inductionHypothesis later found

end Bindings

namespace Rule

/-- Both sides of a rule have a property. -/
def AllTerms (rule : Rule) (holds : Term → Prop) : Prop := holds rule.pattern ∧ holds rule.result

mutual

/-- Matching binds parts of the matched term, so what it binds has the property with that term. A
mismatch may leave bindings too, and they have it for the same reason. -/
theorem matchTerm_allTerms (lasts : Term.Lasts holds) (pattern : Term) {term : Term}
    (given : holds term) {bindings : Bindings} (known : bindings.AllTerms holds) :
    Bindings.AllTerms (matchTerm pattern term bindings).2 holds := by
  cases pattern with
  | var name =>
    simp only [matchTerm]
    split
    · exact known
    · exact known.insert name given
  | list patterns =>
    cases term with
    | list terms =>
      simp only [matchTerm]
      split
      · exact matchItems_allTerms lasts patterns ((lasts.list terms).mp given) known
      · exact known
    | _ => exact known
  | _ => exact known

/-- So does matching item by item, whatever the lengths are. The bindings of the first item are
handed on to the others. -/
theorem matchItems_allTerms (lasts : Term.Lasts holds) (patterns : List Term) {terms : List Term}
    (given : ∀ term ∈ terms, holds term) {bindings : Bindings} (known : bindings.AllTerms holds) :
    Bindings.AllTerms (matchItems patterns terms bindings).2 holds := by
  cases patterns with
  | nil => exact known
  | cons pattern others =>
    cases terms with
    | nil => exact known
    | cons term rest =>
      obtain ⟨first, later⟩ := List.forall_mem_cons.mp given
      have extended := matchTerm_allTerms lasts pattern first known
      simp only [matchItems]
      generalize matchTerm pattern term bindings = result at extended ⊢
      obtain ⟨matched, bound⟩ := result
      cases matched with
      | true => exact matchItems_allTerms lasts others later extended
      | false => exact extended

end

mutual

/-- Filling in puts bound terms in the place of variables, and keeps all else. A variable without a
binding stays and has the property by itself. -/
theorem substitute_holds (lasts : Term.Lasts holds) {bindings : Bindings}
    (known : bindings.AllTerms holds) {term : Term} (given : holds term) :
    holds (substitute bindings term) := by
  cases term with
  | var name =>
    simp only [substitute]
    cases found : bindings.find? name with
    | none => exact given
    | some bound => exact known.find? found
  | list items =>
    simp only [substitute, lasts.list]
    exact substituteItems_hold lasts known ((lasts.list items).mp given)
  | _ => exact given

/-- So does filling in item by item, since a list has the property with its items. -/
theorem substituteItems_hold (lasts : Term.Lasts holds) {bindings : Bindings}
    (known : bindings.AllTerms holds) {items : List Term} (given : ∀ item ∈ items, holds item) :
    ∀ item ∈ substituteItems bindings items, holds item := by
  cases items with
  | nil => exact given
  | cons first rest =>
    obtain ⟨here, later⟩ := List.forall_mem_cons.mp given
    simp only [substituteItems]
    exact List.forall_mem_cons.mpr
      ⟨substitute_holds lasts known here, substituteItems_hold lasts known later⟩

end

/-- What a rule makes of a term has the property if the term and both sides of the rule have it:
matching binds parts of the term, and these are filled in. -/
theorem firstResult?_holds (lasts : Term.Lasts holds) {rules : List Rule}
    (known : ∀ rule ∈ rules, rule.AllTerms holds) {term result : Term} (given : holds term)
    (fired : firstResult? rules term = some result) : holds result := by
  obtain ⟨rule, member, fires⟩ := List.exists_of_findSome?_eq_some fired
  have unbound : Bindings.AllTerms [] holds := by simp [Bindings.AllTerms]
  have bound := matchTerm_allTerms lasts rule.pattern given unbound
  simp only [fire?] at fires
  generalize matchTerm rule.pattern term [] = matched at fires bound
  obtain ⟨isMatch, bindings⟩ := matched
  cases isMatch with
  | true =>
    cases fires
    exact substitute_holds lasts bound (known rule member).2
  | false => cases fires

end Rule

/-- The items of a term have a property with the term. An atom has no items. -/
theorem Term.Lasts.items (lasts : Term.Lasts holds) {term : Term} (given : holds term) :
    ∀ item ∈ term.items, holds item := by
  cases term with
  | list items => exact (lasts.list items).mp given
  | _ => simp [Term.items]

namespace Fact

/-- A match consists of items of the pattern and of the fact: at each place one of the two is taken,
and nothing is made anew. -/
theorem matchItems_hold {pattern fact values : List Term}
    (patternGiven : ∀ item ∈ pattern, holds item) (factGiven : ∀ item ∈ fact, holds item)
    (found : matchItems pattern fact = some values) : ∀ value ∈ values, holds value := by
  induction pattern generalizing fact values with
  | nil =>
    cases fact with
    | nil =>
      cases found
      simp
    | cons y ys => cases found
  | cons x xs inductionHypothesis =>
    cases fact with
    | nil => cases found
    | cons y ys =>
      obtain ⟨xGiven, xsGiven⟩ := List.forall_mem_cons.mp patternGiven
      obtain ⟨yGiven, ysGiven⟩ := List.forall_mem_cons.mp factGiven
      simp only [matchItems] at found
      split at found
      · rename_i value chosen
        obtain ⟨rest, foundRest, rfl⟩ := Option.map_eq_some_iff.mp found
        refine List.forall_mem_cons.mpr ⟨?_, inductionHypothesis xsGiven ysGiven foundRest⟩
        split at chosen
        · cases chosen
          exact yGiven
        · cases chosen
          exact xGiven
        · split at chosen
          · cases chosen
            exact xGiven
          · cases chosen
      · cases found

/-- So does the match of a term with a fact, which is a list of such items. -/
theorem match?_holds (lasts : Term.Lasts holds) {pattern fact : Term} {values : List Term}
    (patternGiven : holds pattern) (factGiven : holds fact)
    (found : match? pattern fact = some values) : holds (.list values) := by
  cases pattern with
  | list xs =>
    cases fact with
    | list ys =>
      exact (lasts.list values).mpr
        (matchItems_hold (lasts.items patternGiven) (lasts.items factGiven) found)
    | _ => cases found
  | _ => cases found

/-- The equations of a query hold items of the query and of the fact, and the operator. The operator
is one of the atoms that a reduction makes of its own. -/
theorem equations_hold (lasts : Term.Lasts holds) {query fact : List Term}
    (queryGiven : ∀ item ∈ query, holds item) (factGiven : ∀ item ∈ fact, holds item) :
    ∀ equation ∈ equations query fact, holds equation := by
  induction query generalizing fact with
  | nil => simp [equations]
  | cons x xs inductionHypothesis =>
    cases fact with
    | nil => simp [equations]
    | cons y ys =>
      obtain ⟨xGiven, xsGiven⟩ := List.forall_mem_cons.mp queryGiven
      obtain ⟨yGiven, ysGiven⟩ := List.forall_mem_cons.mp factGiven
      have others := inductionHypothesis xsGiven ysGiven
      simp only [equations]
      split
      · refine List.forall_mem_cons.mpr ⟨?_, others⟩
        rw [lasts.list]
        intro item member
        simp only [List.mem_cons, List.not_mem_nil, or_false] at member
        rcases member with rfl | rfl | rfl
        · exact lasts.equals
        · exact xGiven
        · exact yGiven
      · exact others

/-- The answers of a query have a property that the query and all facts have: each of them is the
list of the equations of one fact. -/
theorem answers_hold (lasts : Term.Lasts holds) {query facts : List Term}
    (queryGiven : ∀ item ∈ query, holds item) (factsGiven : ∀ fact ∈ facts, holds fact) :
    holds (.list (answers query facts)) := by
  rw [lasts.list]
  intro entry member
  obtain ⟨fact, admitted, rfl⟩ := List.mem_map.mp member
  rw [lasts.list]
  have isFact := (List.mem_filter.mp admitted).1
  exact equations_hold lasts queryGiven (lasts.items (factsGiven fact isFact))

end Fact

namespace Operator

/-- An operator on two operands has no answer, or a number or a truth value. Whatever its operands
are, no part of them is in the answer. -/
theorem binary_holds (lasts : Term.Lasts holds) (symbol : String) (x y : Term) :
    binary symbol x y = .unknown ∨ holds (binary symbol x y) := by
  unfold binary
  split
  · unfold onNumbers
    split
    all_goals first
      | exact .inr (lasts.number _)
      | exact .inr (lasts.bool _)
      | exact .inl rfl
  · split
    · unfold equality
      split
      · exact .inr (lasts.bool _)
      · exact .inl rfl
      · split
        · exact .inr (lasts.bool _)
        · exact .inr (lasts.bool _)
    · exact .inl rfl

/-- An operator on one operand has no answer, or a truth value. -/
theorem unary_holds (lasts : Term.Lasts holds) (symbol : String) (x : Term) :
    unary symbol x = .unknown ∨ holds (unary symbol x) := by
  unfold unary
  split
  · split
    · exact .inr (lasts.bool _)
    · exact .inl rfl
  · exact .inl rfl

end Operator

/-! ## Scopes and replies -/

/-- Everything that a scope holds has a property, the value on its way out included. -/
structure Scope.AllTerms (holds : Term → Prop) (scope : Scope) : Prop where
  facts : ∀ fact ∈ scope.facts, holds fact
  rules : ∀ rule ∈ scope.rules, rule.AllTerms holds
  bindings : scope.bindings.AllTerms holds
  leaving : ∀ value, scope.leaving = some value → holds value

namespace Scope

variable {scope : Scope}

/-- A scope in which nothing is known holds no term without the property. -/
theorem allTerms_empty : Scope.empty.AllTerms holds :=
  ⟨by simp [empty], by simp [empty], by simp [empty, Bindings.AllTerms], by simp [empty]⟩

/-- All terms have the property that all terms have, so a scope needs no condition where none is
asked of terms. -/
theorem allTerms_true (scope : Scope) : scope.AllTerms fun _ => True :=
  ⟨fun _ _ => trivial, fun _ _ => ⟨trivial, trivial⟩, fun _ _ => trivial, fun _ _ => trivial⟩

/-- Declaring adds one fact, behind the others, and leaves the rest of the scope as it is. -/
theorem AllTerms.declare (known : scope.AllTerms holds) {fact : Term} (given : holds fact) :
    (scope.declare fact).AllTerms holds := by
  refine ⟨?_, known.rules, known.bindings, known.leaving⟩
  intro other member
  rcases List.mem_append.mp member with old | new
  · exact known.facts other old
  · rw [List.mem_singleton.mp new]
    exact given

/-- Defining adds one rule, both sides of which have to have the property. -/
theorem AllTerms.define (known : scope.AllTerms holds) {rule : Rule} (given : rule.AllTerms holds) :
    (scope.define rule).AllTerms holds := by
  refine ⟨known.facts, ?_, known.bindings, known.leaving⟩
  intro other member
  rcases List.mem_append.mp member with old | new
  · exact known.rules other old
  · rw [List.mem_singleton.mp new]
    exact given

/-- Binding adds or replaces one entry, so only its own term has to be looked at. -/
theorem AllTerms.bind (known : scope.AllTerms holds) (name : String) {term : Term}
    (given : holds term) : (scope.bind name term).AllTerms holds :=
  ⟨known.facts, known.rules, known.bindings.insert name given, known.leaving⟩

/-- A return replaces the value on its way out, so the old one need not be looked at any more. -/
theorem AllTerms.leave (known : scope.AllTerms holds) {value : Term} (given : holds value) :
    (scope.leave value).AllTerms holds := by
  refine ⟨known.facts, known.rules, known.bindings, ?_⟩
  intro other isOther
  cases isOther
  exact given

/-- A value that is raised takes the place of the one on its way out, if there is one to raise. -/
theorem AllTerms.raise (known : scope.AllTerms holds) {raised : Option Term}
    (given : ∀ value, raised = some value → holds value) : (scope.raise raised).AllTerms holds := by
  cases raised with
  | none => exact known
  | some value => exact known.leave (given value rfl)

/-- A scope from which a value was taken holds nothing new, only less. -/
theorem AllTerms.stay (known : scope.AllTerms holds) :
    Scope.AllTerms holds { scope with leaving := none } :=
  ⟨known.facts, known.rules, known.bindings, by simp⟩

end Scope

/-- Everything in both scopes of a frame has a property. -/
structure Frame.AllTerms (holds : Term → Prop) (frame : Frame) : Prop where
  outer : frame.outer.AllTerms holds
  inner : frame.inner.AllTerms holds

/-- All terms of a frame have the property that all terms have, in both of its scopes. -/
theorem Frame.allTerms_true (frame : Frame) : frame.AllTerms fun _ => True :=
  ⟨frame.outer.allTerms_true, frame.inner.allTerms_true⟩

/-- A result, where there is one, has a property. -/
def Gives (holds : Term → Prop) (outcome : Except Fault Term) : Prop :=
  ∀ value, outcome = .ok value → holds value

/-- There is no result to look at after a fault, so it has every property. -/
theorem gives_error (fault : Fault) : Gives holds (.error fault) := by
  intro value impossible
  cases impossible

/-- A result that is known to have the property is the one that is given. -/
theorem gives_ok {value : Term} (given : holds value) : Gives holds (.ok value) := by
  intro other same
  cases same
  exact given

/-- A weaker property is had as well. Answers that may be the unknown are compared with those that
may not in this way. -/
theorem Gives.mono {weaker : Term → Prop} {outcome : Except Fault Term}
    (gives : Gives holds outcome) (weaken : ∀ value, holds value → weaker value) :
    Gives weaker outcome :=
  fun value isValue => weaken value (gives value isValue)

end TermLang
