import TermLang.Rule

/-!
# Scopes

A scope holds the facts, the rules and the bindings that a reduction can see, and the value of
a return that is on its way out. A list is reduced against a copy of its caller's scope; when
the reduction is over, the copy is folded back with `merge`: facts and rules are taken from the
copy as they are, bindings of the copy win over the caller's, and a return goes up.
-/

namespace TermLang

/-- What a reduction can see. -/
structure Scope where
  /-- The declared facts, the latest last. -/
  facts : List Term
  /-- The rules, the latest last. -/
  rules : List Rule
  /-- The bound variables. -/
  bindings : Bindings
  /-- The value of a return that is on its way out. -/
  leaving : Option Term
  deriving Inhabited, Repr

namespace Scope

/-- The scope in which nothing is known. -/
def empty : Scope :=
  ⟨[], [], [], none⟩

/-- Folds the scope of a finished reduction back into its caller's. -/
def merge (caller child : Scope) : Scope where
  facts := child.facts
  rules := child.rules
  bindings := child.bindings.orElse caller.bindings
  leaving := child.leaving.or caller.leaving

/-- Adds a fact behind all others. -/
def declare (scope : Scope) (fact : Term) : Scope :=
  { scope with facts := scope.facts ++ [fact] }

/-- Adds a rule behind all others. -/
def define (scope : Scope) (rule : Rule) : Scope :=
  { scope with rules := scope.rules ++ [rule] }

/-- Binds a variable. -/
def bind (scope : Scope) (name : String) (term : Term) : Scope :=
  { scope with bindings := scope.bindings.insert name term }

/-- Sets the value of a return. -/
def leave (scope : Scope) (value : Term) : Scope :=
  { scope with leaving := some value }

/-- Takes the value of a return out of a scope. -/
def takeLeaving (scope : Scope) : Option Term × Scope :=
  (scope.leaving, { scope with leaving := none })

/-- Replaces the item at place `item` of the fact at place `fact`. -/
def setFactItem (scope : Scope) (fact item : Nat) (term : Term) : Scope :=
  { scope with
    facts := scope.facts.modify fact fun
      | .list items => .list (items.set item term)
      | atom => atom }

end Scope

end TermLang
