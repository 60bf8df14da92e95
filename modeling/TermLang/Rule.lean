import TermLang.Binding

/-!
# Rules

A rule puts its result in the place of every list that its pattern matches. In a pattern a variable
stands for any term, and for the same one wherever it occurs; a wildcard stands for any term
each time anew; a list stands for a list of the same length, item by item; every other atom
stands for itself. Variables of the matched term are plain data.
-/

namespace TermLang

/-- A pattern and what takes the place of a list that it matches. -/
structure Rule where
  /-- What the rule applies to. -/
  pattern : Term
  /-- What takes its place, with the variables of the pattern filled in. -/
  result : Term
  deriving Inhabited, Repr

namespace Rule

mutual

/-- Matches a pattern against a term and extends the bindings. Bindings made before a mismatch
stay. -/
def matchTerm : Term → Term → Bindings → Bool × Bindings
  | .wildcard _, _, bindings => (true, bindings)
  | .var name, term, bindings =>
    match bindings.find? name with
    | some bound => (Term.equal bound term, bindings)
    | none => (true, bindings.insert name term)
  | .list patterns, .list terms, bindings =>
    if patterns.length = terms.length then matchItems patterns terms bindings
    else (false, bindings)
  | pattern, term, bindings => (Term.equal pattern term, bindings)

/-- Matches item by item and stops at the first mismatch. -/
def matchItems : List Term → List Term → Bindings → Bool × Bindings
  | pattern :: patterns, term :: terms, bindings =>
    match matchTerm pattern term bindings with
    | (true, extended) => matchItems patterns terms extended
    | (false, extended) => (false, extended)
  | _, _, bindings => (true, bindings)

end

mutual

/-- Fills in the bound variables of a term; the others stay. -/
def substitute (bindings : Bindings) : Term → Term
  | .var name => (bindings.find? name).getD (.var name)
  | .list items => .list (substituteItems bindings items)
  | atom => atom

/-- Fills in the bound variables of every item. -/
def substituteItems (bindings : Bindings) : List Term → List Term
  | [] => []
  | item :: rest => substitute bindings item :: substituteItems bindings rest

end

/-- What a rule makes of a term, if its pattern matches. -/
def fire? (rule : Rule) (term : Term) : Option Term :=
  match matchTerm rule.pattern term [] with
  | (true, bindings) => some (substitute bindings rule.result)
  | (false, _) => none

/-- What the first rule that matches makes of a term. -/
def firstResult? (rules : List Rule) (term : Term) : Option Term :=
  rules.findSome? (·.fire? term)

end Rule

end TermLang
