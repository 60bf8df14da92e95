import TermLang.Proofs.Reduction.Run
import TermLang.Proofs.Term.Language

/-!
# Reduction stays inside the language

From terms of the language a reduction makes terms of the language only, and it leaves only such
terms in its scopes: being in the language is a property that lasts. A list is in the language with
its items; truth values, numbers, the operator of an equation and the keyword of a union are in the
language; and so are the programs that are loaded, because they were read.

The unknown is the answer of an operator that has none, and it is not in the language. It does not
leave the application of a list, where a rule or the list itself takes its place.
-/

namespace TermLang

open Term

/-- Being in the language lasts: a source spells every atom that a reduction makes of its own, or
the atom is a number. -/
theorem Term.lasts_inLanguage : Term.Lasts InLanguage where
  list := inLanguage_list_iff
  bool := inLanguage_bool
  number := inLanguage_number
  equals := inLanguage_of_spelled (.bare (.binaryOp (by decide)))
  union := inLanguage_of_spelled (.bare (@Grammar.Bare.keyword ['u', 'n', 'i', 'o', 'n']
    (by decide) (by decide)))
  read := inLanguage_of_readProgram

/-- Everything that a scope holds is in the language. -/
abbrev Scope.InLanguage (scope : Scope) : Prop := scope.AllTerms Term.InLanguage

/-- Every reduction stays inside the language, as it keeps every property that lasts. Nothing more
has to be said about its levels. -/
theorem reduce_speaks (setting : Setting) (left : Nat) :
    Evaluator.Keeps Term.InLanguage (reduce setting left) :=
  reduce_keeps lasts_inLanguage setting left

end TermLang
