import TermLang.Proofs.Reduction.Run

/-!
# Copying and merging is working in place

A list is reduced against a copy of its caller's scope, and the copy is folded back at the end. Here
the same reduction is written without copy and fold, each list changing the scope of its caller
directly, and the two are shown to give the same replies: outcome, scope and journal, after a
result, after every fault and with a value on its way out.

The fold would matter only if some function dropped a name or a value on its way out from the copy;
`Run.extends` says that none does.
-/

namespace TermLang

open Reduction

/-- Reduces a term in place, with this much depth left: every list, every result of a rule and every
loaded program works on the one scope it is given. Queries keep their inner scope. -/
def reduceInPlace (setting : Setting) : (left : Nat) → Term → Scope → Journal → Reply Scope
  | 0, .list _, scope, journal => ⟨.error (tooDeep setting), scope, journal⟩
  | left + 1, .list items, scope, journal =>
    reduceFrame setting (reduceInPlace setting left) items scope
      (journal.note setting (.reduce (.list items) (setting.maxDepth - left)))
  | _, atom, scope, journal => ⟨.ok atom, scope, journal⟩

/-- Reducing in copies that are folded back and reducing in place give the same reply, for every
term, scope, journal and depth. -/
theorem reduce_eq_reduceInPlace (setting : Setting) (left : Nat) (term : Term) (caller : Scope)
    (journal : Journal) :
    reduce setting left term caller journal = reduceInPlace setting left term caller journal := by
  induction left generalizing term caller journal with
  | zero =>
    cases term with
    | _ => rfl
  | succ left inductionHypothesis =>
    cases term with
    | list items =>
      have below : reduce setting left = reduceInPlace setting left := by
        funext term scope journal
        exact inductionHypothesis term scope journal
      rw [reduce_list, below]
      rfl
    | _ => rfl

end TermLang
