import TermLang.Term

/-!
# Parts of terms

The atoms of a term from left to right, and the lists in it from the outside in. A term is made of
these two: what holds of all its atoms is what can be said of a term without looking at its shape.
-/

namespace TermLang.Term

mutual

/-- The atoms of a term from left to right. -/
def atoms : Term → List Term
  | .list items => atomsOf items
  | atom => [atom]

/-- The atoms of terms from left to right. -/
def atomsOf : List Term → List Term
  | [] => []
  | item :: rest => item.atoms ++ atomsOf rest

end

mutual

/-- The lists in a term that is nested `depth` deep, each with how deep it is nested. A list comes
before those inside it, and those inside it from left to right. -/
def lists (depth : Nat) : Term → List (Nat × Term)
  | .list items => (depth, .list items) :: listsOf (depth + 1) items
  | _ => []

/-- The lists in terms that are nested `depth` deep. -/
def listsOf (depth : Nat) : List Term → List (Nat × Term)
  | [] => []
  | item :: rest => item.lists depth ++ listsOf depth rest

end

/-- The first of some terms, if it is an atom. It is what a list is known by: the word that is
outlined, or the form that is checked. -/
def leadingAtom? : List Term → Option Term
  | [] => none
  | first :: _ => if first.isList then none else some first

/-- The atoms of a list are those of its items. -/
@[simp]
theorem atoms_list (items : List Term) : (Term.list items).atoms = atomsOf items := by
  rw [atoms]

/-- A term that is no list is its only atom. With `atoms_list` this is all that is known of atoms,
so that later proofs tell lists from other terms and no further. -/
theorem atoms_of_not_list {term : Term} (atomic : term.isList = false) : term.atoms = [term] := by
  cases term with
  | list items => exact absurd atomic (by simp [isList])
  | _ => rfl

/-- A term that is no list has no list in it, at any depth. -/
theorem lists_of_not_list {term : Term} (atomic : term.isList = false) (depth : Nat) :
    term.lists depth = [] := by
  cases term with
  | list items => exact absurd atomic (by simp [isList])
  | _ => rfl

/-- Every atom of terms is one of some term among them. -/
theorem mem_atomsOf {atom : Term} {terms : List Term} :
    atom ∈ atomsOf terms ↔ ∃ term ∈ terms, atom ∈ term.atoms := by
  induction terms with
  | nil => simp [atomsOf]
  | cons term rest inductionHypothesis => simp [atomsOf, inductionHypothesis]

/-- What holds of all atoms of a list holds of all atoms of its items. Every property of terms that
is stated by atoms passes from a list to its items and back by this. -/
theorem forall_atoms_list {holds : Term → Prop} {items : List Term} :
    (∀ atom ∈ (Term.list items).atoms, holds atom) ↔
      ∀ item ∈ items, ∀ atom ∈ item.atoms, holds atom := by
  simp only [atoms_list, mem_atomsOf]
  constructor
  · intro each item member atom isAtom
    exact each atom ⟨item, member, isAtom⟩
  · rintro each atom ⟨item, member, isAtom⟩
    exact each item member atom isAtom

mutual

/-- No list in a term is nested less deep than the term. -/
theorem depth_le_of_mem_lists {depth : Nat} {term : Term} {nested : Nat × Term}
    (member : nested ∈ term.lists depth) : depth ≤ nested.1 := by
  cases term with
  | list items =>
    rw [lists] at member
    rcases List.mem_cons.mp member with rfl | inner
    · exact Nat.le_refl depth
    · exact Nat.le_of_succ_le (depth_le_of_mem_listsOf inner)
  | _ => cases member

/-- No list in terms is nested less deep than the terms. -/
theorem depth_le_of_mem_listsOf {depth : Nat} {terms : List Term} {nested : Nat × Term}
    (member : nested ∈ listsOf depth terms) : depth ≤ nested.1 := by
  cases terms with
  | nil => cases member
  | cons term rest =>
    rw [listsOf] at member
    rcases List.mem_append.mp member with first | later
    · exact depth_le_of_mem_lists first
    · exact depth_le_of_mem_listsOf later

end

/-- The lists that are nested no deeper than the terms are those among the terms: what is inside of
one is nested at least one deeper than it. -/
theorem filter_listsOf (depth : Nat) (terms : List Term) :
    (listsOf depth terms).filter (·.1 == depth) =
      (terms.filter isList).map fun term => (depth, term) := by
  induction terms with
  | nil => simp [listsOf]
  | cons term rest inductionHypothesis =>
    rw [listsOf, List.filter_append, inductionHypothesis]
    cases term with
    | list items =>
      have deeper : (listsOf (depth + 1) items).filter (·.1 == depth) = [] := by
        rw [List.filter_eq_nil_iff]
        intro nested member
        have below := depth_le_of_mem_listsOf member
        simp only [beq_iff_eq]
        omega
      simp [lists, deeper, List.filter_cons, isList]
    | _ => simp [lists, isList]

end TermLang.Term
