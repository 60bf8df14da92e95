import Mathlib
import TermLang.Proofs.Term.Parts

/-!
# Equality of terms

Terms are equal when they have the same shape and equal atoms. Numbers are the only atoms that are
compared by value: the two zeros are equal though they are two numbers, and the value that is no
number differs from itself. So equality is symmetric and transitive, and a term is equal to itself
exactly as far as all its numbers are.

The comparison of doubles is read off their unpacked form. To each but one a number can be assigned
that stands for all its equals, and doubles are equal when they are assigned the same. Their order
is not covered.
-/

namespace TermLang

namespace Number

open Float.Model

/-- The one number that stands for all that are equal to an unpacked number: both zeros have the
same, and what is no number has none. -/
def standard? : UnpackedFloat → Option UnpackedFloat
  | .notANumber => none
  | .zero _ => some (.zero .positive)
  | other => some other

/-- Two unpacked numbers compare as equal exactly when one number stands for both. The cases follow
the comparison: infinities and zeros are told apart by their signs, finite numbers by sign, exponent
and significand, and what is no number compares with nothing. -/
theorem compare_eq_iff_standard? (x y : UnpackedFloat) :
    x.compare y = some .eq ↔ ∃ value, standard? x = some value ∧ standard? y = some value := by
  cases x with
  | notANumber => simp [UnpackedFloat.compare, standard?]
  | infinity sign =>
    cases y with
    | infinity other =>
      cases sign <;> cases other <;> simp [UnpackedFloat.compare, standard?, compare]
    | _ => cases sign <;> simp [UnpackedFloat.compare, standard?]
  | zero sign =>
    cases y with
    | notANumber => simp [UnpackedFloat.compare, standard?]
    | zero other => simp [UnpackedFloat.compare, standard?]
    | infinity other => cases other <;> simp [UnpackedFloat.compare, standard?]
    | finite other => cases other <;> simp [UnpackedFloat.compare, standard?]
  | finite sign significand exponent positive =>
    cases y with
    | notANumber => simp [UnpackedFloat.compare, standard?]
    | zero other => cases sign <;> simp [UnpackedFloat.compare, standard?]
    | infinity other => cases other <;> simp [UnpackedFloat.compare, standard?]
    | finite other significand' exponent' =>
      have swapped : exponent = exponent' ∧ significand = significand' ↔
          significand' = significand ∧ exponent' = exponent := by omega
      cases sign <;> cases other <;>
        simp [UnpackedFloat.compare, standard?, Ordering.then_eq_eq, swapped]

/-- Doubles are equal exactly when one number stands for both. The order on doubles is not needed,
and symmetry and transitivity come down to those of equality on what stands for them. -/
theorem beq_iff_standard? (a b : Float) :
    (a == b) = true ↔
      ∃ value, standard? a.toModel.unpack = some value ∧
        standard? b.toModel.unpack = some value := by
  rw [← compare_eq_iff_standard?]
  exact beq_iff_eq (α := Option Ordering)

/-- The order of two doubles does not matter for their equality: the one number that stands for both
stands for them in either order. -/
theorem double_beq_comm (a b : Float) : (a == b) = (b == a) := by
  rw [Bool.eq_iff_iff, beq_iff_standard?, beq_iff_standard?]
  simp only [and_comm]

/-- Doubles that equal the same double are equal. What stands for the one in the middle is unique,
so that it stands for all three. -/
theorem double_beq_trans {a b c : Float} (first : (a == b) = true) (second : (b == c) = true) :
    (a == c) = true := by
  rw [beq_iff_standard?] at first second ⊢
  obtain ⟨value, forA, forB⟩ := first
  obtain ⟨other, forB', forC⟩ := second
  obtain rfl : value = other := Option.some.inj (forB.symm.trans forB')
  exact ⟨value, forA, forC⟩

/-- A double equals itself unless it is no number, which is the only one for which nothing stands.
-/
theorem double_beq_self {a : Float} (number : a.isNaN = false) : (a == a) = true := by
  rw [beq_iff_standard?]
  change a.toModel.unpack.isNaN = false at number
  cases unpacked : a.toModel.unpack with
  | notANumber =>
    rw [unpacked] at number
    cases number
  | _ => exact ⟨_, rfl, rfl⟩

end Number

namespace Term

/-- All numbers of a term are numbers: none of them differs from itself. -/
def NaNFree (term : Term) : Prop :=
  ∀ atom ∈ term.atoms, ∀ value, atom = .number value → value.isNaN = false

/-- A list is free of what is no number exactly if all its items are, since its atoms are theirs. -/
theorem naNFree_list_iff (items : List Term) :
    (Term.list items).NaNFree ↔ ∀ item ∈ items, item.NaNFree :=
  forall_atoms_list

/-- Items are equal one by one, and there are equally many. In this form the comparison of items
needs no recursion of its own where it is used. -/
theorem equalItems_iff {xs ys : List Term} :
    equalItems xs ys = true ↔ List.Forall₂ (fun x y => x.equal y = true) xs ys := by
  induction xs generalizing ys with
  | nil => cases ys <;> simp [equalItems]
  | cons x rest inductionHypothesis =>
    cases ys with
    | nil => simp [equalItems]
    | cons y others => simp [equalItems, inductionHypothesis]

/-- Lists are equal exactly if their items are, one by one. -/
@[simp]
theorem equal_list_list (xs ys : List Term) :
    (Term.list xs).equal (.list ys) = true ↔ List.Forall₂ (fun x y => x.equal y = true) xs ys := by
  rw [equal, equalItems_iff]

/-- What is equal to a list is a list: terms of two shapes are never equal, whatever they hold. -/
theorem exists_items_of_equal {xs : List Term} {y : Term} (equal : (Term.list xs).equal y = true) :
    ∃ ys, y = .list ys := by
  cases y with
  | list ys => exact ⟨ys, rfl⟩
  | _ => simp [Term.equal] at equal

/-- Equal terms have one tag, so that terms of two tags are told apart without a look at what they
hold. -/
theorem tag_eq_of_equal {x y : Term} (equal : x.equal y = true) : x.tag = y.tag := by
  cases x <;> cases y <;> simp_all [Term.equal, tag]

/-- An atom that is no number is equal to itself only. Numbers are the exception on both sides: the
two zeros are equal, and one that is no number differs from itself. -/
theorem eq_of_equal_atom {x y : Term} (equal : x.equal y = true) (atomic : x.isList = false)
    (named : ∀ value, x ≠ .number value) : x = y := by
  cases x <;> cases y <;> simp_all [Term.equal, isList]

mutual

/-- The order of two terms does not matter for their equality. Proved with its counterpart on items,
by recursion on both terms; numbers use the same fact about doubles. -/
theorem equal_comm (x y : Term) : x.equal y = y.equal x := by
  cases x with
  | list xs =>
    cases y with
    | list ys =>
      rw [equal, equal]
      exact equalItems_comm xs ys
    | _ => rfl
  | number a =>
    cases y with
    | number b =>
      rw [equal, equal]
      exact Number.double_beq_comm a b
    | _ => rfl
  | _ => cases y <;> simp [equal, BEq.comm]

/-- The order of two sequences of items does not matter for their equality. -/
theorem equalItems_comm (xs ys : List Term) : equalItems xs ys = equalItems ys xs := by
  cases xs with
  | nil => cases ys <;> rfl
  | cons x rest =>
    cases ys with
    | nil => rfl
    | cons y others =>
      rw [equalItems, equalItems, equal_comm x y, equalItems_comm rest others]

end

mutual

/-- Terms that equal the same term are equal. An atom that is no number is the term it equals, and
for numbers this is transitivity on doubles. -/
theorem equal_trans {x y z : Term} (first : x.equal y = true) (second : y.equal z = true) :
    x.equal z = true := by
  cases x with
  | list xs =>
    obtain ⟨ys, rfl⟩ := exists_items_of_equal first
    obtain ⟨zs, rfl⟩ := exists_items_of_equal second
    rw [equal] at first second ⊢
    exact equalItems_trans first second
  | number a =>
    cases y with
    | number b =>
      cases z with
      | number c =>
        rw [equal] at first second ⊢
        exact Number.double_beq_trans first second
      | _ => cases tag_eq_of_equal second
    | _ => cases tag_eq_of_equal first
  | _ =>
    obtain rfl := eq_of_equal_atom first rfl nofun
    exact second

/-- Items that equal the same items, one by one, are equal. -/
theorem equalItems_trans {xs ys zs : List Term} (first : equalItems xs ys = true)
    (second : equalItems ys zs = true) : equalItems xs zs = true := by
  cases xs with
  | nil =>
    cases ys with
    | nil => exact second
    | cons y ys => simp [equalItems] at first
  | cons x xs =>
    cases ys with
    | nil => simp [equalItems] at first
    | cons y ys =>
      cases zs with
      | nil => simp [equalItems] at second
      | cons z zs =>
        rw [equalItems, Bool.and_eq_true] at first second ⊢
        exact ⟨equal_trans first.1 second.1, equalItems_trans first.2 second.2⟩

end

/-- A term may be replaced by an equal one wherever it is compared, by symmetry and transitivity. -/
theorem equal_congr_left {x y : Term} (equal : x.equal y = true) (z : Term) :
    x.equal z = y.equal z := by
  rw [Bool.eq_iff_iff]
  constructor
  · intro left
    rw [equal_comm] at equal
    exact equal_trans equal left
  · intro right
    exact equal_trans equal right

mutual

/-- A term whose numbers are all numbers is equal to itself. The condition cannot be dropped: a list
with something in it that is no number differs from itself. -/
theorem NaNFree.equal_self {term : Term} (numeric : term.NaNFree) : term.equal term = true := by
  cases term with
  | list items =>
    rw [equal]
    exact equalItems_self ((naNFree_list_iff items).mp numeric)
  | number value =>
    rw [equal]
    have own : Term.number value ∈ (Term.number value).atoms := List.mem_singleton_self _
    exact Number.double_beq_self (numeric _ own value rfl)
  | _ => simp [equal]

/-- Items whose numbers are all numbers are equal to themselves. -/
theorem equalItems_self {items : List Term} (numeric : ∀ item ∈ items, item.NaNFree) :
    equalItems items items = true := by
  cases items with
  | nil => rfl
  | cons first rest =>
    obtain ⟨here, later⟩ := List.forall_mem_cons.mp numeric
    rw [equalItems, Bool.and_eq_true]
    exact ⟨here.equal_self, equalItems_self later⟩

end

end Term

end TermLang
