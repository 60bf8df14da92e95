import TermLang.Alphabet
import TermLang.Proofs.Reduction.Inert

/-!
# Data reduces to itself

Facts and answers are kept as terms and come back into reductions, where nothing tells them from
programs. Whether a term is data can be decided from the term and the rules alone, by the words that
its lists start with and the kinds of their operands; `isData` does so. It is the same as being
inert, which is said by the shapes that the reduction tells apart, and an inert term is the result
of its own reduction.

Which other terms come out of a reduction as they went in is not said, and neither what becomes of
data whose nesting is deeper than the depth that is left.
-/

namespace TermLang

/-- Whether a term is a truth value. -/
def Term.isBool : Term → Bool
  | .bool _ => true
  | _ => false

/-- Whether an operator has an answer for two operands: each has one for two numbers, and equality
for anything else but a variable before something that is none. -/
def Operator.isDefined (symbol : String) (x y : Term) : Bool :=
  match x, y with
  | .number _, .number _ => binaryOperators.contains symbol
  | _, _ => symbol == "=" && !(x.isVar && !y.isVar)

/-- Equality is open between a variable and something that is none. Two variables are compared by
their names, and whatever stands before a variable is compared as a term. -/
theorem Operator.isUnknown_equality (x y : Term) :
    (equality x y).isUnknown = (x.isVar && !y.isVar) := by
  cases x with
  | var name =>
    cases y with
    | _ => rfl
  | _ =>
    unfold equality
    dsimp only
    split
    · rfl
    · rfl

/-- An operator has no answer exactly if it is not defined. For two numbers every operator of the
language has one, and for other operands equality alone. -/
theorem Operator.isUnknown_binary (symbol : String) (x y : Term) :
    (binary symbol x y).isUnknown = !isDefined symbol x y := by
  unfold binary isDefined
  split
  · unfold onNumbers
    split
    case h_12 => simp_all [Term.isUnknown, binaryOperators]
    all_goals rfl
  · by_cases equation : symbol = "="
    · simp [equation, isUnknown_equality]
    · simp [equation, Term.isUnknown]

/-- Negation has an answer for truth values, and no other operator takes one operand. -/
theorem Operator.isUnknown_unary (symbol : String) (x : Term) :
    (unary symbol x).isUnknown = !(symbol == "!" && x.isBool) := by
  cases x with
  | bool value =>
    simp only [unary]
    split
    · rename_i isNegation
      simp [isNegation, Term.isUnknown, Term.isBool]
    · rename_i other
      simp [other, Term.isUnknown, Term.isBool]
  | _ => simp [unary, Term.isUnknown, Term.isBool]

namespace Reduction

/-- Whether a keyword has no answer for some operands, and none is missing: of all forms only four
expect operands of a kind, and are left as they are with others. -/
def lacksOperands (keyword : String) : List Term → Bool
  | [x, y] =>
    (keyword == ".and" || keyword == ".or") && !(x.isBool && y.isBool) ||
      keyword == ".union" && !(x.isList && y.isList) || keyword == ".is" && !x.isVar
  | _ => false

/-- Whether a list of data is data itself, rules apart. -/
def staysList : List Term → Bool
  | [.binaryOp symbol, x, y] => !Operator.isDefined symbol x y
  | [.unaryOp symbol, x] => !(symbol == "!" && x.isBool)
  | .keyword keyword :: operands => lacksOperands keyword operands
  | _ => true

mutual

/-- Whether a term is data under some rules: an atom, or a list of data that stays as it is and that
no rule matches. -/
def isData (rules : List Rule) : Term → Bool
  | .list items => areData rules items && staysList items &&
      rules.all fun rule => !(Rule.matchTerm rule.pattern (.list items) []).1
  | _ => true

/-- Whether all terms are data. -/
def areData (rules : List Rule) : List Term → Bool
  | [] => true
  | item :: rest => isData rules item && areData rules rest

end

/-- A form with two operands lacks them as its keyword does. There are five such forms, and the one
that defines takes any operands. -/
theorem lacks_eq_lacksOperands {form : Form} (two : form.arity = 2) (x y : Term) :
    form.lacks x y = lacksOperands form.keyword [x, y] := by
  cases form with
  | both => cases x <;> cases y <;> rfl
  | either => cases x <;> cases y <;> rfl
  | union => cases x <;> cases y <;> rfl
  | define => rfl
  | bind => cases x <;> rfl
  | _ => cases two

/-- A keyword without a form for two operands lacks none: the four keywords that may lack operands
all have one. -/
theorem lacksOperands_of_none {keyword : String} (formless : formOf? keyword 2 = none)
    (x y : Term) : lacksOperands keyword [x, y] = false := by
  have other (form : Form) (two : form.arity = 2) : keyword ≠ form.keyword := by
    rintro rfl
    rw [formOf?_eq_some_iff.mpr ⟨rfl, two⟩] at formless
    cases formless
  have noBoth : keyword ≠ ".and" := other .both rfl
  have noEither : keyword ≠ ".or" := other .either rfl
  have noUnion : keyword ≠ ".union" := other .union rfl
  have noBind : keyword ≠ ".is" := other .bind rfl
  simp [lacksOperands, noBoth, noEither, noUnion, noBind]

/-- A list that starts with a keyword is idle exactly if the keyword lacks its operands. With any
other number of operands than two, either a form is applied or a form is missing, and neither leaves
the list as it is. -/
theorem isIdle_keyword (keyword : String) (operands : List Term) :
    (Shape.of (.keyword keyword :: operands)).isIdle = lacksOperands keyword operands := by
  match operands with
  | [] =>
    simp only [Shape.of]
    cases formOf? keyword 0 with
    | none => rfl
    | some form => rfl
  | [x] =>
    simp only [Shape.of]
    cases formOf? keyword 1 with
    | none => rfl
    | some form => rfl
  | [x, y] =>
    simp only [Shape.of, List.length_cons, List.length_nil]
    cases found : formOf? keyword 2 with
    | none => exact (lacksOperands_of_none found x y).symm
    | some form =>
      obtain ⟨rfl, two⟩ := formOf?_eq_some_iff.mp found
      exact lacks_eq_lacksOperands two x y
  | x :: y :: z :: more =>
    simp only [Shape.of]
    cases formOf? keyword (more.length + 3) with
    | none => rfl
    | some form => rfl

/-- A list stays as it is exactly if its shape is idle. The one is told from the items, the other
from the shapes that the reduction tells apart. -/
theorem isIdle_shape (items : List Term) : (Shape.of items).isIdle = staysList items := by
  cases items with
  | nil => rfl
  | cons first rest =>
    cases first with
    | binaryOp symbol =>
      match rest with
      | [x, y] => exact Operator.isUnknown_binary symbol x y
      | [] | [_] | _ :: _ :: _ :: _ => rfl
    | unaryOp symbol =>
      match rest with
      | [x] => exact Operator.isUnknown_unary symbol x
      | [] | _ :: _ :: _ => rfl
    | keyword keyword => exact isIdle_keyword keyword rest
    | _ => rfl

/-- A rule does nothing with a term exactly if its pattern does not match, whatever its result is.
-/
theorem fire?_eq_none_iff (rule : Rule) (term : Term) :
    rule.fire? term = none ↔ (Rule.matchTerm rule.pattern term []).1 = false := by
  rw [Rule.fire?]
  cases Rule.matchTerm rule.pattern term [] with
  | mk matched bindings =>
    cases matched with
    | true => simp
    | false => simp

mutual

/-- Data is what is inert: both ask the same of a list, of its items and of the rules, the one by
computing and the other by listing the ways. -/
theorem isData_iff_inert (rules : List Rule) (term : Term) :
    isData rules term = true ↔ Inert rules term := by
  cases term with
  | list items =>
    rw [inert_list_iff, isData, Bool.and_eq_true, Bool.and_eq_true, areData_iff rules items,
      isIdle_shape, List.all_eq_true, and_assoc]
    simp only [fire?_eq_none_iff, Bool.not_eq_true']
  | _ => exact ⟨fun _ => .atom rfl, fun _ => rfl⟩

/-- All items of a list are data exactly if each of them is inert. -/
theorem areData_iff (rules : List Rule) (items : List Term) :
    areData rules items = true ↔ ∀ item ∈ items, Inert rules item := by
  cases items with
  | nil => simp [areData]
  | cons item rest =>
    rw [areData, Bool.and_eq_true, isData_iff_inert rules item, areData_iff rules rest,
      List.forall_mem_cons]

end

/-- Data is the result of its own reduction, wherever the depth that is left holds its nesting and
no value is on its way out: the scope stays as it is, and the journal but for its trace. -/
theorem data_reduces_to_itself (setting : Setting) (left : Nat) (term : Term) (scope : Scope)
    (journal : Journal) (calm : scope.leaving = none) (data : isData scope.rules term = true)
    (fits : term.height ≤ left) :
    ∃ trace, reduce setting left term scope journal = ⟨.ok term, scope, { journal with trace }⟩ :=
  settles_inert setting calm ((isData_iff_inert scope.rules term).mp data) fits journal

/-- An open equation with a list as its value and a union of a word, beside a rule that matches
lists of two items. -/
theorem open_equation_reduces_to_itself :
    let rules : List Rule := [⟨.list [.wildcard "_", .var "X"], .var "X"⟩]
    let equation : Term := .list [.binaryOp "=", .var "X", .list [.str "a", .bool true, .number 1]]
    let union : Term := .list [.keyword ".union", .str "a", .list []]
    let term : Term := .list [.str "known", equation, union]
    isData rules term = true ∧ term.height = 3 ∧
      ∃ trace, reduce default 3 term ⟨[equation], rules, [], none⟩ .empty =
        ⟨.ok term, ⟨[equation], rules, [], none⟩, { Journal.empty with trace }⟩ := by
  intro rules equation union term
  have data : isData rules term = true := by decide
  have fits : term.height = 3 := by decide
  exact ⟨data, fits, data_reduces_to_itself default 3 term ⟨[equation], rules, [], none⟩ .empty rfl
    data (Nat.le_of_eq fits)⟩

end Reduction

end TermLang
