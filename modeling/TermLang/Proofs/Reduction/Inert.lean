import Mathlib.Data.List.Forall2
import TermLang.Proofs.Reduction.Agreement

/-!
# Terms that reduction leaves alone

Code and data share one shape, so nothing marks a list as data. A list stays as it is if it holds
such terms only, no built-in has an answer for it, no form is missing for its keyword, and no rule
matches it. `Inert` says so of a term as a whole, and `settles_inert` that it is then the result of
its own reduction, wherever the depth that is left holds its nesting.

`Settles` also covers terms that do change: it allows any value, but nothing else to happen than
that the trace gets longer. Reductions that print, declare, load or return are outside of it.
-/

namespace TermLang

namespace Term

mutual

/-- How deep the lists of a term are nested. -/
def height : Term → Nat
  | .list items => heightOf items + 1
  | _ => 0

/-- How deep the lists of some terms are nested. -/
def heightOf : List Term → Nat
  | [] => 0
  | item :: rest => max item.height (heightOf rest)

end

/-- Terms are nested no deeper than a bound exactly if none of them is. -/
theorem heightOf_le_iff {items : List Term} {bound : Nat} :
    heightOf items ≤ bound ↔ ∀ item ∈ items, item.height ≤ bound := by
  induction items with
  | nil => simp [heightOf]
  | cons item rest inductionHypothesis =>
    rw [heightOf, Nat.max_le, inductionHypothesis, List.forall_mem_cons]

/-- A list takes one level of a depth that holds its nesting and leaves the rest to its items. So
the depth and the nesting go down together, and the limit is never met. -/
theorem exists_level {items : List Term} {left : Nat} (fits : (Term.list items).height ≤ left) :
    ∃ level, left = level + 1 ∧ ∀ item ∈ items, item.height ≤ level := by
  rw [height] at fits
  obtain ⟨level, rfl⟩ := Nat.exists_eq_add_of_le' (Nat.one_le_of_lt fits)
  exact ⟨level, rfl, heightOf_le_iff.mp (Nat.le_of_succ_le_succ fits)⟩

end Term

/-- Whether a form with two operands has no answer for these. -/
def Form.lacks (form : Form) (x y : Term) : Bool :=
  match form, x, y with
  | .both, .bool _, .bool _ => false
  | .either, .bool _, .bool _ => false
  | .union, .list _, .list _ => false
  | .bind, .var _, _ => false
  | .define, _, _ => false
  | _, _, _ => true

/-- A reduction gives a value and leaves the scope as it is, and the journal but for its trace. -/
def Evaluator.Settles (below : Evaluator) (scope : Scope) (term value : Term) : Prop :=
  ∀ journal, ∃ trace, below term scope journal = ⟨.ok value, scope, { journal with trace }⟩

namespace Reduction

/-- Whether no built-in has an answer for a list of this shape, and none is missing. -/
def Shape.isIdle : Shape → Bool
  | .binaryOp symbol x y => (Operator.binary symbol x y).isUnknown
  | .unaryOp symbol x => (Operator.unary symbol x).isUnknown
  | .binaryForm form x y => form.lacks x y
  | .unaryForm _ _ | .formless _ _ => false
  | .data => true

/-- Whether a term calls for an operator or a form as the first item of a list. -/
def isApplicable : Term → Bool
  | .binaryOp _ | .unaryOp _ | .keyword _ => true
  | _ => false

/-- A list is data if its first item calls for nothing, whatever the others are; an empty list has
no first item. -/
theorem shape_of_data {items : List Term}
    (data : ∀ first ∈ items.head?, isApplicable first = false) : Shape.of items = .data := by
  cases items with
  | nil => rfl
  | cons first rest =>
    have calls := data first rfl
    cases first with
    | binaryOp symbol => cases calls
    | unaryOp symbol => cases calls
    | keyword keyword => cases calls
    | _ => rfl

/-- So no built-in has an answer for it, and none is missing. -/
theorem isIdle_of_data {items : List Term}
    (data : ∀ first ∈ items.head?, isApplicable first = false) :
    (Shape.of items).isIdle = true := by
  rw [shape_of_data data]
  rfl

/-- Terms that mean nothing but themselves under some rules: atoms, and lists of such terms that
call for nothing. -/
inductive Inert (rules : List Rule) : Term → Prop where
  | atom {term : Term} (atomic : term.isList = false) : Inert rules term
  | list {items : List Term} (each : ∀ item ∈ items, Inert rules item)
      (idle : (Shape.of items).isIdle = true)
      (unmatched : ∀ rule ∈ rules, rule.fire? (.list items) = none) : Inert rules (.list items)

/-- A list is inert if its items are, no built-in has an answer for it, and no rule matches it. It
is not inert as an atom. -/
theorem inert_list_iff {rules : List Rule} {items : List Term} :
    Inert rules (.list items) ↔ (∀ item ∈ items, Inert rules item) ∧
      (Shape.of items).isIdle = true ∧ ∀ rule ∈ rules, rule.fire? (.list items) = none := by
  constructor
  · intro inert
    cases inert with
    | atom atomic => cases atomic
    | list each idle unmatched => exact ⟨each, idle, unmatched⟩
  · rintro ⟨each, idle, unmatched⟩
    exact .list each idle unmatched

/-! ## Applying an idle list -/

variable (setting : Setting) {below : Evaluator}

/-- A form that lacks its operands has no answer, and is applied without any effect: neither is a
rule defined nor a name bound. -/
theorem applyBinary_of_lacks {form : Form} {x y : Term} (lacks : form.lacks x y = true)
    (frame : Frame) (journal : Journal) :
    applyBinary setting form x y frame journal = ⟨.ok .unknown, frame, journal⟩ := by
  unfold applyBinary
  split
  case h_6 => rfl
  all_goals cases lacks

/-- No built-in has an answer for an idle shape. Forms with one operand always have one, and so they
are never idle. -/
theorem applyShape_of_isIdle {shape : Shape} (idle : shape.isIdle = true) (frame : Frame)
    (journal : Journal) :
    applyShape setting below shape frame journal = ⟨.ok .unknown, frame, journal⟩ := by
  have eq_unknown {term : Term} (unknown : term.isUnknown = true) : term = .unknown := by
    cases term with
    | unknown => rfl
    | _ => cases unknown
  cases shape with
  | binaryOp symbol x y => rw [applyShape, eq_unknown idle]
  | unaryOp symbol x => rw [applyShape, eq_unknown idle]
  | binaryForm form x y => exact applyBinary_of_lacks setting idle frame journal
  | unaryForm form x => cases idle
  | formless keyword operands => cases idle
  | data => rfl

/-- An idle list that no rule matches stays as it is. No form is missing for its keyword, so it does
not fail either. -/
theorem dispatch_of_isIdle {items : List Term} {frame : Frame}
    (idle : (Shape.of items).isIdle = true)
    (unmatched : ∀ rule ∈ frame.outer.rules, rule.fire? (.list items) = none) (journal : Journal) :
    dispatch setting below items frame journal = ⟨.ok (.list items), frame, journal⟩ := by
  have noRule : useRule? setting below items frame journal = none := by
    simpa [useRule?, Rule.firstResult?] using unmatched
  have stays : unreduced (Shape.of items) items = .ok (.list items) := by
    cases shape : Shape.of items with
    | formless keyword operands =>
      rw [shape] at idle
      cases idle
    | _ => rfl
  simp only [dispatch, applyShape_of_isIdle setting idle, noRule, stays]

/-! ## Reductions that settle -/

variable {scope : Scope}

/-- Items that settle are reduced one by one, and nothing else happens: the scope is the same before
each of them, so what settles there settles wherever it stands. -/
theorem reduceItems_of_settles (calm : scope.leaving = none) {items values : List Term}
    (each : List.Forall₂ (below.Settles scope) items values) (done : List Term)
    (journal : Journal) :
    ∃ trace, reduceItems below items done scope journal =
      (.reduced (done.reverse ++ values), scope, { journal with trace }) := by
  induction each generalizing done journal with
  | nil => exact ⟨journal.trace, by rw [reduceItems, List.append_nil]⟩
  | @cons item value items values settles _ inductionHypothesis =>
    obtain ⟨trace, first⟩ := settles journal
    obtain ⟨trace', others⟩ := inductionHypothesis (value :: done) { journal with trace }
    refine ⟨trace', ?_⟩
    simp only [reduceItems, calm, first, others]
    simp

/-- A list settles if its items do and their values are applied without effect. The scope is folded
back unchanged. -/
theorem settles_list (calm : scope.leaving = none) {left : Nat} {items values : List Term}
    {value : Term}
    (each : List.Forall₂ (Evaluator.Settles (reduce setting left) scope) items values)
    (applied : ∀ journal, dispatch setting (reduce setting left) values ⟨scope, .empty⟩ journal =
      ⟨.ok value, ⟨scope, .empty⟩, journal⟩) :
    Evaluator.Settles (reduce setting (left + 1)) scope (.list items) value := by
  intro journal
  obtain ⟨trace, noted⟩ := journal.note_eq setting
    (.reduce (.list items) (setting.maxDepth - left))
  obtain ⟨trace', reduced⟩ := reduceItems_of_settles calm each [] { journal with trace }
  refine ⟨trace', ?_⟩
  rw [reduce_list, noted]
  simp only [reduceFrame, reduced, List.reverse_nil, List.nil_append, applied, overriding, calm]

/-- An atom settles to itself with any depth left, also with none. -/
theorem settles_atom {term : Term} (atomic : term.isList = false) (left : Nat) (scope : Scope) :
    Evaluator.Settles (reduce setting left) scope term term := by
  intro journal
  refine ⟨journal.trace, ?_⟩
  cases term with
  | list items => cases atomic
  | _ => cases left <;> rfl

/-- A list whose items settle to an inert list settles to it, wherever the depth that is left holds
its nesting. That the result is inert makes applying it do nothing. -/
theorem settles_map (calm : scope.leaving = none) {value : Term → Term} {items : List Term}
    (inert : Inert scope.rules (.list (items.map value)))
    (each : ∀ item ∈ items, Inert scope.rules (value item) → ∀ left, item.height ≤ left →
      Evaluator.Settles (reduce setting left) scope item (value item))
    {left : Nat} (fits : (Term.list items).height ≤ left) :
    Evaluator.Settles (reduce setting left) scope (.list items) (.list (items.map value)) := by
  obtain ⟨level, rfl, fitsItems⟩ := Term.exists_level fits
  obtain ⟨inertItems, idle, unmatched⟩ := inert_list_iff.mp inert
  apply settles_list setting calm
  · rw [List.forall₂_map_right_iff, List.forall₂_same]
    intro item member
    exact each item member (inertItems _ (List.mem_map_of_mem member)) level
      (fitsItems item member)
  · exact dispatch_of_isIdle setting idle unmatched

/-- An inert term settles to itself, wherever the depth that is left holds its nesting. The
induction is on how it is inert: each list takes one level. -/
theorem settles_inert (calm : scope.leaving = none) {term : Term} (inert : Inert scope.rules term)
    {left : Nat} (fits : term.height ≤ left) :
    Evaluator.Settles (reduce setting left) scope term term := by
  induction inert generalizing left with
  | atom atomic => exact settles_atom setting atomic left scope
  | @list items inertItems idle unmatched inductionHypothesis =>
    have inert : Inert scope.rules (.list (items.map id)) := by
      rw [List.map_id]
      exact .list inertItems idle unmatched
    have settles := settles_map setting calm inert
      (fun item member _ _ => inductionHypothesis item member) fits
    rwa [List.map_id] at settles

end Reduction

end TermLang
