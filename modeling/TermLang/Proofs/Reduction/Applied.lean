import TermLang.Proofs.Reduction.Run

/-!
# The lists that a reduction applies

A list is applied when its items have been reduced. `applied` lists the items of all lists that a
reduction applies outside of queries, in the order in which it comes to them: those of the lists
inside a list come before its own, and those of a program that it loads, or of the result of a rule,
come after it. Nothing is put down about what an applied list does. A query that no fact answers is
reduced aside, and the lists that are applied there are left out.

The facts and the rules that a reduction adds to its caller's scope are told from these lists alone:
each list that starts with a keyword for declaring adds its one operand, each that starts with the
keyword for defining adds its two, and no other list adds anything. This holds whatever the outcome
is, and however lists, loads and rules are nested; and no name is unbound.
-/

namespace TermLang

/-- The watch that lists what is applied outside of queries. -/
def Watch.ofApplied (inside : Term → Scope → Journal → List (List Term)) : Watch (List Term) where
  call := inside
  aside _ _ _ := []
  program _ := inside
  apply items := [items]

/-- The lists that a reduction applies outside of queries, by their reduced items, in the order in
which they are applied. A list that is too deep is not applied. -/
def applied (setting : Setting) : (left : Nat) → Term → Scope → Journal → List (List Term)
  | left + 1, .list items, caller, journal =>
    Reduction.frameSeen setting (reduce setting left) (.ofApplied (applied setting left)) items
      caller (journal.note setting (.reduce (.list items) (setting.maxDepth - left)))
  | _, _, _, _ => []

/-- A scope has grown by the facts that some lists declare and the rules that they define, each once
and in the order of the lists, and no name was unbound. -/
structure Scope.GrownBy (lists : List (List Term)) (before after : Scope) : Prop where
  facts : after.facts = before.facts ++ lists.filterMap declared?
  rules : after.rules = before.rules ++ lists.filterMap defined?
  bound : ∀ name, (before.bindings.find? name).isSome → (after.bindings.find? name).isSome

namespace Scope.GrownBy

variable {before middle after : Scope}

/-- A scope grows by nothing if nothing is applied, also if a value is sent on its way out or a name
is bound, since only unbinding one is excluded. -/
theorem nothing (facts : after.facts = before.facts) (rules : after.rules = before.rules)
    (bound : ∀ name, (before.bindings.find? name).isSome → (after.bindings.find? name).isSome) :
    GrownBy [] before after := by
  refine ⟨?_, ?_, bound⟩
  · rw [facts, List.filterMap_nil, List.append_nil]
  · rw [rules, List.filterMap_nil, List.append_nil]

/-- A scope has grown by nothing before anything has happened, and by nothing in steps that leave it
alone. -/
theorem refl (scope : Scope) : GrownBy [] scope scope :=
  .nothing rfl rfl fun _ => id

/-- What is applied later is put behind what is applied first, both in the lists and in the scope,
so the order of the lists is the order of what was added. -/
theorem trans {early late : List (List Term)} (first : GrownBy early before middle)
    (second : GrownBy late middle after) : GrownBy (early ++ late) before after := by
  refine ⟨?_, ?_, fun name => second.bound name ∘ first.bound name⟩
  · rw [second.facts, first.facts, List.filterMap_append, List.append_assoc]
  · rw [second.rules, first.rules, List.filterMap_append, List.append_assoc]

/-- One list is applied, which adds what its items say and nothing more. At most one of the two
additions is there, but that is not needed here. -/
theorem one {items : List Term} (facts : after.facts = before.facts ++ (declared? items).toList)
    (rules : after.rules = before.rules ++ (defined? items).toList)
    (bindings : after.bindings = before.bindings) : GrownBy [items] before after := by
  have alone {β : Type} (added : List Term → Option β) :
      [items].filterMap added = (added items).toList := by
    cases isAdded : added items with
    | none => simp [isAdded]
    | some value => simp [isAdded]
  refine ⟨?_, ?_, ?_⟩
  · rw [facts, alone]
  · rw [rules, alone]
  · rw [bindings]
    exact fun _ => id

end Scope.GrownBy

open Reduction

variable {setting : Setting} {below : Evaluator}
  {inside : Term → Scope → Journal → List (List Term)} {seen : List (List Term)}
  {failed : Option Fault} {journal journal' : Journal}

/-- A query raises values to the outer scope of its frame and adds nothing there, whatever is
declared, defined or bound while it is reduced aside. -/
theorem Asking.grown {frame frame' : Frame}
    (asking : Asking below (.ofApplied inside) frame journal seen failed frame' journal') :
    Scope.GrownBy seen frame.outer frame'.outer := by
  induction asking with
  | noted frame journal trace => exact .refl frame.outer
  | aside term frame journal =>
    simp only [Scope.raise_eq]
    exact .nothing rfl rfl fun _ => id
  | trans first second before after => exact before.trans after

/-- Along the course of a level the scope grows by the lists that are applied, if it does so in
every reduction by the evaluator below.

Proof: by induction on the course. A list that is applied is seen at the very step at which a fact
or a rule is added, and what its items say is what the step adds; all other steps are seen as what
they give to the evaluator. -/
theorem Course.grown
    (grows : ∀ term scope journal,
      Scope.GrownBy (inside term scope journal) scope (below term scope journal).scope)
    {scope scope' : Scope}
    (course : Course setting below (.ofApplied inside) scope journal seen failed scope' journal') :
    Scope.GrownBy seen scope scope' := by
  induction course with
  | quiet scope journal trace sought => exact .refl scope
  | fails scope arises => exact .refl scope
  | apply nothing scope journal =>
    obtain ⟨noFact, noRule⟩ := nothing
    refine .one ?_ ?_ rfl
    · simp [noFact]
    · simp [noRule]
  | declare declares scope journal =>
    refine .one ?_ ?_ rfl
    · simp [declares, Scope.declare]
    · simp [defined?_of_declared declares, Scope.declare]
  | define defines scope journal =>
    refine .one ?_ ?_ rfl
    · simp [declared?_of_defined defines, Scope.define]
    · simp [defines, Scope.define]
  | print scope journal line => exact .refl scope
  | bind scope journal name term => exact .nothing rfl rfl (scope.extends_bind name term).bound
  | leave scope journal value => exact .nothing rfl rfl fun _ => id
  | call term scope journal => exact grows term scope journal
  | ask calm asking => exact asking.grown
  | load program scope journal found isContent => exact grows program scope _
  | trans first second before after => exact before.trans after

/-- A reduction adds to its caller's scope what the lists that it applies outside of queries declare
and define, each once and in order. The induction is on the depth that is left. -/
theorem reduce_grown (setting : Setting) (left : Nat) (term : Term) (caller : Scope)
    (journal : Journal) :
    Scope.GrownBy (applied setting left term caller journal) caller
      (reduce setting left term caller journal).scope := by
  induction left generalizing term caller journal with
  | zero =>
    cases term with
    | _ => exact .refl caller
  | succ left inductionHypothesis =>
    cases term with
    | list items =>
      rw [reduce_list]
      exact (reduceFrame_course setting (.ofApplied (applied setting left)) (reduce setting left)
        items caller _).grown inductionHypothesis
    | _ => exact .refl caller

end TermLang
