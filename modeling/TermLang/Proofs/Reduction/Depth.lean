import TermLang.Proofs.Reduction.Agreement

/-!
# The depth limit only cuts

A list nested deeper than the limit is a fault, and the fault is not caught anywhere: a fault of any
question that a level asks is the fault of the level. So a reply without that fault has not met the
limit, and what would happen beyond the limit makes no difference to it.

One level of reduction is compared for two evaluators below it, of which the second gives the same
replies as the first wherever the first is not cut. Either a question of the level is cut, and then
the level is, or the evaluators agree on all questions. `reduceOver` puts an arbitrary evaluator in
the place of the fault, and the reduction with a higher limit is one of its cases. Replies are
compared as a whole there, so that outcome, scope, output and trace all stay the same.

With the same depth left, two reductions with different limits and different journals go the same
way as well. That only the fault of the limit and the trace can tell them apart is `reduce_limits`.
-/

namespace TermLang

/-- Whether a fault is that of the depth limit. -/
def Fault.isTooDeep : Fault → Bool
  | .eval kind _ | .caused kind _ _ => kind == .depthExceeded
  | _ => false

/-- An outcome with the fault of the depth limit. -/
def Cut {α : Type} (outcome : Except Fault α) : Prop :=
  ∃ fault, outcome = .error fault ∧ fault.isTooDeep = true

/-- One evaluator replies like another one, except where the latter is cut. -/
def Evaluator.GoesBeyond (high low : Evaluator) : Prop :=
  ∀ term scope journal, Cut (low term scope journal).outcome ∨
    high term scope journal = low term scope journal

namespace Reduction

variable (setting : Setting) {low high : Evaluator}

/-- A cut program of a file is the fault of its load, since the fault is passed on as it is. -/
theorem runProgram_beyond (beyond : high.GoesBeyond low) (path : String) (program : Term)
    (scope : Scope) (journal : Journal) :
    Cut (runProgram setting low path program scope journal).outcome ∨
      runProgram setting high path program scope journal =
        runProgram setting low path program scope journal := by
  simp only [runProgram]
  rcases beyond program scope
    (((journal.note setting (.load path program.items.length)).record (.loaded path)).enter path)
    with cut | same
  · exact .inl cut
  · right
    rw [same]

/-- A list is cut with any question that it asks, because a fault goes through the level; and if
none of its questions is cut, the two evaluators agree on all of them. -/
theorem reduceFrame_beyond (beyond : high.GoesBeyond low) (items : List Term) (outer : Scope)
    (journal : Journal) :
    Cut (reduceFrame setting low items outer journal).outcome ∨
      reduceFrame setting high items outer journal =
        reduceFrame setting low items outer journal := by
  by_cases cut : ∃ question ∈ frameSeen setting low questions items outer journal,
      Cut (question.ask low).outcome
  · obtain ⟨question, asked, fault, failed, deep⟩ := cut
    have course := reduceFrame_course setting questions low items outer journal
    exact .inl ⟨fault, failure_eq_some_iff.mp (course.failed_of_asked asked failed), deep⟩
  · right
    refine reduceFrame_of_questions fun question asked => ?_
    rcases beyond question.term question.scope question.journal with cutHere | same
    · exact absurd ⟨question, asked, cutHere⟩ cut
    · exact same

end Reduction

/-! ## All levels -/

open Reduction

/-- Reduces a term with this much depth left. A list that is nested deeper is not refused but given
to `beyond`. -/
def reduceOver (setting : Setting) (beyond : List Term → Scope → Journal → Reply Scope) :
    (left : Nat) → Term → Scope → Journal → Reply Scope
  | 0, .list items, caller, journal => beyond items caller journal
  | left + 1, .list items, caller, journal =>
    let journal := journal.note setting (.reduce (.list items) (setting.maxDepth - left))
    let reply := reduceFrame setting (reduceOver setting beyond left) items caller journal
    ⟨reply.outcome, caller.merge reply.scope, reply.journal⟩
  | _, atom, caller, journal => ⟨.ok atom, caller, journal⟩

/-- Whatever is put beyond the limit, a reduction that is not cut stays the same. The induction is
on the depth that is left; the last level is cut at every list. -/
theorem reduceOver_goesBeyond (setting : Setting)
    (beyond : List Term → Scope → Journal → Reply Scope) (left : Nat) :
    Evaluator.GoesBeyond (reduceOver setting beyond left) (reduce setting left) := by
  induction left with
  | zero =>
    intro term scope journal
    cases term with
    | list items => exact .inl ⟨tooDeep setting, rfl, rfl⟩
    | _ => exact .inr rfl
  | succ left inductionHypothesis =>
    intro term scope journal
    cases term with
    | list items =>
      simp only [reduceOver, reduce]
      rcases reduceFrame_beyond setting inductionHypothesis items scope
        (journal.note setting (.reduce (.list items) (setting.maxDepth - left))) with cut | same
      · exact .inl cut
      · right
        rw [same]
    | _ => exact .inr rfl

/-! ## Another limit -/

/-- A setting with another depth limit. -/
def Setting.limited (setting : Setting) (limit : Nat) : Setting :=
  { setting with maxDepth := limit }

namespace Reduction

variable (setting : Setting) (limit : Nat) (below : Evaluator)

mutual

/-- Queries do not look at the limit, only at whether a trace is kept. -/
theorem query_limited (term : Term) (frame : Frame) (journal : Journal) :
    query (setting.limited limit) below term frame journal =
      query setting below term frame journal := by
  cases term with
  | list items =>
    simp only [query]
    rw [queryItems_limited items frame journal]
    rfl
  | _ => rfl

/-- Nor do their nested lists, which are queries again. -/
theorem queryItems_limited (items : List Term) (frame : Frame) (journal : Journal) :
    queryItems (setting.limited limit) below items frame journal =
      queryItems setting below items frame journal := by
  cases items with
  | nil => rfl
  | cons item rest =>
    simp only [queryItems]
    rw [query_limited item frame journal, queryItems_limited rest]

end

/-- Within one level nothing looks at the limit: of the functions of a level only queries recurse,
and all others are the same by definition. -/
theorem reduceFrame_limited :
    reduceFrame (setting.limited limit) below = reduceFrame setting below := by
  have shapes : applyShape (setting.limited limit) below = applyShape setting below := by
    funext shape frame journal
    cases shape with
    | unaryForm form x =>
      cases form with
      | ask => exact query_limited setting limit below x frame journal
      | _ => rfl
    | _ => rfl
  have dispatches : dispatch (setting.limited limit) below = dispatch setting below := by
    funext items frame journal
    simp only [dispatch]
    rw [shapes]
    rfl
  funext items outer journal
  simp only [reduceFrame]
  rw [dispatches]

end Reduction

/-- A higher limit is a reduction that goes on beyond the lower one. The depths that are traced
count from the outermost list, so they do not change. -/
theorem reduce_limited (setting : Setting) (limit extra left : Nat) :
    reduce (setting.limited (limit + extra)) (left + extra) =
      reduceOver (setting.limited limit)
        (fun items => reduce (setting.limited (limit + extra)) extra (.list items)) left := by
  induction left with
  | zero =>
    funext term scope journal
    rw [Nat.zero_add]
    cases term with
    | list items => rfl
    | _ => cases extra <;> rfl
  | succ left inductionHypothesis =>
    funext term scope journal
    have depth : limit + extra - (left + extra) = limit - left := Nat.add_sub_add_right _ _ _
    rw [Nat.add_right_comm]
    cases term with
    | list items =>
      simp only [reduce, reduceOver, reduceFrame_limited, inductionHypothesis]
      simp only [Setting.limited, depth]
      rfl
    | _ => rfl

/-! ## The same depth with another limit -/

/-- Whatever their limits and their journals are, two reductions with the same depth left match: up
to the limit that a fault names they have the same outcome, they leave the same scope, and they
print the same. The induction is on the depth that is left; one level looks at no limit, and the
events that it notes are not compared. -/
theorem reduce_matches (setting : Setting) (limit limit' left : Nat) (first first' : String)
    (term : Term) (scope : Scope) {journal journal' : Journal}
    (alongside : Journal.Alongside first first' journal journal') :
    Matches (setting.limited limit) (setting.limited limit') (Journal.Alongside first first')
      (reduce (setting.limited limit) left term scope journal)
      (reduce (setting.limited limit') left term scope journal') := by
  induction left generalizing term scope journal journal' with
  | zero =>
    cases term with
    | list items => exact ⟨.error .tooDeep, rfl, alongside⟩
    | _ => exact .idle alongside _ scope
  | succ left inductionHypothesis =>
    cases term with
    | list items =>
      rw [reduce_list, reduce_list, reduceFrame_limited, reduceFrame_limited]
      refine reduceFrame_alike (companion_alongside setting first first')
        (alongside.noted _ _ _ _) ?_
      intro question _ journal'' related
      exact inductionHypothesis question.term question.scope related
    | _ => exact .idle alongside _ scope

/-- With another limit and another journal, a reduction with the same depth left has the same
outcome, up to the limit that a fault names, leaves the same scope and prints the same. -/
theorem reduce_limits (setting : Setting) (limit limit' left : Nat) (term : Term) (scope : Scope)
    {journal journal' : Journal} (loading : journal.loading = journal'.loading) :
    Alike (setting.limited limit) (setting.limited limit')
        (reduce (setting.limited limit) left term scope journal).outcome
        (reduce (setting.limited limit') left term scope journal').outcome ∧
      (reduce (setting.limited limit) left term scope journal).scope =
        (reduce (setting.limited limit') left term scope journal').scope ∧
      ∃ text, (reduce (setting.limited limit) left term scope journal).journal.printed =
          journal.printed ++ text ∧
        (reduce (setting.limited limit') left term scope journal').journal.printed =
          journal'.printed ++ text := by
  have start : Journal.Alongside journal.printed journal'.printed journal journal' :=
    ⟨loading, "", by simp, by simp⟩
  have matching := reduce_matches setting limit limit' left _ _ term scope start
  exact ⟨matching.outcome, matching.scope, matching.journal.printed⟩

end TermLang
