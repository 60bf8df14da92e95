import TermLang.Proofs.Reduction.Run

/-!
# Where the faults of a reduction come from

A reduction fails only with faults that can arise in the files that are being loaded. A level fails
by itself with such a fault, or with the fault of something that it gives to the evaluator below.
What a program raises was found by a load, so it goes up to the file that loads it without being
changed, however deeply the loads are nested. The induction is on the depth that is left and on the
course of each level.

Which fault is raised, and whether there is one, is not said here.
-/

namespace TermLang

open Reduction

/-- Every reduction by an evaluator fails only with faults that arise in the files that are being
loaded. -/
def Evaluator.Raises (setting : Setting) (below : Evaluator) : Prop :=
  ∀ term scope journal,
    TermLang.Raises setting journal.loading (below term scope journal).outcome

section

variable {α : Type} {setting : Setting} {below : Evaluator} {watch : Watch α} {seen : List α}
  {failed : Option Fault} {journal journal' : Journal}

/-- A query fails only with faults of what is reduced aside. The same files are being loaded there,
since queries do not load. -/
theorem Asking.arises (raises : below.Raises setting) (runs : below.Runs) {frame frame' : Frame}
    (asking : Asking below watch frame journal seen failed frame' journal') {fault : Fault}
    (isFault : failed = some fault) : fault.Arises setting journal.loading := by
  induction asking with
  | noted => cases isFault
  | aside term frame journal =>
    exact raises term frame.inner journal fault (failure_eq_some_iff.mp isFault)
  | trans first second _ after =>
    rw [← (first.run runs).loading]
    exact after isFault

/-- A level fails only with faults that arise in the files that are being loaded, if all reductions
by the evaluator below do. What a loaded program raises arises in the file that loads it, because
that file has found the program's. -/
theorem Course.arises (raises : below.Raises setting) (runs : below.Runs) {scope scope' : Scope}
    (course : Course setting below watch scope journal seen failed scope' journal') {fault : Fault}
    (isFault : failed = some fault) : fault.Arises setting journal.loading := by
  induction course with
  | fails scope arises =>
    cases isFault
    exact arises
  | call term scope journal =>
    exact raises term scope journal fault (failure_eq_some_iff.mp isFault)
  | ask calm asking => exact asking.arises raises runs isFault
  | load program scope journal found isContent =>
    exact .through found (raises program scope _ fault (failure_eq_some_iff.mp isFault))
  | trans first second _ after =>
    rw [← (first.run runs).loading]
    exact after isFault
  | _ => cases isFault

end

/-- What a program raises arises in the file that holds it: that file is on the list while the
program is reduced. -/
theorem Reduction.runProgram_raises {setting : Setting} {below : Evaluator}
    (raises : below.Raises setting) (path : String) (program : Term) (scope : Scope)
    (journal : Journal) :
    Raises setting (path :: journal.loading)
      (runProgram setting below path program scope journal).outcome := by
  have noted := (Run.note scope journal setting (.load path program.items.length)).loading
  rw [← noted]
  exact raises program scope _

/-- A reduction fails only with faults that arise in the files that are being loaded. The induction
is on the depth that is left, and the fault of the limit itself arises anywhere. -/
theorem reduce_raises (setting : Setting) (left : Nat) :
    Evaluator.Raises setting (reduce setting left) := by
  induction left with
  | zero =>
    intro term scope journal
    cases term with
    | list items => exact raises_error (.eval _ _)
    | _ => exact raises_ok _
  | succ left inductionHypothesis =>
    intro term scope journal
    cases term with
    | list items =>
      rw [reduce_list]
      have noted := (Run.note scope journal setting
        (.reduce (.list items) (setting.maxDepth - left))).loading
      intro fault failed
      have course := reduceFrame_course setting .blind (reduce setting left) items scope
        (journal.note setting (.reduce (.list items) (setting.maxDepth - left)))
      rw [← noted]
      exact course.arises inductionHypothesis (reduce_runs setting left)
        (failure_eq_some_iff.mpr failed)
    | _ => exact raises_ok _

end TermLang
