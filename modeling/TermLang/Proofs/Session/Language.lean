import TermLang.Proofs.Reduction.Language
import TermLang.Session

/-!
# Sessions stay inside the language

A session that starts empty and is given sources and files only never holds or yields a term outside
the language, whatever was asked before and whatever happens to the files in between. So everything
it yields can be written and read again, numbers that are not finite apart.

Terms that are handed to a session without having been read are not covered.
-/

namespace TermLang

open Term

namespace Session

/-- What can happen to a session whose terms are all read. -/
inductive Step where
  /-- A source is evaluated. -/
  | source (source : List Char)
  /-- A file is loaded. -/
  | file (path : String)
  /-- Everything is forgotten. -/
  | reset
  /-- The surroundings change: other files, another directory, another limit. -/
  | surroundings (setting : Setting)

/-- The session after a step, whether or not a call failed. -/
def after (session : Session) : Step → Session
  | .source source => (session.evalSource source).session
  | .file path => (session.loadFile path).session
  | .reset => session.reset
  | .surroundings setting => { session with setting }

/-- The session after some steps. -/
def run (session : Session) (steps : List Step) : Session :=
  steps.foldl after session

/-- A session yields a term if a source or a file is evaluated to it. -/
def Yields (session : Session) (term : Term) : Prop :=
  (∃ source, (session.evalSource source).outcome = .ok term) ∨
    ∃ path, (session.loadFile path).outcome = .ok term

/-- A call yields a term of the language and leaves only such terms in the session. -/
structure Call.Speaks (call : Call) : Prop where
  outcome : Gives Term.InLanguage call.outcome
  global : call.session.global.InLanguage

/-- The end of a call makes a value on its way out the result, and that value was in the scope, so
it is in the language as well. -/
theorem finish_speaks (session : Session) {reply : Reply Scope}
    (kept : reply.Keeps Term.InLanguage Scope.InLanguage) : (session.finish reply).Speaks := by
  refine ⟨?_, kept.scope.stay⟩
  simp only [finish, Scope.takeLeaving]
  split
  · rename_i value _ leaving
    exact gives_ok (kept.scope.leaving value leaving)
  · exact kept.outcome

/-- A refused call leaves the session as it was and gives no term. -/
theorem refuse_speaks {session : Session} (known : session.global.InLanguage) (fault : Fault) :
    (session.refuse fault).Speaks :=
  ⟨gives_error fault, known⟩

/-- The source is read, so it is in the language, and so is what it is reduced to. If it cannot be
read, the call is refused. -/
theorem evalSource_speaks {session : Session} (known : session.global.InLanguage)
    (source : List Char) : (session.evalSource source).Speaks := by
  unfold evalSource
  split
  · exact refuse_speaks known _
  · rename_i term read
    exact finish_speaks _ (reduce_speaks session.setting session.setting.maxDepth term
      session.global session.journal (inLanguage_of_readList read) known)

/-- So is the program of a file, whatever its bytes are: it is read before it is reduced, and a file
that cannot be found, read or opened is refused. -/
theorem loadFile_speaks {session : Session} (known : session.global.InLanguage) (path : String) :
    (session.loadFile path).Speaks := by
  simp only [loadFile]
  split
  · exact refuse_speaks known _
  · split
    · exact refuse_speaks known _
    · split
      · exact refuse_speaks known _
      · rename_i absolute _ _ content _ _ program opened
        exact finish_speaks _ (Reduction.runProgram_keeps session.setting
          (reduce_speaks session.setting session.setting.maxDepth) absolute
          (Reduction.openProgram_holds lasts_inLanguage opened) known session.journal)

/-- A step: what a session holds stays in the language, also if the call failed on the way, since
what was learnt before the failure stays. -/
theorem after_inLanguage {session : Session} (known : session.global.InLanguage) (step : Step) :
    (session.after step).global.InLanguage := by
  cases step with
  | source source => exact (evalSource_speaks known source).global
  | file path => exact (loadFile_speaks known path).global
  | reset => exact Scope.allTerms_empty
  | surroundings setting => exact known

/-- A run: so it does after any number of steps, each from what the step before has left. -/
theorem run_inLanguage {session : Session} (known : session.global.InLanguage)
    (steps : List Step) : (session.run steps).global.InLanguage := by
  induction steps generalizing session with
  | nil => exact known
  | cons step rest inductionHypothesis => exact inductionHypothesis (after_inLanguage known step)

/-- What a session yields is in the language, because the calls that yield it speak. -/
theorem Yields.inLanguage {session : Session} (known : session.global.InLanguage) {term : Term}
    (yields : session.Yields term) : term.InLanguage := by
  rcases yields with ⟨source, isTerm⟩ | ⟨path, isTerm⟩
  · exact (evalSource_speaks known source).outcome term isTerm
  · exact (loadFile_speaks known path).outcome term isTerm

/-- After any steps from a new session, what it holds and what it yields is in the language, and
what it yields reads back from its one line, unless it holds a number that is not finite. -/
theorem stays_in_language (setting : Setting) (steps : List Step) :
    ((new setting).run steps).global.InLanguage ∧
      ∀ term, ((new setting).run steps).Yields term →
        term.InLanguage ∧
          (term.AllFinite → readList term.compact.toList = .ok (.list [term])) := by
  have known : ((new setting).run steps).global.InLanguage :=
    run_inLanguage Scope.allTerms_empty steps
  refine ⟨known, ?_⟩
  intro term yields
  have spoken := yields.inLanguage known
  exact ⟨spoken, spoken.reads_back⟩

/-- A rule is learnt from one source, and the next source is reduced by it. -/
theorem learnt_rule_stays_in_language : ∃ session : Session, ∃ term : Term,
    session = (new { (default : Setting) with maxDepth := 10 }).run
      [.source ['(', '.', 'd', 'e', 'f', ' ', '(', 'f', ' ', 'X', ')', ' ', '(', 'g', ' ', 'X', ')',
        ')']] ∧
    term = .list [.list [.str "g", .str "a"]] ∧
    session.Yields term ∧ session.global.rules ≠ [] ∧ session.global.InLanguage ∧ term.InLanguage ∧
    readList term.compact.toList = .ok (.list [term]) := by
  obtain ⟨known, yielded⟩ := stays_in_language { (default : Setting) with maxDepth := 10 }
    [.source ['(', '.', 'd', 'e', 'f', ' ', '(', 'f', ' ', 'X', ')', ' ', '(', 'g', ' ', 'X', ')',
      ')']]
  refine ⟨_, _, rfl, rfl, ?_⟩
  have yields : ((new { (default : Setting) with maxDepth := 10 }).run
      [.source ['(', '.', 'd', 'e', 'f', ' ', '(', 'f', ' ', 'X', ')', ' ', '(', 'g', ' ', 'X', ')',
        ')']]).Yields (.list [.list [.str "g", .str "a"]]) :=
    .inl ⟨['(', 'f', ' ', 'a', ')'], rfl⟩
  have finite : AllFinite (.list [.list [.str "g", .str "a"]]) := by
    intro atom member value isNumber
    rw [isNumber] at member
    simp [atomsOf, atoms] at member
  obtain ⟨spoken, readsBack⟩ := yielded _ yields
  exact ⟨yields, List.cons_ne_nil _ _, known, spoken, readsBack finite⟩

end Session

end TermLang
