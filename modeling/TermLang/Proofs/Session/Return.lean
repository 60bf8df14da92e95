import TermLang.Proofs.Reduction.Stopping
import TermLang.Proofs.Session.Request

/-!
# Returns and whole calls

A call should do nothing more once a return is applied, and give the returned value. `StopsAtReturn`
says so of one call, by its acts and its outcome. Calls of the stopping reduction have this
property. Calls of the reduction have it exactly where nothing was late: either no return was
applied, or the call did what the stopping one does, except that it may have sent the same value out
once more.

What fails in between is shown on the smallest case, a return as the last item of a list that
prints.
-/

namespace TermLang

namespace Session

/-- The call for a request, with the reduction that stops. -/
def serveStopping (session : Session) (request : Request) : Call :=
  session.serveWith (reduceStopping session.setting session.setting.maxDepth) request

namespace Call

/-- Whenever a return is applied, no act after it changes anything, and the call gives its value. -/
def StopsAtReturn (call : Call) : Prop :=
  ∀ value before after, call.journal.acts = after ++ .returned value :: before →
    call.outcome = .ok value ∧ ∀ act ∈ after, act.changes = false

/-- No return was applied. -/
def Stays (call : Call) : Prop :=
  ∀ act ∈ call.journal.acts, act.changes = true

/-- A call has the outcome and the acts of another one, and may repeat the return of the latter. -/
def Repeats (call stopping : Call) : Prop :=
  call.outcome = stopping.outcome ∧
    ∃ repeated, call.journal.acts = repeated ++ stopping.journal.acts ∧
      ∀ act ∈ repeated, ∃ value, act = .returned value ∧ stopping.outcome = .ok value

/-- A call that has just ended with a value: sending it was the last act and the first of its kind.
-/
structure EndsWith (call : Call) (value : Term) : Prop where
  outcome : call.outcome = .ok value
  acts : ∃ before, call.journal.acts = .returned value :: before ∧
    ∀ act ∈ before, act.changes = true

/-- A call without a return stops at every return, because there is none to stop at. -/
theorem Stays.stopsAtReturn {call : Call} (stays : call.Stays) : call.StopsAtReturn := by
  intro value before after acts
  have member : .returned value ∈ call.journal.acts := by
    rw [acts]
    exact List.mem_append_right _ List.mem_cons_self
  exact absurd (stays _ member) (by simp [Act.changes])

/-- The only return of a call that has just ended with a value is its last act. An earlier one would
be among the acts that change something, and a return does not. -/
theorem EndsWith.stopsAtReturn {call : Call} {value : Term} (ends : call.EndsWith value) :
    call.StopsAtReturn := by
  obtain ⟨outcome, before, acts, staying⟩ := ends
  intro other earlier after split
  rw [acts] at split
  cases after with
  | nil =>
    obtain ⟨same, _⟩ := List.cons.inj split
    cases same
    exact ⟨outcome, by simp⟩
  | cons act rest =>
    obtain ⟨_, behind⟩ := List.cons.inj split
    have member : .returned other ∈ before := by
      rw [behind]
      exact List.mem_append_right _ List.mem_cons_self
    exact absurd (staying _ member) (by simp [Act.changes])

end Call

/-! ## The two reductions in whole calls -/

/-- How the calls of the stopping reduction and of the reduction compare. -/
def ComparesCall (stopping call : Call) : Prop :=
  (stopping = call ∧ call.Stays) ∨
    ∃ value, stopping.EndsWith value ∧
      Accounted stopping.session.global stopping.journal call.session.global call.journal

/-- A call starts without acts, so all acts of a call are its own. -/
theorem journal_acts (session : Session) : session.journal.acts = [] := rfl

/-- The end of a call takes a value out of the session and changes nothing else. So what the two
reductions have in common, their calls have in common, and the stopping one still ends with its
return. -/
theorem finish_compares (session : Session) {earlier : Journal} (nothing : earlier.acts = [])
    {stopping reply : Reply Scope} (compared : Compares .ofScope earlier stopping reply) :
    ComparesCall (session.finish stopping) (session.finish reply) := by
  cases compared with
  | same calm staying =>
    obtain ⟨added, acts, changing⟩ := staying
    refine .inl ⟨rfl, ?_⟩
    rw [nothing, List.append_nil] at acts
    intro act member
    exact changing act (acts ▸ member)
  | left value outcome leaving afterwards =>
    obtain ⟨pending, middle, ⟨added, acts, changing⟩, last⟩ := leaving
    rw [nothing, List.append_nil] at acts
    have isValue : stopping.outcome = .ok value := outcome
    have isPending : stopping.scope.leaving = some value := pending
    refine .inr ⟨value, ⟨?_, added, ?_, changing⟩, ?_⟩
    · simp only [finish, Scope.takeLeaving, isValue, isPending]
    · exact last.trans (by rw [acts])
    · have before : Accounted (session.finish stopping).session.global
          (session.finish stopping).journal stopping.scope stopping.journal :=
        .idle rfl ⟨rfl, rfl, rfl, rfl⟩
      have after : Accounted reply.scope reply.journal (session.finish reply).session.global
          (session.finish reply).journal := .idle rfl ⟨rfl, rfl, rfl, rfl⟩
      exact before.trans (afterwards.trans after)

/-- A refused request applies nothing, with either reduction. -/
theorem refuse_compares (session : Session) (fault : Fault) :
    ComparesCall (session.refuse fault) (session.refuse fault) :=
  .inl ⟨rfl, by simp [Call.Stays, refuse, journal_acts]⟩

/-- Calls compare in a session without a value on its way out: in each of the ways to serve a
request, the two reductions are given the same term in the same scope. -/
theorem serve_compares (session : Session) (calm : session.global.leaving = none)
    (request : Request) : ComparesCall (session.serveStopping request) (session.serve request) := by
  have alike := reduceStopping_stopsLike session.setting session.setting.maxDepth
  rw [serve_eq, serveStopping]
  cases session.served request with
  | refused fault call seen =>
    rw [call, call]
    exact session.refuse_compares fault
  | reduced used term call seen =>
    rw [call, call]
    exact finish_compares _ rfl (alike term session.global session.journal calm)
  | loaded path program opens call seen =>
    rw [call, call]
    exact finish_compares _ rfl (Reduction.runProgram_compares session.setting alike path program
      session.global session.journal calm)

/-- With an evaluator that does nothing in the session's scope no return is applied: starting the
program of a file is all that a call does. That is the case of a session with a value on its way
out, in which every list is stopped before its first item. -/
theorem stays_of_idle (session : Session) {evaluate : Evaluator}
    (idle : ∀ term journal, (evaluate term session.global journal).journal.acts = journal.acts)
    (request : Request) : (session.serveWith evaluate request).Stays := by
  have refused (fault : Fault) : (session.refuse fault).Stays := by
    simp [Call.Stays, refuse, journal_acts]
  have evaluated (used : Bool) (term : Term) : ({ session with used }.finish
      (evaluate term session.global session.journal)).Stays := by
    intro act member
    simp [finish, idle, journal_acts] at member
  cases session.served request with
  | refused fault call seen =>
    rw [call]
    exact refused fault
  | reduced used term call seen =>
    rw [call]
    exact evaluated used term
  | loaded path program opens call seen =>
    rw [call]
    intro act member
    have started : act = .loaded path := by
      simpa [finish, Reduction.runProgram, Journal.exit, Journal.enter, Journal.record, idle,
        journal_acts] using member
    rw [started]
    rfl

/-- A call that goes on after the stopping one has ended stops at its returns exactly when it only
repeats the return of the latter.

Proof: to the right, no act behind the first return changes anything, so each is a return, and each
gives the outcome of the call. To the left, every return of the call is one of the stopping call or
a repeated one, and all have the value of the outcome. -/
theorem stopsAtReturn_iff_repeats {stopping call : Call} {value : Term}
    (ends : stopping.EndsWith value) {after : List Act}
    (acts : call.journal.acts = after ++ stopping.journal.acts) :
    call.StopsAtReturn ↔ call.Repeats stopping := by
  obtain ⟨before, stoppingActs, _⟩ := ends.acts
  constructor
  · intro stops
    have first : call.journal.acts = after ++ .returned value :: before := by
      rw [acts, stoppingActs]
    obtain ⟨outcome, unchanging⟩ := stops value before after first
    refine ⟨outcome.trans ends.outcome.symm, after, acts, ?_⟩
    intro act member
    -- A later return is one that the call has to stop at too, so it has the value of the outcome.
    have unchanged := unchanging act member
    cases act with
    | returned other =>
      obtain ⟨later, between, split⟩ := List.append_of_mem member
      have again : call.journal.acts =
          later ++ .returned other :: (between ++ .returned value :: before) := by
        rw [first, split, List.append_assoc, List.cons_append]
      obtain ⟨sameOutcome, _⟩ := stops other _ later again
      exact ⟨other, rfl, ends.outcome.trans (outcome.symm.trans sameOutcome)⟩
    | _ => exact absurd unchanged (by simp [Act.changes])
  · rintro ⟨outcome, repeated, repeatedActs, again⟩ other earlier later split
    have same : repeated ++ stopping.journal.acts = later ++ .returned other :: earlier :=
      repeatedActs.symm.trans split
    have unchanging : ∀ act ∈ repeated, act.changes = false := by
      intro act member
      obtain ⟨sent, rfl, _⟩ := again act member
      rfl
    rcases List.append_eq_append_iff.mp same with ⟨between, isLater, within⟩ |
      ⟨between, isRepeated, within⟩
    · obtain ⟨isOutcome, quiet⟩ := ends.stopsAtReturn other earlier between within
      refine ⟨outcome.trans isOutcome, ?_⟩
      intro act member
      rw [isLater] at member
      exact (List.mem_append.mp member).elim (unchanging act) (quiet act)
    · constructor
      · rw [outcome]
        cases between with
        | nil => exact (ends.stopsAtReturn other earlier [] within.symm).1
        | cons act rest =>
          obtain ⟨isAct, _⟩ := List.cons.inj within
          obtain ⟨sent, isSent, sentOutcome⟩ := again act (by simp [isRepeated])
          rw [sentOutcome, Act.returned.inj (isAct.trans isSent)]
      · intro act member
        apply unchanging
        rw [isRepeated]
        exact List.mem_append_left _ member

/-- Calls of the stopping reduction stop at every return. Calls of the reduction do exactly where no
return is applied, or where they only repeat the return of the stopping call; then nothing is
printed or learnt after the return. -/
theorem stops_at_return_iff (session : Session) (request : Request) :
    (session.serveStopping request).StopsAtReturn ∧
    ((session.serve request).StopsAtReturn ↔ (session.serve request).Stays ∨
      (session.serve request).Repeats (session.serveStopping request)) ∧
    ((session.serve request).StopsAtReturn → ¬ (session.serve request).Stays →
      Unchanged (session.serveStopping request).session.global
        (session.serveStopping request).journal (session.serve request).session.global
        (session.serve request).journal) := by
  cases leaving : session.global.leaving with
  | some value =>
    have stays : (session.serve request).Stays := by
      rw [serve_eq]
      exact session.stays_of_idle
        (fun term journal => reduce_acts_of_leaving _ _ term leaving journal) request
    have stoppingStays : (session.serveStopping request).Stays :=
      session.stays_of_idle
        (fun term journal => reduceStopping_acts_of_leaving _ _ term leaving journal) request
    exact ⟨stoppingStays.stopsAtReturn, ⟨fun _ => .inl stays, fun _ => stays.stopsAtReturn⟩,
      fun _ leaves => absurd stays leaves⟩
  | none =>
    rcases session.serve_compares leaving request with ⟨same, stays⟩ | ⟨value, ends, accounted⟩
    · rw [same]
      exact ⟨stays.stopsAtReturn, ⟨fun _ => .inl stays, fun _ => stays.stopsAtReturn⟩,
        fun _ leaves => absurd stays leaves⟩
    · obtain ⟨after, acts, unchanged⟩ := accounted
      have repeats := stopsAtReturn_iff_repeats ends acts
      refine ⟨ends.stopsAtReturn, ?_, ?_⟩
      · constructor
        · intro stops
          exact .inr (repeats.mp stops)
        · rintro (stays | repeated)
          · exact stays.stopsAtReturn
          · exact repeats.mpr repeated
      · intro stops _
        obtain ⟨before, stoppingActs, _⟩ := ends.acts
        apply unchanged
        exact (stops value before after (by rw [acts, stoppingActs])).2

/-- The source `(.return a)`: the return is applied, nothing follows it, and the call is that of the
stopping reduction. -/
theorem lone_return_stops : ∃ call stopping : Call,
    call = (Session.new { (default : Setting) with maxDepth := 10 }).serve
      (.term (.list [.list [.keyword ".return", .str "a"]])) ∧
    stopping = (Session.new { (default : Setting) with maxDepth := 10 }).serveStopping
      (.term (.list [.list [.keyword ".return", .str "a"]])) ∧
    call.StopsAtReturn ∧ ¬ call.Stays ∧
      Unchanged stopping.session.global stopping.journal call.session.global call.journal := by
  obtain ⟨_, stopsIff, unchanged⟩ := stops_at_return_iff
    (Session.new { (default : Setting) with maxDepth := 10 })
    (.term (.list [.list [.keyword ".return", .str "a"]]))
  have stops := stopsIff.mpr (.inr ⟨rfl, [], rfl, by simp⟩)
  refine ⟨_, _, rfl, rfl, stops, ?_⟩
  have leaves : ¬ ((Session.new { (default : Setting) with maxDepth := 10 }).serve
      (.term (.list [.list [.keyword ".return", .str "a"]]))).Stays := by
    intro stays
    exact absurd (stays (.returned (.str "a")) List.mem_cons_self) (by simp [Act.changes])
  exact ⟨leaves, unchanged stops leaves⟩

/-- The source `(.print (.return a))`: the return is the last item of the list that prints, and that
list is applied all the same. -/
theorem prints_after_return :
    ¬ ((Session.new { (default : Setting) with maxDepth := 10 }).serve (.term (.list
      [.list [.keyword ".print", .list [.keyword ".return", .str "a"]]]))).StopsAtReturn := by
  intro stops
  obtain ⟨_, unchanging⟩ := stops (.str "a") [] [.printed "a "] rfl
  exact absurd (unchanging _ List.mem_cons_self) (by simp [Act.changes])

end Session

end TermLang
