import TermLang.Proofs.Reduction.Moments
import TermLang.Proofs.Session.Series

/-!
# Calls leave nothing behind

Three things are kept while a call is going on and must be gone when it is over: a value on its way
out, the files that are being loaded, and the count of the lists that were entered and not left.
Each is reset by other code. However a call ends, none of them is left over for the next one, over
any number of calls and resets, with other files and limits in between.

The reduction knows its depth by what is left of the limit. The count is kept beside it here, over
the moments of each call, and starts where a counter of the session would: a term and a source start
it anew, a file goes on from where the count stands. Before each list the count and the depth left
make up the limit, so the two are the same measure.
-/

namespace TermLang

/-! ## The count of open lists -/

/-- The count of open lists after a moment. -/
def tick (count : Int) (moment : Moment) : Int :=
  match moment.happening with
  | .entered _ => count + 1
  | .left => count - 1
  | .opened _ | .closed _ => count

/-- The count and the depth left make up the limit when a list is entered. -/
def Reads (limit : Nat) (count : Int) (moment : Moment) : Prop :=
  ∀ left, moment.happening = .entered left → count + left = limit

/-- Lists are bracketed for the count, and files do not change it: a list adds one when it is
entered and takes one away when it is left, and the depth left inside is one less. -/
theorem tick_bracketing (setting : Setting) (limit : Nat) :
    Bracketing setting tick (Reads limit) fun _ left count => count + left = limit where
  list fitting := by
    refine ⟨?_, ?_, ?_⟩
    · rintro _ ⟨⟩
      exact fitting
    · rintro _ ⟨⟩
    · exact Int.add_sub_cancel _ 1
  inList fitting := by
    simp only [tick]
    omega
  file _ _ := by
    refine ⟨?_, ?_, rfl⟩
    · rintro _ ⟨⟩
    · rintro _ ⟨⟩
  inFile _ fitting := fitting

namespace Session

/-! ## The moments of a call -/

/-- The moments of the call for a request, in order, with this much depth left for it. -/
def moments (session : Session) (left : Nat) (request : Request) : List Moment :=
  session.seen (.ofMoments (reduce session.setting left) (TermLang.moments session.setting left))
    request

/-- The moments of a call keep a state that fits from bracket to bracket. A refused request has no
moments, a term has those of its reduction, and a file has those of its program between being opened
and being closed. -/
theorem moments_keep {σ : Type} {step : σ → Moment → σ} {allows : σ → Moment → Prop}
    {fits : List String → Nat → σ → Prop} (session : Session)
    (bracketing : Bracketing session.setting step allows fits) {left : Nat} {state : σ}
    (fitting : fits session.loading left state) (request : Request) :
    Keeps step allows state (session.moments left request) := by
  rw [moments]
  cases session.served request with
  | refused fault _ seen =>
    rw [seen]
    exact keeps_nil
  | reduced used term _ seen =>
    rw [seen]
    exact TermLang.moments_keep bracketing left term session.global session.journal fitting
  | loaded path program opens _ seen =>
    have same := session.loadingJournal_loading path program
    rw [seen]
    refine bracketing.program (reduce_runs session.setting left) fitting opens program
      session.global same ?_
    refine TermLang.moments_keep bracketing left program session.global _ ?_
    rw [same]
    exact bracketing.inFile opens fitting

/-- A call leaves the files that are being loaded as it has found them, however it ends: what a
reduction opens it closes, and so does the call for a file. -/
theorem serveWith_loading (session : Session) {evaluate : Evaluator} (runs : evaluate.Runs)
    (request : Request) :
    (session.serveWith evaluate request).session.loading = session.loading := by
  cases session.served request with
  | refused fault call _ =>
    rw [call]
    rfl
  | reduced used term call _ =>
    rw [call]
    exact (runs term session.global session.journal).loading
  | loaded path program _ call _ =>
    rw [call]
    exact (Reduction.runProgram_run session.setting runs path program session.global
      session.journal).loading

/-! ## Turns -/

/-- What can happen to a session. -/
inductive Turn where
  /-- A request is served, or the surroundings change. -/
  | deed (deed : Deed)
  /-- Everything is forgotten. -/
  | reset

/-- The session after a turn. -/
def afterTurn (session : Session) : Turn → Session
  | .deed deed => session.afterDeed deed
  | .reset => session.reset

/-- A session and the count that it keeps of open lists. -/
structure Counted where
  /-- The session. -/
  session : Session
  /-- The count. -/
  count : Int

namespace Counted

/-- Where the count stands when the first list of a request is entered. -/
def start (counted : Counted) : Request → Int
  | .term _ => 0
  | .source source =>
    match readList source with
    | .error _ => counted.count
    | .ok _ => 0
  | .file _ => counted.count

/-- The session and the count after a turn. What the count has reached is missing from the depth
that a request is given. -/
def afterTurn (counted : Counted) : Turn → Counted
  | .deed (.request request) =>
    let session := counted.session
    let left := (session.setting.maxDepth - counted.start request).toNat
    ⟨(session.serveWith (reduce session.setting left) request).session,
      (session.moments left request).foldl tick (counted.start request)⟩
  | .deed (.surroundings setting) => { counted with session := { counted.session with setting } }
  | .reset => ⟨counted.session.reset, 0⟩

/-- Nothing of a call is left. -/
structure Clear (counted : Counted) : Prop where
  leaving : counted.session.global.leaving = none
  loading : counted.session.loading = []
  count : counted.count = 0

/-- Without a count left over, every request starts at the top, also those that would go on from
where the count stands. -/
theorem start_of_clear {counted : Counted} (clear : counted.Clear) (request : Request) :
    counted.start request = 0 := by
  cases request with
  | term term => rfl
  | source source =>
    rw [start]
    split
    · exact clear.count
    · rfl
  | file path => exact clear.count

/-- A step: after every turn the session is that of the turn, and nothing is left.

Proof: a request starts at the top, so it is given the whole depth and is the call of the session.
That the count is back where it started is what the moments of a call keep. -/
theorem afterTurn_clear {counted : Counted} (clear : counted.Clear) (turn : Turn) :
    (counted.afterTurn turn).session = counted.session.afterTurn turn ∧
      (counted.afterTurn turn).Clear := by
  cases turn with
  | deed deed =>
    cases deed with
    | request request =>
      let session := counted.session
      have top : counted.start request = 0 := start_of_clear clear request
      have whole : (session.setting.maxDepth - counted.start request).toNat =
          session.setting.maxDepth := by
        rw [top, Int.sub_zero, Int.toNat_natCast]
      have served : (counted.afterTurn (.deed (.request request))).session =
          (session.serve request).session := by
        simp only [afterTurn]
        rw [whole, serve_eq]
      refine ⟨served, ?_, ?_, ?_⟩
      · rw [served]
        exact serve_atRest clear.leaving request
      · rw [served, serve_eq, session.serveWith_loading (reduce_runs _ _)]
        exact clear.loading
      · simp only [afterTurn]
        rw [whole, top]
        refine (session.moments_keep (tick_bracketing session.setting session.setting.maxDepth) ?_
          request).back
        exact Int.zero_add _
    | surroundings setting => exact ⟨rfl, clear.leaving, clear.loading, clear.count⟩
  | reset => exact ⟨rfl, rfl, rfl, rfl⟩

/-- A run: the same holds after any number of turns, since each of them starts from a session of
which nothing is left. -/
theorem afterTurns_clear {counted : Counted} (clear : counted.Clear) (turns : List Turn) :
    (turns.foldl afterTurn counted).session = turns.foldl Session.afterTurn counted.session ∧
      (turns.foldl afterTurn counted).Clear := by
  induction turns generalizing counted with
  | nil => exact ⟨rfl, clear⟩
  | cons turn rest inductionHypothesis =>
    obtain ⟨same, stays⟩ := afterTurn_clear clear turn
    rw [List.foldl_cons, List.foldl_cons, ← same]
    exact inductionHypothesis stays

end Counted

/-- However calls end, nothing of them is left: after any turns from a new session there is no value
on its way out, no file is being loaded, and no list is open. The count is what the limit is about:
whenever a further call enters a list, it and the depth left make up the limit. -/
theorem calls_leave_no_residue (setting : Setting) (turns : List Turn) :
    let counted := turns.foldl Counted.afterTurn ⟨.new setting, 0⟩
    counted.session = turns.foldl afterTurn (.new setting) ∧
    counted.session.global.leaving = none ∧ counted.session.loading = [] ∧ counted.count = 0 ∧
    ∀ request before moment after (left : Nat),
      counted.session.moments counted.session.setting.maxDepth request =
        before ++ moment :: after → moment.happening = .entered left →
      (before.foldl tick 0 : Int) + left = counted.session.setting.maxDepth := by
  intro counted
  have new : Counted.Clear ⟨.new setting, 0⟩ := ⟨rfl, rfl, rfl⟩
  obtain ⟨same, clear⟩ := Counted.afterTurns_clear new turns
  refine ⟨same, clear.leaving, clear.loading, clear.count, ?_⟩
  intro request before moment after left split entered
  have kept := counted.session.moments_keep
    (tick_bracketing counted.session.setting counted.session.setting.maxDepth)
    (Int.zero_add _) request
  exact kept.allowed.along split left entered

/-- The term `((.head (.return a)))`: the value is on its way out when the call fails, and the next
call does not find it. That one enters its second list at a count of one. -/
theorem failed_return_leaves_no_residue :
    let setting := { (default : Setting) with maxDepth := 10 }
    let failing : Term :=
      .list [.list [.keyword ".head", .list [.keyword ".return", .str "a"]]]
    let counted := [Turn.deed (.request (.term failing))].foldl Counted.afterTurn ⟨.new setting, 0⟩
    (reduce setting 10 failing .empty .empty).scope.leaving = some (.str "a") ∧
    (∃ fault, ((new setting).serve (.term failing)).outcome = .error fault) ∧
    counted.session.global.leaving = none ∧ counted.session.loading = [] ∧ counted.count = 0 ∧
    counted.session.moments 10 (.term (.list [.list []])) =
      [⟨.entered 10, []⟩] ++ ⟨.entered 9, []⟩ :: [⟨.left, []⟩, ⟨.left, []⟩] ∧
    ([⟨.entered 10, []⟩].foldl tick 0 : Int) + 9 = 10 := by
  intro setting failing counted
  obtain ⟨_, leaving, loading, count, reads⟩ :=
    calls_leave_no_residue setting [Turn.deed (.request (.term failing))]
  refine ⟨rfl, ⟨_, rfl⟩, leaving, loading, count, rfl, ?_⟩
  exact reads (.term (.list [.list []])) [⟨.entered 10, []⟩] ⟨.entered 9, []⟩
    [⟨.left, []⟩, ⟨.left, []⟩] 9 rfl rfl

end Session

end TermLang
