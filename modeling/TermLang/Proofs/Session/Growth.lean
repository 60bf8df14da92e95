import TermLang.Proofs.Reduction.Applied
import TermLang.Proofs.Session.Request

/-!
# Facts and rules are only added

What a reduction leaves in its caller's scope is what was there, then the facts and the rules of the
lists that it has applied outside of queries, each once and in the order in which they were applied;
and no name is unbound. This holds whatever the outcome is.

A call hands the scope of the session to one reduction and keeps what it leaves, so the same holds
of a call, and by induction of any number of them, with other files or limits in between. A session
that is reset starts again with nothing, and is not covered.
-/

namespace TermLang

namespace Session

/-- The lists that the call for a request applies outside of queries, in order. -/
def applied (session : Session) (request : Request) : List (List Term) :=
  session.seen (.ofApplied (TermLang.applied session.setting session.setting.maxDepth)) request

/-- A session grows by the lists that a call applies, however the request is served and however the
call ends. Taking a value out of the session at the end adds nothing. -/
theorem serve_grown (session : Session) (request : Request) :
    Scope.GrownBy (session.applied request) session.global
      (session.serve request).session.global := by
  have reduced (term : Term) (journal : Journal) :=
    reduce_grown session.setting session.setting.maxDepth term session.global journal
  rw [serve_eq, applied]
  cases session.served request with
  | refused fault call seen =>
    rw [call, seen]
    exact .refl session.global
  | reduced used term call seen =>
    obtain ⟨facts, rules, bound⟩ := reduced term session.journal
    rw [call, seen]
    exact ⟨facts, rules, bound⟩
  | loaded path program opens call seen =>
    obtain ⟨facts, rules, bound⟩ := reduced program (session.loadingJournal path program)
    rw [call, seen]
    exact ⟨facts, rules, bound⟩

/-- What happens to a session between two resets. -/
inductive Deed where
  /-- A request is served, whether or not the call fails. -/
  | request (request : Request)
  /-- The surroundings change: other files, another directory, another limit. -/
  | surroundings (setting : Setting)

/-- The session after a deed. -/
def afterDeed (session : Session) : Deed → Session
  | .request request => (session.serve request).session
  | .surroundings setting => { session with setting }

/-- The session after some deeds. -/
def afterDeeds (session : Session) (deeds : List Deed) : Session :=
  deeds.foldl afterDeed session

/-- The lists that are applied outside of queries in a deed, in order. -/
def deedApplied (session : Session) : Deed → List (List Term)
  | .request request => session.applied request
  | .surroundings _ => []

/-- The lists that are applied outside of queries in some deeds, in order. -/
def deedsApplied (session : Session) : List Deed → List (List Term)
  | [] => []
  | deed :: rest => session.deedApplied deed ++ (session.afterDeed deed).deedsApplied rest

/-- A step: a session grows by the lists that are applied in a deed. -/
theorem afterDeed_grown (session : Session) (deed : Deed) :
    Scope.GrownBy (session.deedApplied deed) session.global (session.afterDeed deed).global := by
  cases deed with
  | request request => exact session.serve_grown request
  | surroundings setting => exact .refl session.global

/-- A run: a session grows by the lists that are applied in all its deeds. -/
theorem afterDeeds_grown (session : Session) (deeds : List Deed) :
    Scope.GrownBy (session.deedsApplied deeds) session.global
      (session.afterDeeds deeds).global := by
  induction deeds generalizing session with
  | nil => exact .refl session.global
  | cons deed rest inductionHypothesis =>
    exact (session.afterDeed_grown deed).trans (inductionHypothesis (session.afterDeed deed))

end Session

/-- Facts and rules are only added, and no name is unbound. Behind the facts and the rules that its
caller's scope held, a reduction leaves the operands of the lists for declaring and defining that it
has applied outside of queries, each once and in the order in which they were applied. A session
grows in the same way by the lists that its calls apply, over any number of them. -/
theorem grows_by_lists_applied :
    (∀ (setting : Setting) (left : Nat) (term : Term) (caller : Scope) (journal : Journal),
      Scope.GrownBy (applied setting left term caller journal) caller
        (reduce setting left term caller journal).scope) ∧
    ∀ (session : Session) (deeds : List Session.Deed),
      Scope.GrownBy (session.deedsApplied deeds) session.global
        (session.afterDeeds deeds).global :=
  ⟨reduce_grown, Session.afterDeeds_grown⟩

/-- A fact holds the list `(.dec x)`, which is looked up and asked for; no fact answers, and it is
applied in the query. Before that, `(.dec a)` was applied inside the operand of another `.dec`. The
caller's scope gets the facts of the two lists that were applied outside of the query, the inner one
first, and not that of the third, although it was applied as well. -/
theorem nested_fact_is_added_first : ∃ (caller : Scope) (term : Term) (reply : Reply Scope),
    caller = ⟨[.list [.str "k", .list [.keyword ".dec", .str "x"]]], [], [], none⟩ ∧
    term = .list [
      .list [.keyword ".dec", .list [.str "f", .list [.keyword ".dec", .str "a"]]],
      .list [.keyword ".eval", .list [.keyword ".back", .list [.keyword ".head",
        .list [.keyword ".match", .list [.str "k", .var "X"]]]]]] ∧
    reply = reduce default 6 term caller .empty ∧
    reply.outcome = .ok (.list [.bool true, .bool true]) ∧
    reply.journal.acts = [.declared (.str "x"), .declared (.list [.str "f", .bool true]),
      .declared (.str "a")] ∧
    (applied default 6 term caller .empty).filterMap declared? =
      [.str "a", .list [.str "f", .bool true]] ∧
    reply.scope.facts = [.list [.str "k", .list [.keyword ".dec", .str "x"]], .str "a",
      .list [.str "f", .bool true]] := by
  refine ⟨_, _, _, rfl, rfl, rfl, rfl, rfl, rfl, ?_⟩
  exact (grows_by_lists_applied.1 default 6 _ _ .empty).facts

end TermLang
