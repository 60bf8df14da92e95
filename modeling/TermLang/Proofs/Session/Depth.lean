import TermLang.Proofs.Reduction.Depth
import TermLang.Proofs.Session.Request

/-!
# The depth limit and whole calls

Two sessions that differ in their depth limit only give the same answers, as long as the call with
the lower limit is not cut: the same outcome, output and trace, and the same knowledge afterwards.
Such a call has not come to the limit at all: whatever else were done there, the call would be the
same.
-/

namespace TermLang

namespace Session

/-- A session with another depth limit. -/
def limited (session : Session) (limit : Nat) : Session :=
  { session with setting := session.setting.limited limit }

/-- A call with another depth limit in the session that it leaves. -/
def Call.limited (call : Call) (limit : Nat) : Call :=
  { call with session := call.session.limited limit }

/-- The call for a request, with lists beyond the depth limit given to `beyond`. -/
def serveOver (session : Session) (beyond : List Term → Scope → Journal → Reply Scope)
    (request : Request) : Call :=
  session.serveWith (reduceOver session.setting beyond session.setting.maxDepth) request

/-- The end of a call keeps a cut reply cut: a value on its way out does not replace the fault. -/
theorem finish_cut (session : Session) {reply : Reply Scope} (cut : Cut reply.outcome) :
    Cut (session.finish reply).outcome := by
  obtain ⟨fault, isFault, deep⟩ := cut
  refine ⟨fault, ?_, deep⟩
  simp only [finish, isFault]

/-- Calls go beyond each other as their evaluators do. Nothing else in a call depends on the
evaluator, so if the evaluators agree on what they are given, the calls are equal. -/
theorem serveWith_beyond (session : Session) {low high : Evaluator} (beyond : high.GoesBeyond low)
    (request : Request) :
    Cut (session.serveWith low request).outcome ∨
      session.serveWith high request = session.serveWith low request := by
  cases session.served request with
  | refused fault call seen =>
    right
    rw [call, call]
  | reduced used term call seen =>
    rw [call, call]
    rcases beyond term session.global session.journal with cut | same
    · exact .inl (finish_cut _ cut)
    · right
      rw [same]
  | loaded path program opens call seen =>
    rw [call, call]
    rcases Reduction.runProgram_beyond session.setting beyond path program session.global
      session.journal with cut | same
    · exact .inl (finish_cut _ cut)
    · right
      rw [same]

/-- Apart from its evaluator a call does not look at the limit. The session that it leaves still
holds the setting, so its limit is exchanged as well.

Proof: for each kind of request the tests on the way, reading, finding and opening, see the same
source, files and list of files. -/
theorem serveWith_limited (session : Session) (limit limit' : Nat) (evaluate : Evaluator)
    (request : Request) :
    (session.limited limit').serveWith evaluate request =
      ((session.limited limit).serveWith evaluate request).limited limit' := by
  cases request with
  | term term => rfl
  | source source =>
    simp only [serveWith]
    split <;> rfl
  | file path =>
    have sameAbsolute : (session.limited limit').setting.absolute? path =
        (session.limited limit).setting.absolute? path := rfl
    simp only [serveWith, sameAbsolute]
    split
    · rfl
    · rename_i absolute _
      have sameContent : (session.limited limit').setting.read absolute =
          (session.limited limit).setting.read absolute := rfl
      simp only [sameContent]
      split
      · rfl
      · have sameJournal : (session.limited limit').journal = (session.limited limit).journal := rfl
        simp only [sameJournal]
        split <;> rfl

/-- A higher limit changes nothing about a call that the lower one does not cut, and neither does
anything else that may be put in the place of the cut. -/
theorem limit_only_cuts (session : Session) {limit limit' : Nat} (higher : limit ≤ limit')
    (request : Request) (uncut : ¬ Cut ((session.limited limit).serve request).outcome) :
    (session.limited limit').serve request =
        ((session.limited limit).serve request).limited limit' ∧
      ∀ beyond, (session.limited limit).serveOver beyond request =
        (session.limited limit).serve request := by
  have kept (beyond) : (session.limited limit).serveOver beyond request =
      (session.limited limit).serve request := by
    rw [serve_eq] at uncut ⊢
    rcases serveWith_beyond (session.limited limit)
      (reduceOver_goesBeyond (session.limited limit).setting beyond limit) request with cut | same
    · exact absurd cut uncut
    · exact same
  refine ⟨?_, kept⟩
  obtain ⟨extra, rfl⟩ := Nat.exists_eq_add_of_le higher
  calc (session.limited (limit + extra)).serve request
    _ = (session.limited (limit + extra)).serveWith
          (reduce (session.setting.limited (limit + extra)) (limit + extra)) request :=
        serve_eq _ _
    _ = ((session.limited limit).serveOver
          (fun items => reduce (session.setting.limited (limit + extra)) extra (.list items))
          request).limited (limit + extra) := by
        rw [reduce_limited, serveWith_limited session limit]
        rfl
    _ = ((session.limited limit).serve request).limited (limit + extra) := by rw [kept]

/-- The source `(.def (f X) (g X)) (f a)` comes as deep as three lists, the result of the rule
included. -/
theorem rule_within_limit : ∃ session : Session, ∃ request : Request,
    session = .new default ∧ request = .term (.list
      [.list [.keyword ".def", .list [.str "f", .var "X"], .list [.str "g", .var "X"]],
        .list [.str "f", .str "a"]]) ∧
    ¬ Cut ((session.limited 3).serve request).outcome ∧
    Cut ((session.limited 2).serve request).outcome ∧
    (session.limited 10).serve request = ((session.limited 3).serve request).limited 10 := by
  have uncut : ¬ Cut (((Session.new default).limited 3).serve (.term (.list
      [.list [.keyword ".def", .list [.str "f", .var "X"], .list [.str "g", .var "X"]],
        .list [.str "f", .str "a"]]))).outcome := by
    rintro ⟨fault, isFault, deep⟩
    cases isFault
  refine ⟨_, _, rfl, rfl, uncut, ⟨_, rfl, rfl⟩, ?_⟩
  exact (limit_only_cuts _ (by decide) _ uncut).1

end Session

end TermLang
