import TermLang.Proofs.Reduction.Inert
import TermLang.Proofs.Reduction.Leaving
import TermLang.Proofs.Session.Depth
import TermLang.Proofs.Session.Growth

/-!
# A program at once or form by form

A list of forms is reduced item by item, each item in the scope that the one before has left, and
so are the forms when a session is given one after the other. The two differ in the depth that is
left, in the journal that each form starts with, and in where a return is taken out of the scope: a
call takes it out at its end, the list only looks for it. `reduce_limits` says that the first two
make no difference; and a call that applies no return leaves no value to be taken out.

The induction is on the forms, along the loop over the items of the list. Afterwards the list of the
results is still applied; the statement asks for results that this leaves as they are.
-/

namespace TermLang

namespace Session

/-- No value is on its way out of a session. -/
def AtRest (session : Session) : Prop := session.global.leaving = none

/-- Whether a return was applied during a call. -/
def Call.returned (call : Call) : Bool :=
  call.journal.acts.any fun act => !act.changes

/-- How a series of calls has ended. -/
inductive Ending where
  /-- There was nothing more to do. -/
  | through
  /-- A call applied a return and gave a value. -/
  | returned (value : Term)
  /-- A call failed. -/
  | failed (fault : Fault)

/-- What a series of calls gives back. -/
structure Series where
  /-- The results of the calls in order. -/
  results : List Term
  /-- What the calls printed, one behind the other. -/
  printed : String
  /-- The session after the last call. -/
  session : Session
  /-- How the series has ended. -/
  ending : Ending

/-- Reduces terms one call after the other, up to the first that fails or applies a return. -/
def evalEach (session : Session) : List Term → Series
  | [] => ⟨[], "", session, .through⟩
  | form :: rest =>
    let call := session.eval form
    match call.outcome with
    | .error fault => ⟨[], call.journal.printed, call.session, .failed fault⟩
    | .ok value =>
      if call.returned then ⟨[value], call.journal.printed, call.session, .returned value⟩
      else
        let others := call.session.evalEach rest
        { others with
          results := value :: others.results
          printed := call.journal.printed ++ others.printed }

/-! ## Sessions at rest -/

/-- The end of a call leaves a session at rest, whatever the reply was: a value on its way out is
taken out there. -/
theorem finish_atRest (session : Session) (reply : Reply Scope) :
    (session.finish reply).session.AtRest := rfl

/-- A session at rest is at rest after every call. A refused call leaves the session as it was, and
every other is ended. -/
theorem serve_atRest {session : Session} (atRest : session.AtRest) (request : Request) :
    (session.serve request).session.AtRest := by
  rw [serve_eq]
  cases session.served request with
  | refused fault call seen =>
    rw [call]
    exact atRest
  | reduced used term call seen =>
    rw [call]
    exact finish_atRest _ _
  | loaded path program opens call seen =>
    rw [call]
    exact finish_atRest _ _

/-- A session at rest is at rest after all that can happen to it, by induction on what happens. -/
theorem afterDeeds_atRest {session : Session} (atRest : session.AtRest) (deeds : List Deed) :
    (session.afterDeeds deeds).AtRest := by
  induction deeds generalizing session with
  | nil => exact atRest
  | cons deed rest inductionHypothesis =>
    apply inductionHypothesis
    cases deed with
    | request request => exact serve_atRest atRest request
    | surroundings setting => exact atRest

/-! ## One form -/

end Session

open Reduction

/-- Items that were stopped were stopped by the value on its way out, which is still in the scope
then. -/
theorem Reduction.leaving_of_stopped {below : Evaluator} {items done : List Term}
    {scope scope' : Scope} {journal journal' : Journal} {value : Term}
    (stopped : reduceItems below items done scope journal = (.stopped value, scope', journal')) :
    scope'.leaving = some value := by
  induction items generalizing done scope journal with
  | nil => cases stopped
  | cons item rest inductionHypothesis =>
    simp only [reduceItems] at stopped
    split at stopped
    · rename_i leaving
      cases stopped
      exact leaving
    · split at stopped
      · cases stopped
      · exact inductionHypothesis stopped

/-- The result of a list that sends a value out is that value. The items were stopped by it, or it
was sent by the last of them or by applying the list, and then it takes the place of the result. -/
theorem Reduction.reduceFrame_outcome_of_leaving (setting : Setting) {below : Evaluator}
    {items : List Term} {outer : Scope} {journal : Journal} {result value : Term}
    (outcome : (reduceFrame setting below items outer journal).outcome = .ok result)
    (leaving : (reduceFrame setting below items outer journal).scope.leaving = some value) :
    result = value := by
  simp only [reduceFrame] at outcome leaving
  generalize isReduced : reduceItems below items [] outer journal = reduced at outcome leaving
  obtain ⟨became, scope, journal'⟩ := reduced
  cases became with
  | failed fault => cases outcome
  | stopped stop =>
    cases outcome
    exact Option.some.inj ((leaving_of_stopped isReduced).symm.trans leaving)
  | reduced values =>
    dsimp only at outcome leaving
    generalize dispatch setting below values ⟨scope, .empty⟩ journal' = reply at outcome leaving
    cases isOutcome : reply.outcome with
    | error fault => simp [overriding, isOutcome] at outcome
    | ok other => simpa [overriding, isOutcome, leaving] using outcome.symm

/-- The result of a reduction that sends a value out is that value. Nothing is on its way out
before, so an atom sends nothing, and a list was entered. -/
theorem reduce_outcome_of_leaving (setting : Setting) (left : Nat) (term : Term) {scope : Scope}
    {journal : Journal} (calm : scope.leaving = none) {result value : Term}
    (outcome : (reduce setting left term scope journal).outcome = .ok result)
    (leaving : (reduce setting left term scope journal).scope.leaving = some value) :
    result = value := by
  cases term with
  | list items =>
    cases left with
    | zero => cases outcome
    | succ left =>
      rw [reduce_list] at outcome leaving
      exact reduceFrame_outcome_of_leaving setting outcome leaving
  | _ =>
    cases left with
    | _ => exact absurd (calm.symm.trans leaving) (by simp)

/-- A reduction sends a value out exactly when it applies a return: if none was on its way out
before, the value on its way out is that of the last return. -/
theorem reduce_leaving_iff (setting : Setting) (left : Nat) (term : Term) {scope : Scope}
    {journal : Journal} (calm : scope.leaving = none) (nothing : journal.acts = []) :
    (reduce setting left term scope journal).scope.leaving.isSome ↔
      ∃ act ∈ (reduce setting left term scope journal).journal.acts, act.changes = false := by
  obtain ⟨added, acts, leaving⟩ := reduce_sends setting left term scope journal
  rw [nothing, List.append_nil] at acts
  rw [leaving, calm, Option.or_none, isSome_lastReturned?_iff, acts]
  constructor
  · rintro ⟨value, member⟩
    exact ⟨.returned value, member, rfl⟩
  · rintro ⟨act, member, returns⟩
    cases act with
    | returned value => exact ⟨value, member⟩
    | _ => cases returns

namespace Session

/-- The outcome of an item of a list, beside the call for it. -/
inductive Answers (one other : Setting) (reply : Reply Scope) (call : Call) : Prop where
  | failed {fault fault' : Fault} (alike : fault.Alike one other fault')
      (failed : reply.outcome = .error fault) (outcome : call.outcome = .error fault')
  | returned {value : Term} (result : reply.outcome = .ok value)
      (leaving : reply.scope.leaving = some value) (outcome : call.outcome = .ok value)
      (returned : call.returned = true)
  | stayed {value : Term} (result : reply.outcome = .ok value)
      (leaving : reply.scope.leaving = none) (outcome : call.outcome = .ok value)
      (stayed : call.returned = false)

/-- The result of a call that sends a value out is that value already, so the end of a call changes
the scope and not the outcome. -/
theorem eval_outcome {session : Session} (atRest : session.AtRest) (term : Term) :
    (session.eval term).outcome = (reduce session.setting session.setting.maxDepth term
      session.global session.journal).outcome := by
  have isValue {result value : Term} := @reduce_outcome_of_leaving session.setting
    session.setting.maxDepth term session.global session.journal atRest result value
  simp only [eval, finish, Scope.takeLeaving]
  generalize reduce session.setting session.setting.maxDepth term session.global
    session.journal = reply at isValue ⊢
  split
  · rename_i result value isResult leaving
    rw [isResult, isValue isResult leaving]
  · rfl

/-- An item of a list with one more level of depth, beside the call for it. -/
structure Beside (one other : Setting) (journal : Journal) (session : Session)
    (reply : Reply Scope) (call : Call) : Prop where
  printed : reply.journal.printed = journal.printed ++ call.journal.printed
  global : { reply.scope with leaving := none } = call.session.global
  setting : call.session.setting = session.setting
  loading : reply.journal.loading = call.session.loading
  answers : Answers one other reply call

/-- Items and calls go side by side.

Proof: the reduction of an item with one more level of depth and the one of the call differ in the
limit and in the journal that they start with, and neither shows. Whether the call has returned is
seen from its acts, whether the item has from its scope, and the two agree. -/
theorem eval_beside {session : Session} (atRest : session.AtRest) (form : Term) {journal : Journal}
    (loading : journal.loading = session.journal.loading) (limit : Nat) :
    Beside (session.setting.limited limit) session.setting journal session
      (reduce (session.setting.limited limit) session.setting.maxDepth form session.global journal)
      (session.eval form) := by
  obtain ⟨alike, scopes, text, printed, printed'⟩ := reduce_limits session.setting limit
    session.setting.maxDepth session.setting.maxDepth form session.global loading
  have ownLimit : session.setting.limited session.setting.maxDepth = session.setting := rfl
  rw [ownLimit] at alike scopes printed'
  have loads := (reduce_runs (session.setting.limited limit) session.setting.maxDepth form
    session.global journal).loading
  have loads' := (reduce_runs session.setting session.setting.maxDepth form session.global
    session.journal).loading
  have leavingIff := reduce_leaving_iff session.setting session.setting.maxDepth form atRest
    (show session.journal.acts = [] from rfl)
  have isValue {result value : Term} := @reduce_outcome_of_leaving session.setting
    session.setting.maxDepth form session.global session.journal atRest result value
  have outcomes := eval_outcome atRest form
  simp only [eval] at outcomes ⊢
  -- From here on the two reductions matter only by what is known of their replies.
  generalize reduce (session.setting.limited limit) session.setting.maxDepth form session.global
    journal = reply at *
  generalize reduce session.setting session.setting.maxDepth form session.global
    session.journal = reply' at *
  have fresh : reply'.journal.printed = text := by
    simpa [Session.journal, Journal.empty] using printed'
  refine ⟨by rw [printed, ← fresh]; rfl, by rw [scopes]; rfl, rfl, ?_, ?_⟩
  · rw [loads, loading]
    exact loads'.symm
  · generalize isOutcome : reply.outcome = outcome at alike
    generalize isOutcome' : reply'.outcome = outcome' at alike
    have isReturned (session : Session) :
        (session.finish reply').returned = reply'.scope.leaving.isSome := by
      rw [Bool.eq_iff_iff, leavingIff]
      simp [Call.returned, finish]
    rw [isOutcome'] at outcomes
    cases alike with
    | error faults => exact .failed faults isOutcome outcomes
    | ok value =>
      cases leaving : reply'.scope.leaving with
      | none =>
        refine .stayed isOutcome (by rw [scopes]; exact leaving) outcomes ?_
        rw [isReturned, leaving]
        rfl
      | some sent =>
        obtain rfl := isValue isOutcome' leaving
        refine .returned isOutcome (by rw [scopes]; exact leaving) outcomes ?_
        rw [isReturned, leaving]
        rfl

/-! ## All forms -/

/-- How the items of a list have ended, beside the calls for them. A return stops the list before
the next item; behind the last one there is no item to stop at. -/
inductive Ends (one other : Setting) (results : List Term) : Ending → Items → Option Term → Prop
    where
  | through : Ends one other results .through (.reduced results) none
  | stopped (value : Term) : Ends one other results (.returned value) (.stopped value) (some value)
  | last (value : Term) : Ends one other results (.returned value) (.reduced results) (some value)
  | failed {fault fault' : Fault} (alike : fault.Alike one other fault') (leaving : Option Term) :
      Ends one other results (.failed fault') (.failed fault) leaving

/-- All items of a list with one more level of depth, beside the calls for them. -/
structure Follows (one other : Setting) (done : List Term) (journal : Journal)
    (reduced : Items × Scope × Journal) (series : Series) : Prop where
  printed : reduced.2.2.printed = journal.printed ++ series.printed
  global : { reduced.2.1 with leaving := none } = series.session.global
  ends : Ends one other (done.reverse ++ series.results) series.ending reduced.1 reduced.2.1.leaving

/-- The items of a list and the calls for them go side by side to their ends.

Proof: by induction on the forms. A form that fails ends both. One that returns ends the calls at
once and the list before its next item. Any other leaves the same scope to both, and they go on. -/
theorem reduceItems_follows (setting : Setting) (limit : Nat) (forms done : List Term)
    (session : Session) (isSetting : session.setting = setting) (atRest : session.AtRest)
    (journal : Journal) (loading : journal.loading = session.loading) :
    Follows (setting.limited limit) setting done journal
      (reduceItems (reduce (setting.limited limit) setting.maxDepth) forms done session.global
        journal) (session.evalEach forms) := by
  have calm : session.global.leaving = none := atRest
  induction forms generalizing done session journal with
  | nil =>
    refine ⟨by simp [reduceItems, evalEach], ?_, ?_⟩
    · simp only [reduceItems, evalEach, ← calm]
    · simpa [reduceItems, evalEach, calm] using Ends.through
  | cons form rest inductionHypothesis =>
    subst isSetting
    obtain ⟨printed, global, sameSetting, loads, answers⟩ := eval_beside atRest form loading limit
    simp only [reduceItems, calm, evalEach]
    have restCalm : (session.eval form).session.AtRest := finish_atRest _ _
    generalize reduce (session.setting.limited limit) session.setting.maxDepth form session.global
      journal = reply at printed global loads answers ⊢
    generalize session.eval form = call at printed global sameSetting loads answers restCalm ⊢
    cases answers with
    | failed alike failed outcome =>
      simp only [failed, outcome]
      exact ⟨printed, global, .failed alike _⟩
    | @returned value result leaving outcome returned =>
      simp only [result, outcome, returned, if_true]
      cases rest with
      | nil =>
        -- Behind the last item nothing looks for a return, so the list counts as reduced.
        simp only [reduceItems, List.reverse_cons]
        refine ⟨printed, global, ?_⟩
        dsimp only
        rw [leaving]
        exact .last value
      | cons next more =>
        simp only [reduceItems, leaving]
        exact ⟨printed, global, by dsimp only; rw [leaving]; exact .stopped value⟩
    | @stayed value result leaving outcome stayed =>
      simp only [result, outcome, stayed, if_false, Bool.false_eq_true]
      -- Nothing is on its way out, so the item leaves the very scope that the call leaves.
      have same : reply.scope = call.session.global := by
        rw [← global, ← leaving]
      rw [same]
      have others := inductionHypothesis (value :: done) call.session sameSetting restCalm
        reply.journal loads restCalm
      refine ⟨?_, others.global, ?_⟩
      · rw [others.printed, printed, String.append_assoc]
      · simpa using others.ends

end Session

namespace Reduction

/-- Data that no rule matches stays as it is, since it calls for neither an operator nor a form. -/
theorem dispatch_data (setting : Setting) (below : Evaluator) {items : List Term} {frame : Frame}
    (journal : Journal) (data : ∀ first ∈ items.head?, isApplicable first = false)
    (unmatched : ∀ rule ∈ frame.outer.rules, rule.fire? (.list items) = none) :
    dispatch setting below items frame journal = ⟨.ok (.list items), frame, journal⟩ :=
  dispatch_of_isIdle setting (isIdle_of_data data) unmatched journal

end Reduction

namespace Session

/-- What a series of calls amounts to: the list of the results, unless a call failed or returned. -/
def Series.outcome (series : Series) : Except Fault Term :=
  match series.ending with
  | .through => .ok (.list series.results)
  | .returned value => .ok value
  | .failed fault => .error fault

/-- The results of a series are data: the first one calls for no operator or form, and no rule of
the session reached matches their list. -/
def Series.YieldsData (series : Series) : Prop :=
  (∀ first ∈ series.results.head?, isApplicable first = false) ∧
    ∀ rule ∈ series.session.global.rules, rule.fire? (.list series.results) = none

/-- A list whose items follow a series of calls is reduced to what the series amounts to. If an item
failed or stopped the list, it is not applied; otherwise its results are, and being data they stay
as they are. -/
theorem reduceFrame_follows (setting : Setting) {one other : Setting} {below : Evaluator}
    {forms : List Term} {outer : Scope} {journal : Journal} {series : Series}
    (follows : Follows one other [] journal (reduceItems below forms [] outer journal) series)
    (settled : (∃ fault, series.ending = .failed fault) ∨ series.YieldsData) :
    Alike one other (reduceFrame setting below forms outer journal).outcome series.outcome ∧
      (reduceFrame setting below forms outer journal).journal.printed =
        journal.printed ++ series.printed ∧
      { (reduceFrame setting below forms outer journal).scope with leaving := none } =
        series.session.global := by
  obtain ⟨results, text, reached, ending⟩ := series
  obtain ⟨printed, global, ends⟩ := follows
  simp only [reduceFrame]
  generalize reduceItems below forms [] outer journal = reduced at printed global ends ⊢
  obtain ⟨became, scope, journal'⟩ := reduced
  have applied (data : Series.YieldsData ⟨results, text, reached, ending⟩) :
      dispatch setting below results ⟨scope, .empty⟩ journal' =
        ⟨.ok (.list results), ⟨scope, .empty⟩, journal'⟩ := by
    refine dispatch_data setting below journal' data.1 ?_
    have rules : reached.global.rules = scope.rules := (congrArg Scope.rules global).symm
    exact rules ▸ data.2
  generalize isLeaving : scope.leaving = leaving at ends
  simp only [List.reverse_nil, List.nil_append] at ends
  cases ends with
  | failed alike leaving => exact ⟨.error alike, printed, global⟩
  | stopped value => exact ⟨.ok value, printed, global⟩
  | last value =>
    have data := settled.resolve_left (by simp)
    simp only [applied data, overriding, isLeaving]
    exact ⟨.ok value, printed, global⟩
  | through =>
    have data := settled.resolve_left (by simp)
    simp only [applied data, overriding, isLeaving]
    exact ⟨.ok _, printed, global⟩

/-- A program means the same given at once or form by form. Every session is at rest between its
calls. From a session at rest, with one more level of depth, the list of some forms fails as the
first form that fails does, up to the limit that a fault names; otherwise, if the results are data,
it gives the value of the first return, or else the list of the results. Either way it prints the
same and leaves the same behind. -/
theorem eval_list_like_each :
    (∀ setting deeds, ((new setting).afterDeeds deeds).AtRest) ∧
    ∀ (session : Session) (limit : Nat) (forms : List Term), session.AtRest →
      (∃ fault, ((session.limited limit).evalEach forms).ending = .failed fault) ∨
        ((session.limited limit).evalEach forms).YieldsData →
      Alike (session.setting.limited (limit + 1)) (session.setting.limited limit)
          ((session.limited (limit + 1)).eval (.list forms)).outcome
          ((session.limited limit).evalEach forms).outcome ∧
        ((session.limited (limit + 1)).eval (.list forms)).journal.printed =
          ((session.limited limit).evalEach forms).printed ∧
        ((session.limited (limit + 1)).eval (.list forms)).session.global =
          ((session.limited limit).evalEach forms).session.global := by
  refine ⟨fun setting deeds => afterDeeds_atRest (show (new setting).AtRest from rfl) deeds, ?_⟩
  intro session limit forms atRest settled
  let journal := session.journal.note (session.setting.limited (limit + 1))
    (.reduce (.list forms) (limit + 1 - limit))
  have follows := reduceItems_follows (session.setting.limited limit) (limit + 1) forms []
    (session.limited limit) rfl atRest journal (Journal.note_loading _ _ _)
  obtain ⟨alike, printed, global⟩ :=
    reduceFrame_follows (session.setting.limited (limit + 1)) follows settled
  have whole := reduce_list (session.setting.limited (limit + 1)) limit forms session.global
    session.journal
  refine ⟨?_, ?_, ?_⟩
  · have restBeyond : (session.limited (limit + 1)).AtRest := atRest
    rw [eval_outcome restBeyond]
    exact whole ▸ alike
  · have isPrinted := (congrArg (·.journal.printed) whole).trans printed
    have nothing : session.journal.printed = "" := rfl
    rw [Journal.note_printed, nothing, String.empty_append] at isPrinted
    exact isPrinted
  · exact (congrArg (fun reply => { reply.scope with leaving := none }) whole).trans global

/-- Four forms of which the third returns: the fact is learnt, and the last form is not reached. -/
theorem returned_form_ends_program :
    let session := Session.new default
    let forms : List Term := [.list [.keyword ".declare", .list [.str "p", .str "a"]],
      .list [.keyword ".print", .str "x"], .list [.keyword ".return", .str "y"],
      .list [.keyword ".print", .str "z"]]
    session.AtRest ∧ ((session.limited 2).evalEach forms).YieldsData ∧
      ((session.limited 3).eval (.list forms)).outcome = .ok (.str "y") ∧
      ((session.limited 3).eval (.list forms)).journal.printed = "x \n" ∧
      ((session.limited 3).eval (.list forms)).session.global =
        ⟨[.list [.str "p", .str "a"]], [], [], none⟩ := by
  intro session forms
  have atRest : session.AtRest := rfl
  have data : ((session.limited 2).evalEach forms).YieldsData := by
    refine ⟨?_, ?_⟩
    · intro first isFirst
      cases isFirst
      rfl
    · intro rule member
      cases member
  obtain ⟨alike, printed, global⟩ := eval_list_like_each.2 session 2 forms atRest (.inr data)
  have value : ((session.limited 2).evalEach forms).outcome = .ok (.str "y") := rfl
  rw [value] at alike
  generalize isOutcome : ((session.limited 3).eval (.list forms)).outcome = outcome at alike ⊢
  cases alike
  exact ⟨atRest, data, rfl, printed, global⟩

end Session

end TermLang
