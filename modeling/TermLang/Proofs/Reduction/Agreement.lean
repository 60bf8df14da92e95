import TermLang.Proofs.Reduction.Run

/-!
# Two levels side by side

One level of a reduction is looked at twice, with another evaluator below it or another journal.
`frameSeen` lists all questions that the level asks. If the two evaluators agree on these questions,
the two levels end alike: with the same outcome, up to the depth limit that a fault names, in the
same scope, and with journals that are still related as they were.

Which relation of journals that is, is left open; it has to be kept by everything that both levels
do, and related journals have to load the same files. Two cases are used. Journals that are equal
give that a level depends on nothing but the replies to its questions. Journals that have printed
the same text from two given points on give that nothing else in a journal makes a difference.

The functions of the reduction are gone through once for all such relations. Nothing is said of
evaluators that disagree on a question.
-/

namespace TermLang

open Reduction

/-! ## Outcomes that are alike -/

/-- Two faults are the same, up to the depth limit that they name. -/
inductive Fault.Alike (one other : Setting) : Fault → Fault → Prop where
  | same (fault : Fault) : Alike one other fault fault
  | tooDeep : Alike one other (tooDeep one) (tooDeep other)

/-- Two outcomes are the same, up to the depth limit that a fault names. -/
inductive Alike (one other : Setting) {α : Type} : Except Fault α → Except Fault α → Prop where
  | ok (value : α) : Alike one other (.ok value) (.ok value)
  | error {fault fault' : Fault} (alike : fault.Alike one other fault') :
      Alike one other (.error fault) (.error fault')

/-- What became of the items of two lists is the same, up to the depth limit that a fault names. -/
inductive Reduction.Items.Alike (one other : Setting) : Items → Items → Prop where
  | same (items : Items) : Alike one other items items
  | failed {fault fault' : Fault} (alike : fault.Alike one other fault') :
      Alike one other (.failed fault) (.failed fault')

/-- Every outcome is like itself, whichever two limits are compared. -/
theorem Alike.refl (one other : Setting) {α : Type} (outcome : Except Fault α) :
    Alike one other outcome outcome := by
  cases outcome with
  | ok value => exact .ok value
  | error fault => exact .error (.same fault)

/-- Outcomes that name the same limit are the same, so comparing a setting with itself gives
equality. -/
theorem Alike.eq {setting : Setting} {α : Type} {outcome outcome' : Except Fault α}
    (alike : Alike setting setting outcome outcome') : outcome = outcome' := by
  cases alike with
  | ok value => rfl
  | error faults =>
    cases faults with
    | same fault => rfl
    | tooDeep => rfl

/-! ## Journals that are related -/

/-- A relation of journals that two levels keep as long as they do the same, and by which they load
the same files. -/
structure Companion (setting : Setting) (similar : Journal → Journal → Prop) : Prop where
  loading : ∀ {journal journal'}, similar journal journal' → journal.loading = journal'.loading
  note : ∀ {journal journal'} event, similar journal journal' →
    similar (journal.note setting event) (journal'.note setting event)
  seek : ∀ {journal journal'} paths, similar journal journal' →
    similar (journal.seek paths) (journal'.seek paths)
  print : ∀ {journal journal'} line, similar journal journal' →
    similar (journal.print line) (journal'.print line)
  record : ∀ {journal journal'} act, similar journal journal' →
    similar (journal.record act) (journal'.record act)
  enter : ∀ {journal journal'} path, similar journal journal' →
    similar (journal.enter path) (journal'.enter path)
  exit : ∀ {journal journal'}, similar journal journal' → similar journal.exit journal'.exit

/-- Equal journals stay equal, whatever both levels do with them. -/
theorem companion_eq (setting : Setting) : Companion setting Eq where
  loading same := congrArg _ same
  note _ same := by rw [same]
  seek _ same := by rw [same]
  print _ same := by rw [same]
  record _ same := by rw [same]
  enter _ same := by rw [same]
  exit same := by rw [same]

/-- Two journals load the same files and have printed the same text, each after one of its own. -/
structure Journal.Alongside (first first' : String) (journal journal' : Journal) : Prop where
  loading : journal.loading = journal'.loading
  printed : ∃ text, journal.printed = first ++ text ∧ journal'.printed = first' ++ text

/-- Events make no difference, not even different ones. The depth that an event names may differ
between the two levels, and one of them may keep no trace at all. -/
theorem Journal.Alongside.noted {first first' : String} {journal journal' : Journal}
    (alongside : Journal.Alongside first first' journal journal') (setting setting' : Setting)
    (event event' : Event) :
    Journal.Alongside first first' (journal.note setting event)
      (journal'.note setting' event') where
  loading := by rw [Journal.note_loading, Journal.note_loading, alongside.loading]
  printed := by
    rw [Journal.note_printed, Journal.note_printed]
    exact alongside.printed

/-- Journals that have printed the same so far go on to do so. Acts, events and sought paths may
differ between them, since nothing that is kept looks there. -/
theorem companion_alongside (setting : Setting) (first first' : String) :
    Companion setting (Journal.Alongside first first') where
  loading alongside := alongside.loading
  note event alongside := alongside.noted setting setting event event
  seek _ alongside := ⟨alongside.loading, alongside.printed⟩
  print line alongside := by
    obtain ⟨text, printed, printed'⟩ := alongside.printed
    refine ⟨alongside.loading, text ++ (line ++ "\n"), ?_, ?_⟩
    · simp only [Journal.print, printed, String.append_assoc]
    · simp only [Journal.print, printed', String.append_assoc]
  record _ alongside := ⟨alongside.loading, alongside.printed⟩
  enter path alongside := ⟨congrArg (path :: ·) alongside.loading, alongside.printed⟩
  exit alongside := ⟨congrArg List.tail alongside.loading, alongside.printed⟩

/-! ## Questions -/

/-- Two replies end alike, in the same scope and with related journals. -/
structure Matches {σ : Type} (one other : Setting) (similar : Journal → Journal → Prop)
    (reply reply' : Reply σ) : Prop where
  outcome : Alike one other reply.outcome reply'.outcome
  scope : reply.scope = reply'.scope
  journal : similar reply.journal reply'.journal

namespace Matches

variable {σ : Type} {one other : Setting} {similar : Journal → Journal → Prop}

/-- Two replies that change neither the scope nor the journals, and have one outcome. Most forms
reply in this way, whatever the evaluator below is. -/
theorem idle {journal journal' : Journal} (related : similar journal journal')
    (outcome : Except Fault Term) (scope : σ) :
    Matches one other similar ⟨outcome, scope, journal⟩ ⟨outcome, scope, journal'⟩ :=
  ⟨.refl one other outcome, rfl, related⟩

/-- Replies that match with equal journals, and with the limit that a fault names, are equal. -/
theorem eq {setting : Setting} {reply reply' : Reply σ}
    (replies : Matches setting setting Eq reply reply') : reply = reply' := by
  obtain ⟨outcome, scope, journal⟩ := reply
  obtain ⟨outcome', scope', journal'⟩ := reply'
  obtain ⟨alike, rfl, rfl⟩ := replies
  have same : outcome = outcome' := alike.eq
  rw [same]

end Matches

namespace Reduction

/-- A call of the evaluator below. -/
structure Question where
  /-- The term to be reduced. -/
  term : Term
  /-- The scope to reduce it in. -/
  scope : Scope
  /-- The journal so far. -/
  journal : Journal

/-- The reply of an evaluator to a question. -/
def Question.ask (below : Evaluator) (question : Question) : Reply Scope :=
  below question.term question.scope question.journal

/-- The watch that lists the calls themselves. -/
def questions : Watch Question where
  call term scope journal := [⟨term, scope, journal⟩]
  aside term scope journal := [⟨term, scope, journal⟩]
  program _ program scope journal := [⟨program, scope, journal⟩]
  apply _ := []

/-- Two evaluators agree on some questions: their replies match, also if the second evaluator is
asked with any related journal. -/
def Agree (one other : Setting) (similar : Journal → Journal → Prop) (below below' : Evaluator)
    (asked : List Question) : Prop :=
  ∀ question ∈ asked, ∀ journal', similar question.journal journal' →
    Matches one other similar (question.ask below) (below' question.term question.scope journal')

variable {one other : Setting} {similar : Journal → Journal → Prop} {below below' : Evaluator}

/-- Evaluators agree on two lists of questions if they agree on each of them. The questions of a
function are those of its parts in a row, so agreement is passed on to the parts. -/
theorem agree_append {asked others : List Question} :
    Agree one other similar below below' (asked ++ others) ↔
      Agree one other similar below below' asked ∧ Agree one other similar below below' others :=
  List.forall_mem_append

/-- Evaluators agree on one question if their replies to it match, for each related journal with
which the second is asked. -/
theorem Agree.single {question : Question} (agree : Agree one other similar below below' [question])
    {journal' : Journal} (related : similar question.journal journal') :
    Matches one other similar (question.ask below)
      (below' question.term question.scope journal') :=
  agree question List.mem_cons_self journal' related

/-! ## The functions of a level -/

/-- Items come to the same: they ask one question each.

Proof: by induction on the items. If a value is on its way out neither asks, and after matching
replies both fail, or both go on in the same scope with related journals. -/
theorem reduceItems_alike (items done : List Term) {scope : Scope} {journal journal' : Journal}
    (related : similar journal journal')
    (agree : Agree one other similar below below' (itemsSeen below questions items scope journal)) :
    (reduceItems below items done scope journal).1.Alike one other
        (reduceItems below' items done scope journal').1 ∧
      (reduceItems below items done scope journal).2.1 =
        (reduceItems below' items done scope journal').2.1 ∧
      similar (reduceItems below items done scope journal).2.2
        (reduceItems below' items done scope journal').2.2 := by
  induction items generalizing done scope journal journal' with
  | nil => exact ⟨.same _, rfl, related⟩
  | cons item rest inductionHypothesis =>
    simp only [itemsSeen] at agree
    simp only [reduceItems]
    cases leaving : scope.leaving with
    | some value => exact ⟨.same _, rfl, related⟩
    | none =>
      rw [leaving] at agree
      obtain ⟨here, later⟩ := agree_append.mp agree
      have replies := here.single related
      simp only [Question.ask] at replies
      generalize below item scope journal = reply at replies later ⊢
      generalize below' item scope journal' = reply' at replies ⊢
      obtain ⟨outcome, scope', journal''⟩ := reply
      obtain ⟨outcome', _, journal'''⟩ := reply'
      obtain ⟨alike, rfl, related'⟩ := replies
      cases alike with
      | error faults => exact ⟨.failed faults, rfl, related'⟩
      | ok value => exact inductionHypothesis (value :: done) related' later

variable {setting : Setting}

/-- Both use a rule or neither does, since they look at the same rules. If they do, the result of
the rule is the one question. -/
theorem useRule?_alike (companion : Companion setting similar) {items : List Term} {frame : Frame}
    {journal journal' : Journal} (related : similar journal journal')
    (agree : Agree one other similar below below'
      (ruleSeen setting questions items frame journal)) :
    (useRule? setting below items frame journal = none ∧
      useRule? setting below' items frame journal' = none) ∨
    ∃ used used', useRule? setting below items frame journal = some used ∧
      useRule? setting below' items frame journal' = some used' ∧
      Matches one other similar used used' := by
  simp only [ruleSeen] at agree
  cases found : Rule.firstResult? frame.outer.rules (.list items) with
  | none => exact .inl ⟨by simp [useRule?, found], by simp [useRule?, found]⟩
  | some result =>
    rw [found] at agree
    simp only [useRule?, found, Option.map_some]
    have replies := agree.single (companion.note (.ruleUsed (.list items) result) related)
    exact .inr ⟨_, _, rfl, rfl, replies.outcome, by rw [← replies.scope]; rfl, replies.journal⟩

/-- Preparing a query keeps journals related: the same events are noted in both, as they depend on
the frame only. -/
theorem queryJournal_similar (companion : Companion setting similar) (items : List Term)
    (frame : Frame) {journal journal' : Journal} (related : similar journal journal') :
    similar (queryJournal setting items frame journal)
      (queryJournal setting items frame journal') := by
  simp only [queryJournal]
  split
  · exact companion.note _ (companion.note _ related)
  · exact companion.note _ related

/-- A query that is put to the facts is answered alike, since the facts are the same. Where they
answer, no question is asked. -/
theorem answer_alike (companion : Companion setting similar) {items : List Term} {frame : Frame}
    {journal journal' : Journal} (related : similar journal journal')
    (agree : Agree one other similar below below'
      (answerSeen setting questions items frame journal)) :
    Matches one other similar (answer setting below items frame journal)
      (answer setting below' items frame journal') := by
  cases answered : (Fact.answers items (frame.outer.facts ++ frame.inner.facts)).isEmpty with
  | true =>
    rw [answerSeen, if_pos answered] at agree
    rw [answer_of_none setting answered, answer_of_none setting answered]
    have replies := agree.single (queryJournal_similar companion items frame related)
    simp only [Question.ask] at replies
    exact ⟨replies.outcome, by simp only [replies.scope], replies.journal⟩
  | false =>
    simp only [answer, answered, Bool.false_eq_true, if_false]
    exact .idle (companion.note _ related) _ frame

mutual

/-- Queries are answered alike. The nested lists come first, and if they end without a fault, the
same values are put to the same facts. -/
theorem query_alike (companion : Companion setting similar) (term : Term) {frame : Frame}
    {journal journal' : Journal} (related : similar journal journal')
    (agree : Agree one other similar below below'
      (querySeen setting below questions term frame journal)) :
    Matches one other similar (query setting below term frame journal)
      (query setting below' term frame journal') := by
  cases term with
  | list items =>
    obtain ⟨nested, here⟩ := agree_append.mp agree
    obtain ⟨alike, sameFrame, related'⟩ := queryItems_alike companion items related nested
    simp only [query]
    generalize queryItems setting below items frame journal = result at *
    generalize queryItems setting below' items frame journal' = result' at *
    obtain ⟨outcome, frame', journal''⟩ := result
    obtain ⟨outcome', _, journal'''⟩ := result'
    obtain rfl : frame' = _ := sameFrame
    cases alike with
    | error faults => exact ⟨.error faults, rfl, related'⟩
    | ok values => exact answer_alike companion related' here
  | _ => exact .idle related _ frame

/-- So are their nested lists, one after the other. The frames stay the same on both sides, so the
questions of the rest are asked in the same scopes. -/
theorem queryItems_alike (companion : Companion setting similar) (items : List Term) {frame : Frame}
    {journal journal' : Journal} (related : similar journal journal')
    (agree : Agree one other similar below below'
      (queryItemsSeen setting below questions items frame journal)) :
    Alike one other (queryItems setting below items frame journal).1
        (queryItems setting below' items frame journal').1 ∧
      (queryItems setting below items frame journal).2.1 =
        (queryItems setting below' items frame journal').2.1 ∧
      similar (queryItems setting below items frame journal).2.2
        (queryItems setting below' items frame journal').2.2 := by
  cases items with
  | nil => exact ⟨.ok [], rfl, related⟩
  | cons item rest =>
    obtain ⟨first, others⟩ := agree_append.mp agree
    have replies := query_alike companion item related first
    simp only [queryItems]
    generalize query setting below item frame journal = reply at replies others ⊢
    generalize query setting below' item frame journal' = reply' at replies ⊢
    obtain ⟨outcome, frame', journal''⟩ := reply
    obtain ⟨outcome', _, journal'''⟩ := reply'
    obtain ⟨alike, rfl, related'⟩ := replies
    cases alike with
    | error faults => exact ⟨.error faults, rfl, related'⟩
    | ok value =>
      obtain ⟨alikes, sameFrame, related''⟩ := queryItems_alike companion rest related' others
      dsimp only
      generalize queryItems setting below rest frame' journal'' = result at *
      generalize queryItems setting below' rest frame' journal''' = result' at *
      obtain ⟨outcomes, frame'', last⟩ := result
      obtain ⟨outcomes', _, last'⟩ := result'
      obtain rfl : frame'' = _ := sameFrame
      cases alikes with
      | error faults => exact ⟨.error faults, rfl, related''⟩
      | ok values => exact ⟨.ok (value :: values), rfl, related''⟩

end

/-- Opening a program looks at nothing of the journal but the files that are being loaded, and
related journals load the same. -/
theorem openProgram_congr {journal journal' : Journal}
    (loading : journal.loading = journal'.loading) (path : String) (source : List Char) :
    openProgram path source journal = openProgram path source journal' := by
  simp only [openProgram, loading]

/-- Loads look for the same files and find the same programs, since the same files are being loaded.

Proof: along the ways in which a load can end early, which depend on the setting and on the files
that are being loaded only. If the program is opened, it is the one question, asked with journals
that both have the file on their lists. -/
theorem load_alike (companion : Companion setting similar) {spec : String} {frame : Frame}
    {journal journal' : Journal} (related : similar journal journal')
    (agree : Agree one other similar below below'
      (loadSeen setting questions spec frame journal)) :
    Matches one other similar (load setting below spec frame journal)
      (load setting below' spec frame journal') := by
  have sought := companion.seek (candidates setting journal.loading spec) related
  simp only [loadSeen] at agree
  simp only [load, ← companion.loading related]
  generalize journal.seek (candidates setting journal.loading spec) = left at sought agree ⊢
  generalize journal'.seek (candidates setting journal.loading spec) = right at sought ⊢
  rw [← companion.loading sought]
  cases resolved : resolve setting left.loading spec with
  | none => exact .idle (companion.note _ sought) _ frame
  | some path =>
    rw [resolved] at agree
    dsimp only at agree ⊢
    cases isContent : setting.read path with
    | error _ => exact .idle sought _ frame
    | ok content =>
      rw [isContent] at agree
      dsimp only at agree ⊢
      rw [← openProgram_congr (companion.loading sought)]
      cases opened : openProgram path (Text.decode content).chars left with
      | error fault => exact .idle sought _ frame
      | ok program =>
        rw [opened] at agree
        have replies := agree.single (companion.enter path (companion.record (.loaded path)
          (companion.note (.load path program.items.length) sought)))
        simp only [Question.ask] at replies
        simp only [runProgram]
        exact ⟨replies.outcome, by rw [replies.scope], companion.exit replies.journal⟩

/-- Forms with one operand are applied alike. Only loads and queries ask questions; all others do
the same to scopes that are the same. -/
theorem applyUnary_alike (companion : Companion setting similar) (form : Form) (x : Term)
    {frame : Frame} {journal journal' : Journal} (related : similar journal journal')
    (agree : Agree one other similar below below'
      (shapeSeen setting below questions (.unaryForm form x) frame journal)) :
    Matches one other similar (applyUnary setting below form x frame journal)
      (applyUnary setting below' form x frame journal') := by
  have declared : Matches one other similar (declare setting x frame journal)
      (declare setting x frame journal') :=
    .idle (companion.record _ (companion.note _ related)) _ _
  cases form with
  | print =>
    simp only [applyUnary]
    split
    · exact .idle related _ frame
    · exact .idle (companion.print _ related) _ frame
  | leave => exact .idle (companion.record _ related) _ _
  | load =>
    cases x with
    | str spec => exact load_alike companion related agree
    | _ => exact .idle related _ frame
  | declare => exact declared
  | declareShort => exact declared
  | ask => exact query_alike companion x related agree
  | _ => exact .idle related _ frame

/-- Forms with two operands are applied alike. They ask no questions, so nothing is needed of the
evaluators. -/
theorem applyBinary_alike (companion : Companion setting similar) (form : Form) (a b : Term)
    (frame : Frame) {journal journal' : Journal} (related : similar journal journal') :
    Matches one other similar (applyBinary setting form a b frame journal)
      (applyBinary setting form a b frame journal') := by
  unfold applyBinary
  split
  · exact .idle related _ frame
  · exact .idle related _ frame
  · exact .idle related _ frame
  · exact .idle (companion.record _ (companion.note _ related)) _ _
  · exact .idle (companion.record _ related) _ _
  · exact .idle related _ frame

/-- Lists are applied alike by their shapes. Operators compute from their operands alone, and data
and unknown forms have no answer on either side. -/
theorem applyShape_alike (companion : Companion setting similar) (shape : Shape) {frame : Frame}
    {journal journal' : Journal} (related : similar journal journal')
    (agree : Agree one other similar below below'
      (shapeSeen setting below questions shape frame journal)) :
    Matches one other similar (applyShape setting below shape frame journal)
      (applyShape setting below' shape frame journal') := by
  cases shape with
  | unaryForm form x => exact applyUnary_alike companion form x related agree
  | binaryForm form x y => exact applyBinary_alike companion form x y frame related
  | _ => exact .idle related _ frame

/-- Lists are applied alike, also where it takes a rule: one is tried by both or by neither, because
both built-ins have an answer or neither has. -/
theorem dispatch_alike (companion : Companion setting similar) {items : List Term} {frame : Frame}
    {journal journal' : Journal} (related : similar journal journal')
    (agree : Agree one other similar below below'
      (dispatchSeen setting below questions items frame journal)) :
    Matches one other similar (dispatch setting below items frame journal)
      (dispatch setting below' items frame journal') := by
  obtain ⟨applied, rules⟩ := agree_append.mp agree
  have replies := applyShape_alike companion (Shape.of items) related (agree_append.mp applied).2
  simp only [dispatch]
  generalize applyShape setting below (Shape.of items) frame journal = reply at replies rules ⊢
  generalize applyShape setting below' (Shape.of items) frame journal' = reply' at replies ⊢
  obtain ⟨outcome, frame', journal''⟩ := reply
  obtain ⟨outcome', _, journal'''⟩ := reply'
  obtain ⟨alike, rfl, related'⟩ := replies
  cases alike with
  | error faults => exact ⟨.error faults, rfl, related'⟩
  | ok value =>
    cases value with
    | unknown =>
      rcases useRule?_alike companion related' rules with
        ⟨none, none'⟩ | ⟨used, used', isUsed, isUsed', matching⟩
      · simp only [none, none']
        exact .idle related' _ frame'
      · simp only [isUsed, isUsed']
        exact matching
    | _ => exact .idle related' _ frame'

/-- The value of a return takes the place of both results, and of no fault, so outcomes that are
alike stay alike. -/
theorem overriding_alike {outcome outcome' : Except Fault Term}
    (alike : Alike one other outcome outcome') (scope : Scope) :
    Alike one other (overriding scope outcome) (overriding scope outcome') := by
  cases alike with
  | error faults => exact .error faults
  | ok value =>
    simp only [overriding]
    cases scope.leaving with
    | some leaving => exact .ok leaving
    | none => exact .ok value

/-- Two levels end alike if the evaluators below them agree on all that the first level asks.

Proof: the items come to the same, so both levels fail, stop or apply the same list, and applying it
ends alike. -/
theorem reduceFrame_alike (companion : Companion setting similar) {items : List Term}
    {outer : Scope} {journal journal' : Journal} (related : similar journal journal')
    (agree : Agree one other similar below below'
      (frameSeen setting below questions items outer journal)) :
    Matches one other similar (reduceFrame setting below items outer journal)
      (reduceFrame setting below' items outer journal') := by
  obtain ⟨first, applied⟩ := agree_append.mp agree
  obtain ⟨alike, sameScope, related'⟩ := reduceItems_alike items [] related first
  simp only [reduceFrame]
  generalize reduceItems below items [] outer journal = reduced at *
  generalize reduceItems below' items [] outer journal' = reduced' at *
  obtain ⟨became, scope, journal''⟩ := reduced
  obtain ⟨became', _, journal'''⟩ := reduced'
  obtain rfl : scope = _ := sameScope
  cases alike with
  | failed faults => exact ⟨.error faults, rfl, related'⟩
  | same =>
    cases became with
    | failed fault => exact ⟨.error (.same fault), rfl, related'⟩
    | stopped value => exact ⟨.ok value, rfl, related'⟩
    | reduced values =>
      obtain ⟨outcomes, frames, further⟩ := dispatch_alike companion related' applied
      refine ⟨?_, congrArg Frame.outer frames, further⟩
      dsimp only
      rw [frames]
      exact overriding_alike outcomes _

/-- A level depends on nothing but the replies to its questions: with another evaluator that gives
the same replies to them, it gives the same reply. -/
theorem reduceFrame_of_questions {items : List Term} {outer : Scope} {journal : Journal}
    (same : ∀ question ∈ frameSeen setting below questions items outer journal,
      question.ask below' = question.ask below) :
    reduceFrame setting below' items outer journal =
      reduceFrame setting below items outer journal := by
  have agree : Agree setting setting Eq below below'
      (frameSeen setting below questions items outer journal) := by
    rintro question member _ rfl
    have reply := same question member
    exact ⟨reply ▸ .refl _ _ _, by rw [← reply]; rfl, by rw [← reply]; rfl⟩
  exact (reduceFrame_alike (companion_eq setting) rfl agree).eq.symm

end Reduction

/-! ## Faults go through -/

section

variable {setting : Setting} {below : Evaluator} {seen : List Question} {failed : Option Fault}
  {journal journal' : Journal} {question : Question} {fault : Fault}

/-- A query fails as soon as a question does, since it goes on only after steps without a fault. The
fault is that of the question. -/
theorem Asking.failed_of_asked {frame frame' : Frame}
    (asking : Asking below questions frame journal seen failed frame' journal')
    (asked : question ∈ seen) (fails : (question.ask below).outcome = .error fault) :
    failed = some fault := by
  induction asking with
  | noted => cases asked
  | aside term frame journal =>
    rw [List.mem_singleton.mp asked] at fails
    exact congrArg failure fails
  | trans first second before after =>
    rcases List.mem_append.mp asked with early | late
    · cases before early
    · exact after late

/-- So does a level. Together with the faults that a level raises by itself this accounts for every
fault of a reduction. -/
theorem Course.failed_of_asked {scope scope' : Scope}
    (course : Course setting below questions scope journal seen failed scope' journal')
    (asked : question ∈ seen) (fails : (question.ask below).outcome = .error fault) :
    failed = some fault := by
  induction course with
  | call term scope journal =>
    rw [List.mem_singleton.mp asked] at fails
    exact congrArg failure fails
  | load program scope journal found isContent =>
    rw [List.mem_singleton.mp asked] at fails
    exact congrArg failure fails
  | ask calm asking => exact asking.failed_of_asked asked fails
  | trans first second before after =>
    rcases List.mem_append.mp asked with early | late
    · cases before early
    · exact after late
  | _ => cases asked

end

end TermLang
