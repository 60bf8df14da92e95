import TermLang.Server

/-!
# Batches of changes

An editor may send the changes of a document in one notification or one by one. Each change sent
alone is applied to the text that the ones before it have left. A batch is applied the same way as
long as all its changes are about ranges; as soon as one of them replaces the whole text, the first
such change alone decides. So the two ways agree exactly on the batches whose first whole
replacement is left as it is by the changes behind it, and on those that hold none.

What the server sends because of a change is not compared: changes that come one by one are answered
one by one.
-/

namespace TermLang.Server

namespace Change

/-- If a batch replaces the whole text, the changes behind the first such change amount to none. -/
def KeepsWhole : List Change → Prop
  | [] => True
  | .whole replacement :: later => later.foldl apply replacement = replacement
  | .part _ _ :: later => KeepsWhole later

/-- Whether a batch keeps its first whole replacement can be computed by applying the changes behind
it. -/
instance decidableKeepsWhole : (changes : List Change) → Decidable (KeepsWhole changes)
  | [] => .isTrue trivial
  | .whole replacement :: later =>
    inferInstanceAs (Decidable (later.foldl apply replacement = replacement))
  | .part _ _ :: later => decidableKeepsWhole later

/-- A batch without changes leaves the text. -/
@[simp]
theorem applyAll_nil (text : Text) : applyAll text [] = text := rfl

/-- A whole replacement at the front of a batch is the new text, and the changes behind it are not
looked at. -/
@[simp]
theorem applyAll_whole (text replacement : Text) (later : List Change) :
    applyAll text (.whole replacement :: later) = replacement := rfl

/-- A change of a range at the front of a batch is applied before the rest of the batch. If a whole
replacement follows, both sides are that replacement. -/
@[simp]
theorem applyAll_part (text : Text) (range : Range) (inserted : Text) (later : List Change) :
    applyAll text (.part range inserted :: later) =
      applyAll (apply text (.part range inserted)) later := by
  simp only [applyAll, List.findSome?_cons, whole?, List.foldl_cons]

/-- A batch of one change is that change. So a notification for each change applies them one by one.
-/
theorem applyAll_singleton (text : Text) (change : Change) :
    applyAll text [change] = apply text change := by
  cases change with
  | whole replacement => rfl
  | part range inserted => rw [applyAll_part, applyAll_nil]

/-- A batch is applied change by change exactly if it keeps its first whole replacement.

Proof: by induction on the batch. Changes of ranges in front are applied in both ways alike, and at
the first whole replacement the one way stops while the other goes on. -/
theorem applyAll_eq_foldl_iff (text : Text) (changes : List Change) :
    applyAll text changes = changes.foldl apply text ↔ KeepsWhole changes := by
  induction changes generalizing text with
  | nil => simp [KeepsWhole]
  | cons change later inductionHypothesis =>
    cases change with
    | whole replacement =>
      rw [applyAll_whole, List.foldl_cons]
      exact eq_comm
    | part range inserted =>
      rw [applyAll_part, List.foldl_cons]
      exact inductionHypothesis _

end Change

namespace Workspace

/-- The text of the document that is open under a name. -/
def textOf? (workspace : Workspace) (uri : String) : Option Text :=
  (workspace.find? uri).map Document.text

/-- The workspace after one notification of changes. -/
def notified (workspace : Workspace) (uri : String) (changes : List Change) : Workspace :=
  (workspace.respond none (.didChange uri changes)).1

/-- The workspace after a notification of its own for each change. -/
def notifiedEach (workspace : Workspace) (uri : String) (changes : List Change) : Workspace :=
  changes.foldl (fun workspace change => workspace.notified uri [change]) workspace

/-- A notification leaves an open document open, with the text that the batch makes of it. A batch
without changes is not even noticed, and its text is the old one as well. -/
theorem textOf?_notified {workspace : Workspace} {uri : String} {text : Text}
    (opened : workspace.textOf? uri = some text) (changes : List Change) :
    (workspace.notified uri changes).textOf? uri = some (Change.applyAll text changes) := by
  obtain ⟨document, found, rfl⟩ := Option.map_eq_some_iff.mp opened
  cases changes with
  | nil => simp [notified, respond, found, opened]
  | cons change later =>
    simp [notified, respond, found, publish, textOf?, Document.change, Document.ofText]

/-- A run of notifications: each change is applied to what the ones before it have left, since the
document stays open throughout. -/
theorem textOf?_notifiedEach {workspace : Workspace} {uri : String} {text : Text}
    (opened : workspace.textOf? uri = some text) (changes : List Change) :
    (workspace.notifiedEach uri changes).textOf? uri = some (changes.foldl Change.apply text) := by
  induction changes generalizing workspace text with
  | nil => exact opened
  | cons change later inductionHypothesis =>
    have step := textOf?_notified opened [change]
    rw [Change.applyAll_singleton] at step
    exact inductionHypothesis step

/-- One notification of a batch leaves the same text as a notification for each change exactly if
the batch keeps its first whole replacement. -/
theorem batch_eq_each_iff {workspace : Workspace} {uri : String} {text : Text}
    (opened : workspace.textOf? uri = some text) (changes : List Change) :
    (workspace.notified uri changes).textOf? uri =
        (workspace.notifiedEach uri changes).textOf? uri ↔
      Change.KeepsWhole changes := by
  rw [textOf?_notified opened, textOf?_notifiedEach opened, Option.some.injEq]
  exact Change.applyAll_eq_foldl_iff text changes

/-- Two changes of ranges, the second of them about the text that the first has left. -/
theorem batch_eq_each_of_edits :
    let workspace := empty.insert "a" (.ofText (.ofString "(b)"))
    let changes : List Change :=
      [.part ⟨⟨0, 1⟩, ⟨0, 2⟩⟩ (.ofString "c d"), .part ⟨⟨0, 4⟩, ⟨0, 3⟩⟩ (.ofString "e")]
    (workspace.notified "a" changes).textOf? "a" =
      (workspace.notifiedEach "a" changes).textOf? "a" :=
  (@batch_eq_each_iff _ _ (.ofString "(b)") rfl _).mpr (by decide)

/-- Of two whole replacements in a batch the first one counts, of two alone the second. -/
theorem first_whole_of_batch :
    ¬ ∀ (workspace : Workspace) (uri : String) (text : Text) (changes : List Change),
      workspace.textOf? uri = some text →
        (workspace.notified uri changes).textOf? uri =
          (workspace.notifiedEach uri changes).textOf? uri := by
  intro agrees
  have same := agrees (empty.insert "a" (.ofText [])) "a" []
    [.whole (.ofString "(.foo)"), .whole (.ofString "(a)")] rfl
  rw [textOf?_notified rfl, textOf?_notifiedEach rfl] at same
  exact absurd same (by decide)

end Workspace

end TermLang.Server
