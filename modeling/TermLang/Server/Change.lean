import TermLang.Server.Position

/-!
# Changes

What an editor says it did to a text. A change replaces the whole text, or a range of it. Each
range of a batch is about the text that the changes before it have left. A whole replacement
makes every other change of its batch moot; the first one counts.
-/

namespace TermLang.Server

/-- A change of a text. -/
inductive Change where
  /-- The whole text is replaced. -/
  | whole (text : Text)
  /-- A range of the text is replaced. -/
  | part (range : Range) (text : Text)
  deriving DecidableEq, Inhabited, Repr

namespace Change

/-- Replaces the bytes between two offsets, in whichever order they come. -/
def splice (text : Text) (start stop : Nat) (inserted : Text) : Text :=
  text.upTo (min start stop) ++ inserted ++ text.past (max start stop)

/-- The text after a change. -/
def apply (text : Text) : Change → Text
  | .whole replacement => replacement
  | .part range inserted =>
    splice text (text.offsetOf range.start) (text.offsetOf range.stop) inserted

/-- The new text of a change that replaces everything. -/
def whole? : Change → Option Text
  | .whole text => some text
  | .part _ _ => none

/-- The text after a batch of changes. -/
def applyAll (text : Text) (changes : List Change) : Text :=
  match changes.findSome? whole? with
  | some replacement => replacement
  | none => changes.foldl apply text

end Change

/-- An edit that the editor is asked to make. -/
structure TextEdit where
  /-- The range to be replaced. -/
  range : Range
  /-- What comes in its place. -/
  text : String
  deriving DecidableEq, Inhabited, Repr

end TermLang.Server
