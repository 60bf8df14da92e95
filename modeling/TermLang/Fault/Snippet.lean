import TermLang.Fault
import TermLang.Number.Whole

/-!
# Snippets

A parse error is shown over its source: a header, the offending line with at most one line of
context on each side, and a caret under the offending character. Lines and columns count from
one and are moved into the source where they lie outside of it.
-/

namespace TermLang

namespace Text

/-- The lines of a source. The newline divides them, so there is always at least one. -/
def lines : List Char → List (List Char)
  | [] => [[]]
  | c :: rest =>
    if c = '\n' then [] :: lines rest
    else
      match lines rest with
      | [] => [[c]]
      | first :: others => (c :: first) :: others

/-- There is always a line, also in a source without characters. -/
theorem lines_ne_nil (source : List Char) : lines source ≠ [] := by
  cases source with
  | nil => simp [lines]
  | cons c rest =>
    simp only [lines]
    split
    · simp
    · split <;> simp

/-- A number right-aligned in a field of the given width. -/
def rightAligned (width : Nat) (value : Nat) : String :=
  let digits := toString value
  String.ofList (List.replicate (width - digits.length) ' ') ++ digits

end Text

namespace ParseError

/-- The column within its own line: the running column less the lengths of all lines before. -/
def columnInLine (source : List Char) (line column : Int) : Int :=
  let before := (Text.lines source).take (Number.wordBefore line 1).toNat
  Number.wordBefore column before.flatten.length

/-- The line and the column within it of an error of `source`. -/
def position (error : ParseError) (source : List Char) : Int × Int :=
  (error.line, columnInLine source error.line error.column)

end ParseError

/-- Where a message is shown: the line and the column after both were moved into the source. -/
structure Snippet where
  /-- The line shown, from one to the number of lines. -/
  line : Nat
  /-- The column of the caret, at least one. -/
  column : Nat
  deriving DecidableEq, Repr

namespace Snippet

/-- Moves a line and a column into the source. -/
def clamp (source : List Char) (line column : Int) : Snippet :=
  ⟨min (max line 1).toNat (Text.lines source).length, (max column 1).toNat⟩

/-- A line of source behind its number. -/
def numbered (lines : List (List Char)) (line : Nat) : String :=
  Text.rightAligned 4 line ++ " | " ++ String.ofList (lines.getD (line - 1) []) ++ "\n"

/-- The snippet of a message, headed by the name of the source if it has one. -/
def render (source : List Char) (name : String) (line column : Int) (message : String) : String :=
  let lines := Text.lines source
  let shown := clamp source line column
  let place := toString shown.line ++ ":" ++ toString shown.column
  let header :=
    if name = "" then "PARSE ERROR at " ++ place else "PARSE ERROR in " ++ name ++ " at " ++ place
  let before := if 1 < shown.line then numbered lines (shown.line - 1) else ""
  let after := if shown.line < lines.length then numbered lines (shown.line + 1) else ""
  let caret := "     | " ++ String.ofList (List.replicate (shown.column - 1) ' ') ++ "^\n"
  header ++ ": " ++ message ++ "\n\n" ++ before ++ numbered lines shown.line ++ caret ++ after

end Snippet

namespace Fault

/-- The report of a fault over a source: the snippet of its parse error, if it has one. -/
def reportOver (fault : Fault) (name : String) (source : List Char) : String :=
  match fault.parseError? with
  | none => fault.report
  | some error =>
    let (line, column) := error.position source
    Snippet.render source name line column error.message

end Fault

end TermLang
