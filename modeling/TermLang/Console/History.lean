import TermLang.Console.Line

/-!
# History

The history keeps what was entered at the prompt, at most a fixed number of entries. It is read
from a file before the first prompt and written back after the last one.
-/

namespace TermLang.Console

/-- Entries, the latest last. -/
abbrev History := List Text

namespace History

/-- How many entries are kept. -/
def limit : Nat := 1000

/-- Adds an entry and lets the oldest go if there are too many. -/
def push (history : History) (entry : Text) : History :=
  (history ++ [entry]).drop (history.length + 1 - limit)

/-- Adds an entry unless it repeats the latest one. -/
def append (history : History) (entry : Text) : History :=
  if history.getLast? = some entry then history else history.push entry

/-- Adds lines of a file up to the first that does not fit into the buffer or is not
well-formed. -/
def addLines (history : History) : List Line → History
  | [] => history
  | line :: rest =>
    let entry := Text.decode line.content
    if line.isPiece || !entry.wellFormed then history
    else addLines (history.push entry) rest

/-- Reads a history from the bytes of a file. -/
def ofBytes (bytes : List UInt8) : History :=
  addLines [] (Line.all bytes)

/-- The bytes of a history, one line per entry. -/
def toBytes (history : History) : List UInt8 :=
  history.flatMap fun entry => entry.bytes ++ [Line.newline]

end History

end TermLang.Console
