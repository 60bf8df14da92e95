import TermLang.Console.Command
import TermLang.Console.History

/-!
# The prompt

The prompt reads lines until they make up a whole input: a command, or a source that does not
end inside a bracket. It then runs the input and shows the result. Results are shown in a
bright blue on the output, faults in red on the error output.
-/

namespace TermLang.Console

/-- What is shown before the first prompt. -/
def banner : String :=
  "lex " ++ version ++ " REPL\nCtrl+C cancels input, Ctrl+D exits. Type :help for commands.\n"

/-- The state of a prompt. -/
structure Prompt where
  /-- The session that inputs are run in. -/
  session : Session
  /-- The lines of an input that is not whole yet. -/
  pending : Text
  /-- What was entered so far. -/
  history : History
  /-- What was shown on the output so far. -/
  output : String
  /-- What was shown on the error output so far. -/
  errors : String
  /-- The paths that loads have asked for. -/
  sought : List String
  /-- Whether the prompt has ended. -/
  ended : Bool
  deriving Inhabited, Repr

namespace Prompt

/-- A prompt over a new session. -/
def start (setting : Setting) (history : History) : Prompt :=
  ⟨.new setting, [], history, banner, "", [], false⟩

/-- What is shown when a line is asked for: a different text while an input goes on. -/
def question (prompt : Prompt) : String :=
  if prompt.pending.isEmpty then "(lex) λ " else "...  "

/-- A text between the control sequences for a colour and for none. -/
def inColour (code text : String) : String :=
  "\x1b[" ++ code ++ "m" ++ text ++ "\x1b[0m"

/-- Whether an input is a command. -/
def isCommand (input : Text) : Bool :=
  (Text.trimBlank input.chars).head? = some ':'

/-- Whether an input ends inside a bracket, so that lines are missing. -/
def isIncomplete (input : Text) : Bool :=
  match readList input.chars with
  | .ok _ => false
  | .error error => (Fault.parse error).isIncomplete

/-- Adds a line to the lines of an input. -/
def joinLine (pending line : Text) : Text :=
  if pending.isEmpty then line else pending ++ .scalar '\n' :: line

/-- Runs a command. -/
def runCommand (prompt : Prompt) (line : List Char) : Prompt :=
  let command := Command.ofLine (String.ofList (line.map Text.lowerAscii))
  { prompt with
    session := command.after prompt.session
    output := prompt.output ++ command.shown prompt.session
    ended := command = .quit }

/-- The trace lines of a journal. -/
def traceText (journal : Journal) : String :=
  String.join (journal.trace.reverse.map fun event => event.line ++ "\n")

/-- Runs a source and shows its result. -/
def runSource (prompt : Prompt) (input : Text) : Prompt :=
  let call := prompt.session.evalSource input.chars
  let entry := input.map fun glyph => if glyph = .scalar '\n' then .scalar ' ' else glyph
  let traced := prompt.errors ++ traceText call.journal
  let printed := prompt.output ++ call.journal.printed
  let (output, errors) := match call.outcome with
    | .ok term => (printed ++ inColour "94" term.compact ++ "\n", traced)
    | .error fault =>
      (printed, traced ++ inColour "31" (fault.reportOver "" input.chars) ++ "\n")
  { prompt with
    session := call.session
    history := prompt.history.append entry
    sought := call.journal.sought ++ prompt.sought
    output
    errors }

/-- Runs a whole input. Blank inputs do nothing. -/
def run (prompt : Prompt) (input : Text) : Prompt :=
  let trimmed := Text.trimBlank input.chars
  if isCommand input then prompt.runCommand trimmed
  else if trimmed.isEmpty then prompt
  else prompt.runSource input

/-- Asks for a line. -/
def ask (prompt : Prompt) : Prompt :=
  { prompt with output := prompt.output ++ prompt.question }

/-- Takes a line: runs the input that it completes, or waits for more. -/
def feed (prompt : Prompt) (line : Text) : Prompt :=
  let input := joinLine prompt.pending line
  if !isCommand input && isIncomplete input then { prompt with pending := input }
  else { prompt with pending := [] }.run input

/-- Ends the prompt at the end of the lines. An input that is not whole is dropped. -/
def close (prompt : Prompt) : Prompt :=
  { prompt with output := prompt.output ++ "\n", ended := true }

/-- Asks for and takes lines until the prompt or the lines end. -/
def converse (prompt : Prompt) : List Text → Prompt
  | [] => prompt.ask.close
  | line :: rest =>
    let next := prompt.ask.feed line
    if next.ended then next else next.converse rest

end Prompt

end TermLang.Console
