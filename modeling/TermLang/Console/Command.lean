import TermLang.Dump

/-!
# Commands of the prompt

A line that starts with a colon is a command to the prompt and not a program. Each command
shows a text; one ends the prompt and one makes the session forget everything.
-/

namespace TermLang.Console

/-- What can be asked of the prompt. -/
inductive Command where
  /-- Ends the prompt. -/
  | quit
  /-- Shows the commands and the forms. -/
  | help
  /-- Shows the dump of the session. -/
  | env
  /-- Lists the facts. -/
  | facts
  /-- Forgets everything. -/
  | reset
  /-- Anything else. -/
  | unrecognised
  deriving DecidableEq, Inhabited, Repr

namespace Command

/-- The command that a line spells. -/
def ofLine (line : String) : Command :=
  match line with
  | ":quit" | ":q" => .quit
  | ":help" => .help
  | ":env" => .env
  | ":facts" => .facts
  | ":reset" => .reset
  | _ => .unrecognised

/-- A text with spaces behind it up to a width. -/
def padded (width : Nat) (text : String) : String :=
  text ++ String.ofList (List.replicate (width - text.length) ' ')

/-- What help shows about the commands. -/
def commandHelp : String :=
  "\nREPL commands:\n" ++
  "  :quit    Exit the REPL\n" ++
  "  :env     Dump the session scope (facts, rules, bindings)\n" ++
  "  :facts   List declared facts\n" ++
  "  :reset   Forget every fact, rule and binding\n" ++
  "  :help    Show this text\n"

/-- What help shows about the forms. -/
def formHelp : String :=
  "\nForms:\n" ++ String.join (Form.all.map fun form =>
    "  " ++ padded 24 form.usage ++ " " ++ form.doc ++ "\n")

/-- The facts, numbered from zero. -/
def factList (facts : List Term) : String :=
  if facts.isEmpty then "no facts declared\n"
  else
    String.join (facts.zipIdx.map fun (fact, place) =>
      Text.rightAligned 3 place ++ "  " ++ fact.compact ++ "\n")

/-- What a command shows. -/
def shown (session : Session) : Command → String
  | .quit | .reset => ""
  | .help => commandHelp ++ formHelp
  | .env => Dump.session session
  | .facts => factList session.global.facts
  | .unrecognised => "unknown command. Type :help for commands.\n"

/-- The session after a command. -/
def after (session : Session) : Command → Session
  | .reset => session.reset
  | _ => session

end Command

end TermLang.Console
