import TermLang.Console.Completion
import TermLang.Console.Flag
import TermLang.Console.Prompt

/-!
# The command line

Four commands: run a program, open the prompt, print a program in its canonical layout, show
the version. Without a command the prompt is opened. A command is a function of its arguments
and of the surroundings, files included; what it does to them is part of its result.
-/

namespace TermLang.Console

/-- What the command line runs in. -/
structure Surroundings where
  /-- The files there are. -/
  files : FileTree
  /-- The working directory. -/
  directory : String
  /-- The directory of the user. -/
  home : String
  /-- Where loads look for files, a list divided by colons. -/
  searchPath : String
  /-- The bytes of the standard input. -/
  input : List UInt8
  deriving Inhabited, Repr

/-- What a command does. -/
structure Result where
  /-- The exit code. -/
  exit : Nat
  /-- What was written to the standard output. -/
  output : String
  /-- What was written to the standard error output. -/
  errors : String
  /-- A file to be written at the end: its path and its bytes. -/
  saved : Option (String × List UInt8)
  /-- The paths whose files the command has asked for. -/
  sought : List String
  deriving Inhabited, Repr

/-- A result that only shows texts. -/
def Result.show (exit : Nat) (output errors : String) : Result :=
  ⟨exit, output, errors, none, []⟩

/-- The name that the program goes by. -/
def programName : String := "lex"

/-- The variable with the directories that loads look into. -/
def searchVariable : String := "LEXPATH"

/-- How the program is used. -/
def usage : String :=
  "lex " ++ version ++ "\n\nUsage:\n" ++
  "  lex run [-trace] <file.lex>              Run a program.\n" ++
  "  lex repl [-trace] [-history path]        Start the REPL (default).\n" ++
  "  lex fmt <file.lex>                       Print a program in canonical layout.\n" ++
  "  lex version                              Print the version\n" ++
  "\nEnvironment:\n  " ++ searchVariable ++ "    extra directories searched by .load\n\n"

/-- The flag for a trace on the error output. -/
def traceFlag : Flag :=
  ⟨"trace", .switch, "log every reduction to stderr"⟩

/-- The flag for the file of the history. -/
def historyFlag : Flag :=
  ⟨"history", .text, "history file (default ~/.lex_history)"⟩

/-- The file of the history in the user's directory. -/
def historyName : String := ".lex_history"

/-- The setting of a session that a command opens. -/
def setting (around : Surroundings) (tracing colours : Bool) : Setting where
  maxDepth := defaultMaxDepth
  tracing := tracing
  colours := colours
  outputFails := false
  files := around.files
  directory := some around.directory
  roots := Path.splitList around.searchPath

/-- Reads the flags of a command and goes on with its arguments. -/
def withFlags (command : String) (flags : List Flag) (arguments : List String)
    (run : Arguments → Result) : Result :=
  match Flag.parse flags [] arguments with
  | .error refusal => .show 2 "" (Flag.refusalText command flags refusal)
  | .ok parsed => run parsed

/-- Reads the file that a command was given and goes on with its bytes. -/
def withFile (around : Surroundings) (hint : String) (arguments : Arguments)
    (run : String → List UInt8 → Result) : Result :=
  match arguments.rest with
  | [] => .show 2 "" ("usage: " ++ programName ++ " " ++ hint ++ "\n")
  | file :: _ =>
    match around.files.read around.directory file with
    | .error report =>
      { Result.show 1 "" (programName ++ ": cannot read " ++ file ++ ": " ++ report ++ "\n") with
        sought := [file] }
    | .ok content =>
      let result := run file content
      { result with sought := file :: result.sought }

/-- The report of a program that failed. A parse error is shown over the file that was given if
its message ends in the path of that file. -/
def failureText (around : Surroundings) (file : String) (source : List Char) (fault : Fault) :
    String :=
  match fault with
  | .caused .loadFailed message cause =>
    let path := Path.absolute around.directory file
    if cause.parseError?.isSome && path.toList.isSuffixOf message.toList then
      cause.reportOver file source
    else fault.report
  | _ => fault.report

/-- Runs a program. -/
def runFile (around : Surroundings) (arguments : List String) : Result :=
  withFlags "run" [traceFlag] arguments fun parsed =>
    withFile around "run [-trace] <file.lex>" parsed fun file content =>
      let session := Session.new (setting around (parsed.isOn traceFlag.name) false)
      let call := session.loadFile file
      let traced := Prompt.traceText call.journal
      match call.outcome with
      | .ok _ => ⟨0, call.journal.printed, traced, none, call.journal.sought⟩
      | .error fault =>
        let report := failureText around file (Text.decode content).chars fault
        ⟨1, call.journal.printed, traced ++ report ++ "\n", none, call.journal.sought⟩

/-- Prints a program in canonical layout. -/
def formatFile (around : Surroundings) (arguments : List String) : Result :=
  withFlags "fmt" [] arguments fun parsed =>
    withFile around "fmt <file.lex>" parsed fun file content =>
      let source := (Text.decode content).chars
      match readProgram source with
      | .error error => .show 1 "" ((Fault.parse error).reportOver file source ++ "\n")
      | .ok program => .show 0 program.formatted ""

/-- The file of the history. -/
def historyPath (around : Surroundings) (arguments : Arguments) : String :=
  match arguments.value? historyFlag.name with
  | none | some "" => Path.join around.home historyName
  | some path => path

/-- The history in a file; none if there is no such file. -/
def readHistory (around : Surroundings) (path : String) : History :=
  match around.files.read around.directory path with
  | .ok content => .ofBytes content
  | .error _ => []

/-- The prompt that the arguments of its command ask for. -/
def openPrompt (around : Surroundings) (arguments : Arguments) : Prompt :=
  .start (setting around (arguments.isOn traceFlag.name) true)
    (readHistory around (historyPath around arguments))

/-- The flags of the command that opens the prompt. -/
def promptFlags : List Flag :=
  [historyFlag, traceFlag]

/-- Opens the prompt over the standard input. -/
def runPrompt (around : Surroundings) (arguments : List String) : Result :=
  withFlags "repl" promptFlags arguments fun parsed =>
    let path := historyPath around parsed
    let lines := (Line.all around.input).map fun line => Text.decode line.content
    let prompt := (openPrompt around parsed).converse lines
    ⟨0, prompt.output, prompt.errors, some (path, prompt.history.toBytes), path :: prompt.sought⟩

/-- What a command line that opens the prompt says about it; none if it does anything else. -/
def promptArguments? (arguments : List String) : Option Arguments :=
  let flags := match arguments with
    | [] => some []
    | "repl" :: rest => some rest
    | _ => none
  match flags.map (Flag.parse promptFlags []) with
  | some (.ok parsed) => some parsed
  | _ => none

/-- Runs the command line. -/
def run (around : Surroundings) (arguments : List String) : Result :=
  match arguments with
  | [] => runPrompt around []
  | command :: rest =>
    match command with
    | "run" => runFile around rest
    | "repl" => runPrompt around rest
    | "fmt" => formatFile around rest
    | "version" => .show 0 (version ++ "\n") ""
    | "-h" | "--help" | "help" => .show 0 usage ""
    | other =>
      .show 2 usage (programName ++ ": unknown command " ++ Text.quoted other ++ "\n")

end TermLang.Console
