import TermLang.Console
import TermLang.Server

/-!
# The program

The outer layer around the command line and the language server. It reads what they need,
calls them, and writes what they say. The program runs as the language server if it goes by the
server's name, and as the command line otherwise.

The functions that do the work take the files there are as a value. Here this value starts
empty; each run reports the paths that it asked for, those are read from the disk, and the run
is done again until it asks for nothing new.
-/

namespace TermLang.Main

/-- What stands at a path of the disk. -/
def lookUp (path : String) : IO (Option FileTree.Entry) := do
  try
    let content ← IO.FS.readBinFile path
    return some (.file content.toList)
  catch
    | .inappropriateType .. => return some .directory
    | _ => return none

/-- The paths on the way to a path, the path itself last. -/
def waypoints (path : String) : List String :=
  let names := Path.parts '/' path
  (List.range names.length).map fun count => "/".intercalate (names.take (count + 1))

/-- Adds what stands at a path, and on the way to it, to the files that are known. -/
def fetch (directory : String) (known : FileTree) (path : String) : IO FileTree := do
  let whole := if Path.isAbsolute path then path else directory ++ "/" ++ path
  (waypoints whole).foldlM (fun tree place => do
    match ← lookUp place with
    | some entry => return tree.put (Path.cleanNames place) entry
    | none => return tree) known

/-- Runs with the files that are known until no other file is asked for. -/
partial def settle {α : Type} (directory : String) (run : FileTree → α) (sought : α → List String)
    (known : FileTree) (asked : List String) : IO α := do
  let result := run known
  let fresh := (sought result).filter fun path => !asked.contains path
  if fresh.isEmpty then return result
  else
    let known ← fresh.foldlM (fetch directory) known
    settle directory run sought known (fresh ++ asked)

/-- The files that are known before anything is asked for: the working directory. -/
def nothingKnown (directory : String) : FileTree :=
  FileTree.empty.addDirectory (Path.cleanNames directory)

/-- Writes the file that a command leaves behind, if it can be written. -/
def save (path : String) (content : List UInt8) : IO Unit := do
  try
    IO.FS.writeBinFile path ⟨content.toArray⟩
  catch _ => return

/-- Reads from the input until a newline, a full buffer or the end. -/
partial def fillLine (input : IO.FS.Stream) (bytes : List UInt8) : IO (List UInt8) := do
  if bytes.contains Console.Line.newline || Console.Line.bufferSize ≤ bytes.length then
    return bytes
  else
    let chunk ← input.read 1
    if chunk.isEmpty then return bytes else fillLine input (bytes ++ chunk.toList)

/-- Shows what a prompt has to say and forgets it. -/
def showPrompt (prompt : Console.Prompt) : IO Console.Prompt := do
  let output ← IO.getStdout
  output.putStr prompt.output
  output.flush
  (← IO.getStderr).putStr prompt.errors
  return { prompt with output := "", errors := "", sought := [] }

/-- Asks for and takes lines until the prompt or the input ends. -/
partial def talk (directory : String) (prompt : Console.Prompt) (bytes : List UInt8) :
    IO Console.Prompt := do
  let prompt ← showPrompt prompt.ask
  let bytes ← fillLine (← IO.getStdin) bytes
  match Console.Line.next? bytes with
  | none => showPrompt prompt.close
  | some (line, rest) =>
    let feed (files : FileTree) : Console.Prompt :=
      let setting := { prompt.session.setting with files }
      { prompt with session := { prompt.session with setting } }.feed (Text.decode line.content)
    let next ← settle directory feed (·.sought) (nothingKnown directory) []
    let next ← showPrompt next
    if next.ended then return next else talk directory next rest

/-- Opens the prompt. -/
def openPrompt (around : Console.Surroundings) (arguments : Console.Arguments) : IO Unit := do
  let path := Console.historyPath around arguments
  let files ← fetch around.directory around.files path
  let prompt ← talk around.directory (Console.openPrompt { around with files } arguments) []
  save path prompt.history.toBytes

/-- Runs a command other than the prompt. -/
def runCommand (around : Console.Surroundings) (arguments : List String) : IO UInt32 := do
  let result ← settle around.directory
    (fun files => Console.run { around with files } arguments) (·.sought) around.files []
  (← IO.getStdout).putStr result.output
  (← IO.getStderr).putStr result.errors
  return result.exit.toUInt32

/-- Runs the command line. -/
def console (arguments : List String) : IO UInt32 := do
  let directory := toString (← IO.currentDir)
  let around : Console.Surroundings :=
    { files := nothingKnown directory
      directory
      home := (← IO.getEnv "HOME").getD ""
      searchPath := (← IO.getEnv Console.searchVariable).getD ""
      input := [] }
  match Console.promptArguments? arguments with
  | some parsed =>
    openPrompt around parsed
    return 0
  | none => runCommand around arguments

/-- Reads bytes from the input until they are a whole header, and gives back the length that
it announces; none at the end of the input. -/
partial def readHeader (input : IO.FS.Stream) (bytes : List UInt8) : IO (Option Int) := do
  let chunk ← input.read 1
  if chunk.isEmpty then return none
  else
    let bytes := bytes ++ chunk.toList
    match Server.Frame.header? 0 [] bytes with
    | some (length, _) => return some length
    | none => readHeader input bytes

/-- Reads a number of bytes from the input, or fewer at its end. -/
partial def readBytes (input : IO.FS.Stream) (count : Nat) (bytes : ByteArray) :
    IO ByteArray := do
  if count ≤ bytes.size then return bytes
  else
    let chunk ← input.read (count - bytes.size).toUSize
    if chunk.isEmpty then return bytes else readBytes input count (bytes ++ chunk)

/-- Answers messages until the conversation or the input ends. -/
partial def serve (input : IO.FS.Stream) (conversation : Server.Conversation) : IO Unit := do
  match ← readHeader input [] with
  | none => return
  | some length =>
    if length ≤ 0 then return
    else
      let body ← readBytes input length.toNat ByteArray.empty
      if body.size < length.toNat then
        if !body.isEmpty then (← IO.getStderr).putStr Server.cutReport
      else
        let next := { conversation with sent := [] }.take body.toList
        let output ← IO.getStdout
        output.write ⟨(next.sent.flatMap Server.Message.toFrame).toArray⟩
        output.flush
        if next.exited then return else serve input next

end TermLang.Main

/-- Runs the program. -/
def main (arguments : List String) : IO UInt32 := do
  let program := TermLang.Path.base (toString (← IO.appPath))
  if program = TermLang.Server.serverName then
    TermLang.Main.serve (← IO.getStdin) .start
    return 0
  else TermLang.Main.console arguments
