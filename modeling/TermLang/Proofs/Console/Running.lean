import TermLang.Console
import TermLang.Proofs.Session.Loading
import TermLang.Proofs.Session.Snippets

/-!
# Reports of programs that fail

A run of a program that fails prints one report. The fault is that of the file itself, which cannot
be read as a program, or it arises while the program is reduced. The command tells the two apart by
the message of the fault alone: a snippet of the file is printed if the message ends in the absolute
path of the file. The message ends in the path of the file whose text is wrong, so the test is right
for the file itself, and wrong for a loaded file whose path ends in the path of the first one.

The working directory is taken to be absolute. Trees have no links. What is printed before the
report is not discussed.
-/

namespace TermLang.Console

open Snippet

/-- The call that runs the program of a file: a new session, that loads the file and nothing else.
-/
def programCall (around : Surroundings) (parsed : Arguments) (file : String) : Session.Call :=
  (Session.new (setting around (parsed.isOn traceFlag.name) false)).loadFile file

/-- A run of a program that fails: its arguments name a file that can be read, and the call for the
file fails. -/
structure FailedRun (around : Surroundings) (arguments : List String) where
  parsed : Arguments
  file : String
  others : List String
  content : List UInt8
  fault : Fault
  flags : Flag.parse [traceFlag] [] arguments = .ok parsed
  given : parsed.rest = file :: others
  isContent : around.files.read around.directory file = .ok content
  failed : (programCall around parsed file).outcome = .error fault

namespace FailedRun

variable {around : Surroundings} {arguments : List String} (run : FailedRun around arguments)

/-- The setting that the program runs in, as the command makes it from its surroundings. -/
def setting : Setting := Console.setting around (run.parsed.isOn traceFlag.name) false

/-- The call that fails. -/
def call : Session.Call := programCall around run.parsed run.file

/-- The text of the file, as it is read for the report. -/
def source : List Char := (Text.decode run.content).chars

/-- The absolute path of the file, which the command compares the message with. -/
def entry : String := Path.absolute around.directory run.file

/-- The report of the fault, as the command prints it. -/
def report : String := failureText around run.file run.source run.fault

/-- A run that fails prints its report behind the trace and what the program printed. -/
theorem runFile_eq : runFile around arguments =
    ⟨1, run.call.journal.printed, Prompt.traceText run.call.journal ++ run.report ++ "\n", none,
      run.file :: run.call.journal.sought⟩ := by
  have failed := run.failed
  rw [programCall] at failed
  simp only [runFile, withFlags, run.flags, withFile, run.given, run.isContent, failed]
  rfl

/-- A run fails because the text of its file is wrong, or because the file cannot be opened by its
absolute path, or with a fault that arises while the program is reduced. -/
theorem fault_cases (rooted : Path.isAbsolute around.directory = true) :
    (∃ error, readProgram run.source = .error error ∧ run.fault = .unread run.entry error) ∨
    (∃ reason, run.fault = .plain ("cannot load " ++ run.file ++ ": " ++ reason)) ∨
    ((∃ program, readProgram run.source = .ok program) ∧
      run.fault.Arises run.setting [run.entry]) := by
  have failed := run.failed
  have isEntry : run.setting.absolute? run.file = some run.entry := by
    rw [Setting.absolute?_eq]
    simp [setting, Console.setting, entry]
  have isSetting : (Session.new (Console.setting around (run.parsed.isOn traceFlag.name)
      false)).setting = run.setting := rfl
  simp only [programCall, Session.loadFile, isSetting, isEntry] at failed
  split at failed
  · rename_i reason _
    exact .inr (.inl ⟨reason, (Except.error.inj failed).symm⟩)
  · rename_i content isContent
    obtain rfl : content = run.content := FileTree.read_absolute rooted run.isContent isContent
    cases read : readProgram (Text.decode run.content).chars with
    | error error =>
      rw [Reduction.openProgram_of_error List.not_mem_nil read] at failed
      exact .inl ⟨error, read, (Except.error.inj failed).symm⟩
    | ok program =>
      rw [Reduction.openProgram_of_ok List.not_mem_nil read] at failed
      have reduced := Session.outcome_of_finish failed
      have arises := Reduction.runProgram_raises (reduce_raises run.setting _) run.entry program
        _ _ run.fault reduced
      exact .inr (.inr ⟨⟨program, read⟩, arises⟩)

/-! ## The report -/

/-- The message about a file ends in an absolute path exactly if the path of the file does. -/
theorem suffix_message_iff {entry path : String} (rooted : Path.isAbsolute entry = true) :
    entry.toList <:+ ("parse error in " ++ path).toList ↔ entry.toList <:+ path.toList := by
  rw [String.toList_append]
  constructor
  · intro ends
    rcases List.suffix_or_suffix_of_suffix ends (List.suffix_append _ path.toList) with
      shorter | ⟨more, same⟩
    · exact shorter
    · cases more with
      | nil => exact ⟨[], same.symm⟩
      | cons first others =>
        -- The slash in front of the path would stand in the wording.
        have within : first :: others <:+ "parse error in ".toList := by
          rwa [← same, List.suffix_append_self_iff] at ends
        have isSlash : first = '/' := by simpa [Path.isAbsolute, ← same] using rooted
        have member := within.subset (List.mem_cons_self (a := first))
        rw [isSlash] at member
        exact absurd member (by decide)
  · intro ends
    exact ends.trans (List.suffix_append _ _)

/-- The path of the file is absolute, since the working directory is: it is a place spelled from the
root, however the arguments name the file. -/
theorem isAbsolute_entry (rooted : Path.isAbsolute around.directory = true) :
    Path.isAbsolute run.entry = true := by
  obtain ⟨names, _, isPath⟩ := Path.absolute_eq_ofNames rooted run.file
  rw [entry, isPath]
  exact Path.isAbsolute_ofNames names

/-- The fault of a file that cannot be read is reported as a snippet if the path of that file ends
in that of the program, and as it is otherwise. -/
theorem report_of_unread (rooted : Path.isAbsolute around.directory = true) {path : String}
    {error : ParseError} (isUnread : run.fault = .unread path error) :
    (run.entry.toList <:+ path.toList → run.report =
      render run.source run.file error.line (error.position run.source).2 error.message) ∧
    (¬ run.entry.toList <:+ path.toList → run.report = run.fault.report) := by
  have asked : run.report = if run.entry.toList <:+ ("parse error in " ++ path).toList then
      (Fault.parse error).reportOver run.file run.source else run.fault.report := by
    rw [report, isUnread]
    simp [failureText, Fault.unread, Fault.parseError?, entry]
  have test : run.entry.toList <:+ ("parse error in " ++ path).toList ↔
      run.entry.toList <:+ path.toList := suffix_message_iff (run.isAbsolute_entry rooted)
  rw [asked]
  constructor
  · intro ends
    rw [if_pos (test.mpr ends)]
    exact Fault.shows_of_parseError rfl run.file run.source
  · intro differs
    rw [if_neg (mt test.mp differs)]

/-- A fault that arises is reported as it is, unless it is that of a file that cannot be read. The
other faults carry no parse error, so that there is nothing a snippet could be made of. -/
theorem report_of_arises (arises : run.fault.Arises run.setting [run.entry])
    (noUnread : ¬ ∃ path error, run.fault = .unread path error) :
    run.report = run.fault.report := by
  rw [report]
  generalize run.fault = fault at arises noUnread
  cases arises with
  | eval kind message => rfl
  | unwritten => rfl
  | unread leads => exact absurd ⟨_, _, rfl⟩ noUnread

/-- Loads lead from the program to a file that cannot be read, and the run fails for it. The path is
that of the loaded file, however many loads lead there. -/
structure LoadsUnread (path : String) (error : ParseError) : Prop where
  leads : run.setting.LeadsToUnread [run.entry] path error
  isFault : run.fault = .unread path error

/-- A run is reported properly: a snippet of its file is printed only if the text of the file is
wrong, and a parse error of a loaded file is printed as the fault that names the loaded file. -/
structure ReportsProperly : Prop where
  snippet : Shows run.source run.file run.report → ∃ error, readProgram run.source = .error error
  loaded : ∀ path error, run.LoadsUnread path error →
    run.report = "EVAL ERROR: parse error in " ++ path ++ ": " ++ error.report

/-- A run that fails is reported properly, unless it fails for a loaded file whose path ends in the
path of its own file. Then a snippet of its own file is printed at the place that the error has in
the loaded one, as if the error were its own. -/
theorem reportsProperly_iff (rooted : Path.isAbsolute around.directory = true) :
    runFile around arguments =
      ⟨1, run.call.journal.printed, Prompt.traceText run.call.journal ++ run.report ++ "\n", none,
        run.file :: run.call.journal.sought⟩ ∧
    (run.ReportsProperly ↔
      ¬ ∃ path error, run.LoadsUnread path error ∧ run.entry.toList <:+ path.toList) ∧
    ∀ path error, run.fault = .unread path error → run.entry.toList <:+ path.toList →
      run.report =
        render run.source run.file error.line (error.position run.source).2 error.message := by
  have otherwise {path : String} {error : ParseError} (loads : run.LoadsUnread path error)
      (differs : ¬ run.entry.toList <:+ path.toList) :
      run.report = (Fault.unread path error).report := by
    rw [(run.report_of_unread rooted loads.isFault).2 differs, loads.isFault]
  refine ⟨run.runFile_eq, ⟨?_, ?_⟩, ?_⟩
  · rintro properly ⟨path, error, loads, ends⟩
    have shown := (run.report_of_unread rooted loads.isFault).1 ends
    have named := (properly.loaded path error loads).trans (Fault.report_unread path error).symm
    refine (Fault.Arises.unread loads.leads).not_shows run.source run.file ?_
    rw [← named]
    exact ⟨_, _, _, shown⟩
  · intro apart
    constructor
    · intro shows
      rcases run.fault_cases rooted with ⟨error, unreadable, _⟩ | ⟨reason, isFault⟩ | ⟨_, arises⟩
      · exact ⟨error, unreadable⟩
      · have head := shows.head
        simp [report, failureText, isFault, Fault.report] at head
      · by_cases isUnread : ∃ path error, run.fault = .unread path error
        · obtain ⟨path, error, isFault⟩ := isUnread
          have loads : run.LoadsUnread path error := ⟨(isFault ▸ arises).leads, isFault⟩
          rw [otherwise loads fun ends => apart ⟨path, error, loads, ends⟩] at shows
          exact absurd shows ((Fault.Arises.unread loads.leads).not_shows _ _)
        · rw [run.report_of_arises arises isUnread] at shows
          exact absurd shows (arises.not_shows _ _)
    · intro path error loads
      rw [otherwise loads fun ends => apart ⟨path, error, loads, ends⟩, Fault.report_unread]
  · intro path error isFault
    exact (run.report_of_unread rooted isFault).1

/-- A directory `/p` with a program in `a.lex` and a file that it loads. -/
def twoFiles (program loaded : String) (place : List String) : Surroundings where
  files := ⟨[(["p"], .directory), (["p", "a.lex"], .file (Text.ofString program).bytes),
    (["p", "x"], .directory), (["p", "x", "p"], .directory),
    (place, .file (Text.ofString loaded).bytes)]⟩
  directory := "/p"
  home := "/p"
  searchPath := ""
  input := []

/-- The run of a program that loads a file which cannot be read. -/
def ofLoaded : FailedRun (twoFiles "(.load \"x/b\")" "(b\n #)" ["p", "x", "b.lex"]) ["a.lex"] where
  parsed := ⟨[], ["a.lex"]⟩
  file := "a.lex"
  others := []
  content := (Text.ofString "(.load \"x/b\")").bytes
  fault := .unread "/p/x/b.lex" (.invalidCharacter '#' ⟨2, 4⟩)
  flags := rfl
  given := rfl
  isContent := rfl
  failed := rfl

/-- The path of the loaded file does not end in that of the program, and the loaded file is named
with the place of its error. -/
theorem loaded_file_is_named :
    ofLoaded.ReportsProperly ∧ ofLoaded.report =
      "EVAL ERROR: parse error in /p/x/b.lex: PARSE ERROR at 2:4: invalid character \"#\"" := by
  constructor
  · refine (ofLoaded.reportsProperly_iff (by decide)).2.1.mpr ?_
    rintro ⟨path, error, loads, ends⟩
    obtain ⟨rfl, _⟩ := Fault.unread_inj loads.isFault
    exact absurd ends (by decide +kernel)
  · decide +kernel

/-- The run of a program that loads a file with a longer path of the same end. -/
def ofLookalike :
    FailedRun (twoFiles "(ok)\n(.load \"x/p/a\")\n(z)" "(b\n #)" ["p", "x", "p", "a.lex"])
      ["a.lex"] where
  parsed := ⟨[], ["a.lex"]⟩
  file := "a.lex"
  others := []
  content := (Text.ofString "(ok)\n(.load \"x/p/a\")\n(z)").bytes
  fault := .unread "/p/x/p/a.lex" (.invalidCharacter '#' ⟨2, 4⟩)
  flags := rfl
  given := rfl
  isContent := rfl
  failed := rfl

/-- The program can be read, and the error of the loaded file is shown in it, at a place where
nothing is wrong. -/
theorem lookalike_is_shown_in_program :
    (∃ program, readProgram ofLookalike.source = .ok program) ∧
      ofLookalike.report = "PARSE ERROR in a.lex at 2:1: invalid character \"#\"\n\n" ++
        "   1 | (ok)\n   2 | (.load \"x/p/a\")\n     | ^\n   3 | (z)\n" ∧
      Shows ofLookalike.source ofLookalike.file ofLookalike.report ∧
      ¬ ofLookalike.ReportsProperly := by
  have shows : Shows ofLookalike.source ofLookalike.file ofLookalike.report :=
    ⟨2, 1, "invalid character \"#\"", by decide +kernel⟩
  refine ⟨⟨_, rfl⟩, by decide +kernel, shows, ?_⟩
  intro properly
  obtain ⟨error, unreadable⟩ := properly.snippet shows
  cases unreadable

end FailedRun

end TermLang.Console
