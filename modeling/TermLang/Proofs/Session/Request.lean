import TermLang.Proofs.Reduction.Run
import TermLang.Session

/-!
# Requests of a session

A session is asked to reduce a term, a source or the program of a file. `serveWith` is the call for
such a request with any evaluator in the place of the reduction, and the calls of the session are
those with the reduction, `serve_eq`.

There are three ways in which a request can be served, whatever the evaluator is: it is refused, or
a term is given to the evaluator, or the program of a file that can be opened is. `served` says so,
together with what a watch sees of the request, so that what holds of all requests is proved for
these three ways and not for each kind of request.
-/

namespace TermLang

namespace Session

/-- What a session can be asked for. -/
inductive Request where
  /-- A term is to be reduced. -/
  | term (term : Term)
  /-- The list that a source spells is to be reduced. -/
  | source (source : List Char)
  /-- The program in a file is to be reduced. -/
  | file (path : String)

/-- The call for a request. -/
def serve (session : Session) : Request → Call
  | .term term => session.eval term
  | .source source => session.evalSource source
  | .file path => session.loadFile path

/-- The call for a request, with any evaluator. -/
def serveWith (evaluate : Evaluator) (session : Session) : Request → Call
  | .term term =>
    { session with used := session.used || term.isList }.finish
      (evaluate term session.global session.journal)
  | .source source =>
    match readList source with
    | .error error => session.refuse (.parse error)
    | .ok term =>
      { session with used := session.used || term.isList }.finish
        (evaluate term session.global session.journal)
  | .file path =>
    match session.setting.absolute? path with
    | none => session.refuse (.plain noDirectory)
    | some absolute =>
      match session.setting.read absolute with
      | .error report => session.refuse (.plain ("cannot load " ++ path ++ ": " ++ report))
      | .ok content =>
        match Reduction.openProgram absolute (Text.decode content).chars session.journal with
        | .error fault => session.refuse fault
        | .ok program =>
          { session with used := true }.finish (Reduction.runProgram session.setting evaluate
            absolute program session.global session.journal)

/-- The calls of a session are those with its reduction, given the whole depth that the setting
allows. By this the three ways to serve a request hold of them. -/
theorem serve_eq (session : Session) (request : Request) :
    session.serve request =
      session.serveWith (reduce session.setting session.setting.maxDepth) request := by
  cases request with
  | _ => rfl

/-- The journal with which the program of a file is reduced. -/
def loadingJournal (session : Session) (path : String) (program : Term) : Journal :=
  ((session.journal.note session.setting (.load path program.items.length)).record
    (.loaded path)).enter path

/-- The file of the program is put on top of those that are being loaded, since noting and recording
the load leaves them as they are. -/
theorem loadingJournal_loading (session : Session) (path : String) (program : Term) :
    (session.loadingJournal path program).loading = path :: session.loading :=
  congrArg (path :: ·) (Journal.note_loading _ _ _)

/-- What a watch sees of a request. -/
def seen {α : Type} (session : Session) (watch : Watch α) : Request → List α
  | .term term => watch.call term session.global session.journal
  | .source source =>
    match readList source with
    | .error _ => []
    | .ok term => watch.call term session.global session.journal
  | .file path =>
    match session.setting.absolute? path with
    | none => []
    | some absolute =>
      match session.setting.read absolute with
      | .error _ => []
      | .ok content =>
        match Reduction.openProgram absolute (Text.decode content).chars session.journal with
        | .error _ => []
        | .ok program =>
          watch.program absolute program session.global (session.loadingJournal absolute program)

/-- The ways in which a request is served: it is refused, or a term is reduced, or the program of a
file that can be opened is. -/
inductive Served (session : Session) (request : Request) : Prop where
  | refused (fault : Fault)
      (call : ∀ evaluate, session.serveWith evaluate request = session.refuse fault)
      (seen : ∀ {α : Type} (watch : Watch α), session.seen watch request = [])
  | reduced (used : Bool) (term : Term)
      (call : ∀ evaluate, session.serveWith evaluate request =
        { session with used }.finish (evaluate term session.global session.journal))
      (seen : ∀ {α : Type} (watch : Watch α), session.seen watch request =
        watch.call term session.global session.journal)
  | loaded (path : String) (program : Term) (opens : session.setting.Opens session.loading path)
      (call : ∀ evaluate, session.serveWith evaluate request =
        { session with used := true }.finish
          (Reduction.runProgram session.setting evaluate path program session.global
            session.journal))
      (seen : ∀ {α : Type} (watch : Watch α), session.seen watch request =
        watch.program path program session.global (session.loadingJournal path program))

/-- Every request is served in one of these ways. The tests that decide which one look at the
request, the files and the files that are being loaded, so they come out the same for every
evaluator and for every watch. -/
theorem served (session : Session) (request : Request) : session.Served request := by
  cases request with
  | term term => exact .reduced _ term (fun _ => rfl) fun _ => rfl
  | source source =>
    cases isRead : readList source with
    | error error =>
      refine .refused (.parse error) ?_ ?_
      · simp only [serveWith, isRead, implies_true]
      · simp only [seen, isRead, implies_true]
    | ok term =>
      refine .reduced (session.used || term.isList) term ?_ ?_
      · simp only [serveWith, isRead, implies_true]
      · simp only [seen, isRead, implies_true]
  | file path =>
    cases isAbsolute : session.setting.absolute? path with
    | none =>
      refine .refused (.plain noDirectory) ?_ ?_
      · simp only [serveWith, isAbsolute, implies_true]
      · simp only [seen, isAbsolute, implies_true]
    | some absolute =>
      cases isContent : session.setting.read absolute with
      | error report =>
        refine .refused (.plain ("cannot load " ++ path ++ ": " ++ report)) ?_ ?_
        · simp only [serveWith, isAbsolute, isContent, implies_true]
        · simp only [seen, isAbsolute, isContent, implies_true]
      | ok content =>
        cases opened : Reduction.openProgram absolute (Text.decode content).chars
            session.journal with
        | error fault =>
          refine .refused fault ?_ ?_
          · simp only [serveWith, isAbsolute, isContent, opened, implies_true]
          · simp only [seen, isAbsolute, isContent, opened, implies_true]
        | ok program =>
          refine .loaded absolute program ⟨Reduction.not_mem_of_openProgram opened,
            ⟨path, isAbsolute⟩, content, isContent⟩ ?_ ?_
          · simp only [serveWith, isAbsolute, isContent, opened, implies_true]
          · simp only [seen, isAbsolute, isContent, opened, implies_true]

end Session

end TermLang
