import TermLang.Fault.Snippet
import TermLang.Reduction

/-!
# Sessions

A session owns one scope that lasts. Every call reduces in it, so facts, rules and bindings
gather from call to call. A return that reaches the session ends the call with its value, and
the next call starts without one.
-/

namespace TermLang

/-- How deep lists may be nested while they are reduced, unless a session says otherwise. -/
def defaultMaxDepth : Nat := 10000

/-- A lasting scope and the setting of all its calls. -/
structure Session where
  /-- The setting of every call. -/
  setting : Setting
  /-- What the session knows. -/
  global : Scope
  /-- The files that are being loaded, which between calls are none. -/
  loading : List String
  /-- Whether a list was reduced since the session was new. -/
  used : Bool
  deriving Inhabited, Repr

namespace Session

/-- A session that knows nothing. -/
def new (setting : Setting) : Session :=
  ⟨setting, .empty, [], false⟩

/-- What a call gives back. -/
structure Call where
  /-- The result, or why there is none. -/
  outcome : Except Fault Term
  /-- What the call printed, traced and sought. -/
  journal : Journal
  /-- The session after the call. -/
  session : Session
  deriving Inhabited

/-- Takes a return out of the global scope; its value is the result of a call that did not
fail. -/
def finish (session : Session) (reply : Reply Scope) : Call :=
  let (leaving, global) := reply.scope.takeLeaving
  let outcome := match reply.outcome, leaving with
    | .ok _, some value => .ok value
    | other, _ => other
  ⟨outcome, reply.journal, { session with global, loading := reply.journal.loading }⟩

/-- The journal that a call starts with. -/
def journal (session : Session) : Journal :=
  { Journal.empty with loading := session.loading }

/-- A call that fails before anything is reduced. -/
def refuse (session : Session) (fault : Fault) : Call :=
  ⟨.error fault, session.journal, session⟩

/-- Reduces a term. -/
def eval (session : Session) (term : Term) : Call :=
  let reply := reduce session.setting session.setting.maxDepth term session.global session.journal
  { session with used := session.used || term.isList }.finish reply

/-- Reads a source as the items of one list and reduces the list. -/
def evalSource (session : Session) (source : List Char) : Call :=
  match readList source with
  | .error error => session.refuse (.parse error)
  | .ok term => session.eval term

/-- What is said of a relative path when there is no directory to start from. -/
def noDirectory : String :=
  "getwd: " ++ FileTree.Failure.message .absent

/-- Reads the program in a file and reduces it. -/
def loadFile (session : Session) (path : String) : Call :=
  let setting := session.setting
  match setting.absolute? path with
  | none => session.refuse (.plain noDirectory)
  | some absolute =>
    match setting.read absolute with
    | .error report => session.refuse (.plain ("cannot load " ++ path ++ ": " ++ report))
    | .ok content =>
      match Reduction.openProgram absolute (Text.decode content).chars session.journal with
      | .error fault => session.refuse fault
      | .ok program =>
        let reply := Reduction.runProgram setting (reduce setting setting.maxDepth) absolute
          program session.global session.journal
        { session with used := true }.finish reply

/-- Takes files away from under the session. -/
def remove (session : Session) (names : List String) : Session :=
  { session with setting := session.setting.remove names }

/-- Forgets everything. -/
def reset (session : Session) : Session :=
  .new session.setting

end Session

end TermLang
