import TermLang.Fact
import TermLang.FileTree
import TermLang.Form
import TermLang.Reader
import TermLang.Scope
import TermLang.Trace

/-!
# Reduction

Atoms reduce to themselves. A list is reduced from the inside out: its items first, left to
right, then the list of the results by its shape. An operator or a built-in form is applied
where one fits; otherwise the first rule that matches is; otherwise the list is data
and stays as it is. A keyword without a form for its operands is a fault unless a rule matches.

Every list is reduced in a frame of its own. The frame's outer scope starts as the caller's and
is merged back at the end, also after a fault. Its inner scope starts empty; queries that no
fact answers are reduced there, so that they cannot change what the caller knows.

A return stops every list around it: no further item is reduced once a value is on its way out.

The recursion goes down in the depth that is left. One level of reduction is written against an
arbitrary `Evaluator` for the levels below, and `reduce` ties the knot.
-/

namespace TermLang

/-- What stays the same during a reduction. -/
structure Setting where
  /-- How deep lists may be nested while they are reduced. -/
  maxDepth : Nat
  /-- Whether a trace is kept. -/
  tracing : Bool
  /-- Whether terms are printed in colours. -/
  colours : Bool
  /-- Whether the output refuses to be written. -/
  outputFails : Bool
  /-- The files there are. -/
  files : FileTree
  /-- The directory that relative paths start from, as long as it is there. -/
  directory : Option String
  /-- Where loads look for files besides the directory, in order. -/
  roots : List String
  deriving Inhabited, Repr

namespace Setting

/-- The absolute path of a path; none for a relative path without a directory to start from. -/
def absolute? (setting : Setting) (path : String) : Option String :=
  if Path.isAbsolute path then some (Path.clean path)
  else setting.directory.map fun directory => Path.join directory path

/-- Whether a file stands at a path. -/
def isFile (setting : Setting) (path : String) : Bool :=
  (Path.isAbsolute path || setting.directory.isSome) &&
    setting.files.isFile (setting.directory.getD "/") path

/-- The bytes of the file at an absolute path, or the whole report of why there are none. -/
def read (setting : Setting) (path : String) : Except String (List UInt8) :=
  setting.files.read (setting.directory.getD "/") path

/-- Takes away what stands behind some names, and all that lies below it. The directory that
relative paths start from may be among it; then there is none any more, even if one is put in
its place later. -/
def remove (setting : Setting) (names : List String) : Setting :=
  { setting with
    files := setting.files.erase names
    directory := setting.directory.filter fun directory =>
      !names.isPrefixOf (Path.cleanNames directory) }

end Setting

/-- One thing that a reduction does to a scope or to the world. -/
inductive Act where
  /-- A line is printed. -/
  | printed (line : String)
  /-- A fact is added. -/
  | declared (fact : Term)
  /-- A rule is added. -/
  | defined (rule : Rule)
  /-- A variable is bound. -/
  | bound (name : String) (term : Term)
  /-- The program of a file is started. -/
  | loaded (path : String)
  /-- A value is sent on its way out. -/
  | returned (value : Term)
  deriving Inhabited, Repr

/-- What a reduction has done besides changing its scope. -/
structure Journal where
  /-- What was printed. -/
  printed : String
  /-- The trace, the latest event first. -/
  trace : List Event
  /-- The files that are being loaded, the innermost first. -/
  loading : List String
  /-- The paths that loads have asked for, the latest first. -/
  sought : List String
  /-- All acts, the latest first. -/
  acts : List Act
  deriving Inhabited, Repr

namespace Journal

/-- Nothing was done yet. -/
def empty : Journal :=
  ⟨"", [], [], [], []⟩

/-- Adds an event if a trace is kept. -/
def note (journal : Journal) (setting : Setting) (event : Event) : Journal :=
  if setting.tracing then { journal with trace := event :: journal.trace } else journal

/-- Adds an act. -/
def record (journal : Journal) (act : Act) : Journal :=
  { journal with acts := act :: journal.acts }

/-- Adds a line to what was printed. -/
def print (journal : Journal) (line : String) : Journal :=
  { journal.record (.printed line) with printed := journal.printed ++ line ++ "\n" }

/-- Starts to load a file. -/
def enter (journal : Journal) (path : String) : Journal :=
  { journal with loading := path :: journal.loading }

/-- Ends the load that was started last. -/
def exit (journal : Journal) : Journal :=
  { journal with loading := journal.loading.tail }

/-- Remembers which paths were asked for. -/
def seek (journal : Journal) (paths : List String) : Journal :=
  { journal with sought := paths.reverse ++ journal.sought }

end Journal

/-- How a reduction ended, and the scope and the journal it left. Both are kept after a fault. -/
structure Reply (scope : Type) where
  /-- The result, or why there is none. -/
  outcome : Except Fault Term
  /-- The scope afterwards. -/
  scope : scope
  /-- The journal afterwards. -/
  journal : Journal
  deriving Inhabited

/-- Reduces a term in a caller's scope. -/
abbrev Evaluator := Term → Scope → Journal → Reply Scope

/-- The scopes of one list while it is reduced. -/
structure Frame where
  /-- The caller's scope as this list changes it. -/
  outer : Scope
  /-- Where queries without an answer are reduced. -/
  inner : Scope
  deriving Inhabited, Repr

namespace Reduction

/-- Keywords and operands that no form fits. -/
def noForm (message : String) : Fault :=
  .eval .unknownOperator message

/-- The fault of a list that is nested too deep. -/
def tooDeep (setting : Setting) : Fault :=
  .eval .depthExceeded ("reduction nested deeper than " ++ toString setting.maxDepth)

/-! ## Items -/

/-- What became of the items of a list. -/
inductive Items where
  /-- All were reduced. -/
  | reduced (values : List Term)
  /-- A return stopped the list. -/
  | stopped (value : Term)
  /-- One of them failed. -/
  | failed (fault : Fault)
  deriving Inhabited, Repr

/-- Reduces items from left to right until a return is on its way out or one fails. `done` holds
the values so far, the latest first. -/
def reduceItems (below : Evaluator) :
    List Term → (done : List Term) → Scope → Journal → Items × Scope × Journal
  | [], done, scope, journal => (.reduced done.reverse, scope, journal)
  | item :: rest, done, scope, journal =>
    match scope.leaving with
    | some value => (.stopped value, scope, journal)
    | none =>
      let reply := below item scope journal
      match reply.outcome with
      | .error fault => (.failed fault, reply.scope, reply.journal)
      | .ok value => reduceItems below rest (value :: done) reply.scope reply.journal

/-! ## Rules -/

/-- Applies the first rule that matches a list and reduces what it makes of it; `none` if no
rule matches. -/
def useRule? (setting : Setting) (below : Evaluator) (items : List Term) (frame : Frame)
    (journal : Journal) : Option (Reply Frame) :=
  (Rule.firstResult? frame.outer.rules (.list items)).map fun result =>
    let journal := journal.note setting (.ruleUsed (.list items) result)
    let reply := below result frame.outer journal
    ⟨reply.outcome, { frame with outer := reply.scope }, reply.journal⟩

/-! ## Queries -/

/-- What a query without an answer is reduced as: alternatives become a union. -/
def fallback (items : List Term) : Term :=
  match items with
  | [.keyword ".or", x, y] => .list [.keyword Form.union.keyword, x, y]
  | _ => .list items

/-- Whether a query asks for alternatives. -/
def isAlternatives : List Term → Bool
  | [.keyword ".or", _, _] => true
  | _ => false

/-- Puts a query whose nested lists were answered to the facts. If no fact is admitted, the
query is reduced in the inner scope, and a return raised there leaves the outer one. -/
def answer (setting : Setting) (below : Evaluator) (items : List Term) (frame : Frame)
    (journal : Journal) : Reply Frame :=
  let facts := frame.outer.facts ++ frame.inner.facts
  let answers := Fact.answers items facts
  let journal := journal.note setting (.query (.list items) facts.length answers.length)
  if answers.isEmpty then
    let next := fallback items
    let journal := if isAlternatives items then journal.note setting (.widen next) else journal
    let reply := below next frame.inner journal
    let (leaving, inner) := reply.scope.takeLeaving
    let outer := match leaving with
      | some value => frame.outer.leave value
      | none => frame.outer
    ⟨reply.outcome, ⟨outer, inner⟩, reply.journal⟩
  else ⟨.ok (.list answers), frame, journal⟩

mutual

/-- Answers a query: its nested lists first, left to right, then the query itself. -/
def query (setting : Setting) (below : Evaluator) : Term → Frame → Journal → Reply Frame
  | .list items, frame, journal =>
    match queryItems setting below items frame journal with
    | (.error fault, frame, journal) => ⟨.error fault, frame, journal⟩
    | (.ok values, frame, journal) => answer setting below values frame journal
  | atom, frame, journal => ⟨.ok atom, frame, journal⟩

/-- Answers the nested lists of a query and keeps its atoms. -/
def queryItems (setting : Setting) (below : Evaluator) :
    List Term → Frame → Journal → Except Fault (List Term) × Frame × Journal
  | [], frame, journal => (.ok [], frame, journal)
  | item :: rest, frame, journal =>
    let reply := query setting below item frame journal
    match reply.outcome with
    | .error fault => (.error fault, reply.scope, reply.journal)
    | .ok value =>
      match queryItems setting below rest reply.scope reply.journal with
      | (.error fault, frame, journal) => (.error fault, frame, journal)
      | (.ok values, frame, journal) => (.ok (value :: values), frame, journal)

end

/-! ## Loading -/

/-- The extension that loads add to a path without one. -/
def sourceExtension : String := ".lex"

/-- The paths that a path from a program may mean, in the order in which they are tried. -/
def spellings (spec path : String) : List String :=
  if Path.extension spec = "" then [path ++ sourceExtension, path] else [path]

/-- Where a load looks for a file: an absolute path where it is; any other below the directory
of the file being loaded, then the directory of the program, then the roots. -/
def candidates (setting : Setting) (loading : List String) (spec : String) : List String :=
  if Path.isAbsolute spec then spellings spec spec
  else
    let current := (loading.head?.map Path.directory).toList
    let bases := (current ++ setting.directory.toList ++ setting.roots).filter (· != "")
    bases.flatMap fun base => spellings spec (Path.join base spec)

/-- The file that a path from a program means, by its absolute path. -/
def resolve (setting : Setting) (loading : List String) (spec : String) : Option String :=
  ((candidates setting loading spec).find? setting.isFile).bind setting.absolute?

/-- Reads the program of a file. A file that is being loaded already is a fault, and so is one
that cannot be read as a program. -/
def openProgram (path : String) (source : List Char) (journal : Journal) : Except Fault Term :=
  if journal.loading.contains path then
    .error (.eval .loadCycle
      ("load cycle detected: " ++ Path.cycle journal.loading.reverse path))
  else
    match readProgram source with
    | .error error => .error (.caused .loadFailed ("parse error in " ++ path) (.parse error))
    | .ok program => .ok program

/-- Reduces the program of a file in a scope. The file counts as being loaded meanwhile. -/
def runProgram (setting : Setting) (below : Evaluator) (path : String) (program : Term)
    (scope : Scope) (journal : Journal) : Reply Scope :=
  let journal := journal.note setting (.load path program.items.length)
  let journal := (journal.record (.loaded path)).enter path
  let reply := below program scope journal
  ⟨reply.outcome, reply.scope, reply.journal.exit⟩

/-- Loads the file that a path from a program means. The answer is false if there is none. -/
def load (setting : Setting) (below : Evaluator) (spec : String) (frame : Frame)
    (journal : Journal) : Reply Frame :=
  let journal := journal.seek (candidates setting journal.loading spec)
  match resolve setting journal.loading spec with
  | none => ⟨.ok (.bool false), frame, journal.note setting (.notFound spec)⟩
  | some path =>
    match setting.read path with
    | .error _ => ⟨.ok (.bool false), frame, journal⟩
    | .ok content =>
      match openProgram path (Text.decode content).chars journal with
      | .error fault => ⟨.error fault, frame, journal⟩
      | .ok program =>
        let reply := runProgram setting below path program frame.outer journal
        ⟨reply.outcome, { frame with outer := reply.scope }, reply.journal⟩

/-! ## Forms -/

/-- An item from one end of a list. -/
def endItem (form : Form) (x : Term) : Except Fault Term :=
  match x with
  | .list [] => .error (.eval .emptyList (form.keyword ++ " of an empty list"))
  | .list (first :: rest) =>
    .ok (if form = .head then first else (first :: rest).getLast (List.cons_ne_nil first rest))
  | other => .error (noForm (form.keyword ++ " expects a list, got " ++ other.tag.name))

/-- Adds a fact to the outer scope. -/
def declare (setting : Setting) (fact : Term) (frame : Frame) (journal : Journal) : Reply Frame :=
  let outer := frame.outer.declare fact
  ⟨.ok (.bool true), { frame with outer },
    (journal.note setting (.declare fact outer.facts.length)).record (.declared fact)⟩

/-- Applies a form to one operand. -/
def applyUnary (setting : Setting) (below : Evaluator) (form : Form) (x : Term) (frame : Frame)
    (journal : Journal) : Reply Frame :=
  match form with
  | .print =>
    if setting.outputFails then ⟨.error (.plain "write failed"), frame, journal⟩
    else ⟨.ok (.bool true), frame, journal.print (x.laidOut setting.colours)⟩
  | .leave => ⟨.ok x, { frame with outer := frame.outer.leave x }, journal.record (.returned x)⟩
  | .load =>
    match x with
    | .str spec => load setting below spec frame journal
    | other =>
      ⟨.error (noForm (".load expects a string path, got " ++ other.tag.name)), frame, journal⟩
  | .declare | .declareShort => declare setting x frame journal
  | .lookUp =>
    ⟨.ok (.list ((frame.outer.facts.filterMap (Fact.match? x)).map .list)), frame, journal⟩
  | .ask => query setting below x frame journal
  | .head | .back => ⟨endItem form x, frame, journal⟩
  | other => ⟨.error (noForm ("no form " ++ other.keyword ++ " with 1 argument")), frame, journal⟩

/-- Applies a form to two operands. Operands of the wrong kind give no answer. -/
def applyBinary (setting : Setting) (form : Form) (a b : Term) (frame : Frame)
    (journal : Journal) : Reply Frame :=
  match form, a, b with
  | .both, .bool p, .bool q => ⟨.ok (.bool (p && q)), frame, journal⟩
  | .either, .bool p, .bool q => ⟨.ok (.bool (p || q)), frame, journal⟩
  | .union, .list xs, .list ys => ⟨.ok (.list (xs ++ ys)), frame, journal⟩
  | .define, pattern, result =>
    ⟨.ok (.bool true), { frame with outer := frame.outer.define ⟨pattern, result⟩ },
      (journal.note setting (.define pattern result)).record (.defined ⟨pattern, result⟩)⟩
  | .bind, .var name, term =>
    ⟨.ok (.bool true), { frame with outer := frame.outer.bind name term },
      journal.record (.bound name term)⟩
  | _, _, _ => ⟨.ok .unknown, frame, journal⟩

/-! ## Lists -/

/-- What a list of reduced items is, by its shape. -/
inductive Shape where
  /-- An operator on two operands. -/
  | binaryOp (symbol : String) (x y : Term)
  /-- An operator on one operand. -/
  | unaryOp (symbol : String) (x : Term)
  /-- A form with its one operand. -/
  | unaryForm (form : Form) (x : Term)
  /-- A form with its two operands. -/
  | binaryForm (form : Form) (x y : Term)
  /-- A keyword without a form for this number of operands. -/
  | formless (keyword : String) (operands : Nat)
  /-- Anything else. -/
  | data
  deriving Inhabited, Repr

/-- The form of a keyword with a number of operands. -/
def formOf? (keyword : String) (operands : Nat) : Option Form :=
  (Form.find? keyword).filter (·.arity == operands)

/-- The shape of a list. -/
def Shape.of (items : List Term) : Shape :=
  match items with
  | [.binaryOp symbol, x, y] => .binaryOp symbol x y
  | [.unaryOp symbol, x] => .unaryOp symbol x
  | .keyword keyword :: operands =>
    match formOf? keyword operands.length, operands with
    | some form, [x] => .unaryForm form x
    | some form, [x, y] => .binaryForm form x y
    | _, _ => .formless keyword operands.length
  | _ => .data

/-- The answer of the operator or the built-in form that a shape calls for. -/
def applyShape (setting : Setting) (below : Evaluator) (shape : Shape) (frame : Frame)
    (journal : Journal) : Reply Frame :=
  match shape with
  | .binaryOp symbol x y => ⟨.ok (Operator.binary symbol x y), frame, journal⟩
  | .unaryOp symbol x => ⟨.ok (Operator.unary symbol x), frame, journal⟩
  | .unaryForm form x => applyUnary setting below form x frame journal
  | .binaryForm form x y => applyBinary setting form x y frame journal
  | .formless _ _ | .data => ⟨.ok .unknown, frame, journal⟩

/-- What a list is when neither a built-in nor a rule applies. -/
def unreduced (shape : Shape) (items : List Term) : Except Fault Term :=
  match shape with
  | .formless keyword operands =>
    .error (noForm ("no form " ++ keyword ++ " with " ++ toString operands ++ " argument(s)"))
  | _ => .ok (.list items)

/-- Applies a built-in to a list of reduced items, else a rule, else leaves the list as it is. -/
def dispatch (setting : Setting) (below : Evaluator) (items : List Term) (frame : Frame)
    (journal : Journal) : Reply Frame :=
  let shape := Shape.of items
  let reply := applyShape setting below shape frame journal
  match reply.outcome with
  | .ok .unknown =>
    match useRule? setting below items reply.scope reply.journal with
    | some used => used
    | none => ⟨unreduced shape items, reply.scope, reply.journal⟩
  | _ => reply

/-- The value of a return takes the place of a result. -/
def overriding (scope : Scope) (outcome : Except Fault Term) : Except Fault Term :=
  match outcome, scope.leaving with
  | .ok _, some value => .ok value
  | other, _ => other

/-- Reduces the items of a list and then the list, in a frame whose outer scope is given. -/
def reduceFrame (setting : Setting) (below : Evaluator) (items : List Term) (outer : Scope)
    (journal : Journal) : Reply Scope :=
  match reduceItems below items [] outer journal with
  | (.failed fault, scope, journal) => ⟨.error fault, scope, journal⟩
  | (.stopped value, scope, journal) => ⟨.ok value, scope, journal⟩
  | (.reduced values, scope, journal) =>
    let reply := dispatch setting below values ⟨scope, .empty⟩ journal
    ⟨overriding reply.scope.outer reply.outcome, reply.scope.outer, reply.journal⟩

end Reduction

open Reduction in
/-- Reduces a term with this much depth left, in a caller's scope. A list takes one level and is
a fault if none is left. -/
def reduce (setting : Setting) : (left : Nat) → Term → Scope → Journal → Reply Scope
  | 0, .list _, caller, journal => ⟨.error (tooDeep setting), caller, journal⟩
  | left + 1, .list items, caller, journal =>
    let journal := journal.note setting (.reduce (.list items) (setting.maxDepth - left))
    let reply := reduceFrame setting (reduce setting left) items caller journal
    ⟨reply.outcome, caller.merge reply.scope, reply.journal⟩
  | _, atom, caller, journal => ⟨.ok atom, caller, journal⟩

end TermLang
