import TermLang.Text.Quoted

/-!
# Faults

Two families of faults are reported: a source that cannot be read, and a reduction that cannot
go on. A fault may be the consequence of another one, which it then carries. An operator that
is not defined for its operands is no fault; the list stays as it is.

The wording of every fault is fixed here.
-/

namespace TermLang

/-- What is wrong with a source. -/
inductive ParseError.Kind where
  /-- A character that is not allowed where it stands. -/
  | invalidCharacter
  /-- A run of symbols that names no operator, or a quoted text that never ends. -/
  | invalidSymbol
  /-- A closing bracket without an opening one. -/
  | missingBracket
  /-- An opening bracket that is never closed. -/
  | unclosedBracket
  /-- Anything else. -/
  | other
  deriving DecidableEq, Inhabited, Repr

/-- A source that cannot be read, and where. The column counts every character of the source
up to the offending one, newlines apart, and does not start again on a new line. -/
structure ParseError where
  /-- What is wrong. -/
  kind : ParseError.Kind
  /-- The code point of an invalid character; zero where there is none. -/
  code : Int
  /-- The offending run of an invalid symbol, or a description. -/
  text : String
  /-- The line, counted from one. -/
  line : Int
  /-- The running column, counted from one. -/
  column : Int
  deriving DecidableEq, Inhabited, Repr

namespace ParseError

/-- The character of a code point; U+FFFD where a number is no code point. -/
def charOfCode (code : Int) : Char :=
  match code with
  | .negSucc _ => '\uFFFD'
  | .ofNat value => if value.isValidChar then Char.ofNat value else '\uFFFD'

/-- What is wrong, in words. -/
def message (error : ParseError) : String :=
  match error.kind with
  | .invalidCharacter =>
    "invalid character " ++ Text.quoted (String.singleton (charOfCode error.code))
  | .invalidSymbol => "invalid symbol " ++ Text.quoted error.text
  | .missingBracket => "missing opening bracket for ')'"
  | .unclosedBracket => "bracket is never closed"
  | .other => if error.text = "" then "unknown parse error" else error.text

/-- The whole report, with line and running column. -/
def report (error : ParseError) : String :=
  "PARSE ERROR at " ++ toString error.line ++ ":" ++ toString error.column ++ ": " ++ error.message

end ParseError

/-- Why a reduction cannot go on. -/
inductive EvalKind where
  /-- A keyword without a form for its operands. -/
  | unknownOperator
  /-- An item asked of an empty list. -/
  | emptyList
  /-- A loaded file that cannot be read as a program. -/
  | loadFailed
  /-- A file that is being loaded already. -/
  | loadCycle
  /-- A reduction nested deeper than allowed. -/
  | depthExceeded
  deriving DecidableEq, Inhabited, Repr

/-- Anything that makes a call fail. -/
inductive Fault where
  /-- A source that cannot be read. -/
  | parse (error : ParseError)
  /-- A reduction that cannot go on. -/
  | eval (kind : EvalKind) (message : String)
  /-- A reduction that cannot go on because of another fault. -/
  | caused (kind : EvalKind) (message : String) (cause : Fault)
  /-- A failure of the surroundings: a file or an output. -/
  | plain (message : String)
  deriving DecidableEq, Inhabited, Repr

namespace Fault

/-- The whole report of a fault and of its causes. -/
def report : Fault → String
  | .parse error => error.report
  | .eval _ message => "EVAL ERROR: " ++ message
  | .caused _ message cause => "EVAL ERROR: " ++ message ++ ": " ++ cause.report
  | .plain message => message

/-- The outermost parse error among a fault and its causes. -/
def parseError? : Fault → Option ParseError
  | .parse error => some error
  | .caused _ _ cause => cause.parseError?
  | _ => none

/-- Whether a kind says that there is no form for the operands. -/
def EvalKind.isUnknownOperator (kind : EvalKind) : Bool :=
  kind == .unknownOperator || kind == .emptyList

/-- Whether a fault or one of its causes says that there is no form for the operands. -/
def isUnknownOperator : Fault → Bool
  | .eval kind _ => EvalKind.isUnknownOperator kind
  | .caused kind _ cause => EvalKind.isUnknownOperator kind || cause.isUnknownOperator
  | _ => false

/-- Whether a fault only says that a bracket is still open, so that more input may mend it. -/
def isIncomplete (fault : Fault) : Bool :=
  match fault.parseError? with
  | some error => error.kind == .unclosedBracket
  | none => false

end Fault

end TermLang
