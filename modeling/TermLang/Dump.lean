import TermLang.Number.Layout
import TermLang.Session
import TermLang.Text.Quoted

/-!
# Dumps

A dump shows a scope with all that its terms are made of, one field a line, indented by two
spaces per level. Lists that hold nothing are shown as absent as long as a session has not
reduced a list.
-/

namespace TermLang.Dump

/-- The lines of a dump, with their nesting levels. -/
abbrev Lines := List (Nat × String)

/-- The lines one level deeper. -/
def deeper (lines : Lines) : Lines :=
  lines.map fun (level, text) => (level + 1, text)

/-- Puts a text in front of the first line. -/
def before (text : String) : Lines → Lines
  | [] => []
  | (level, line) :: rest => (level, text ++ line) :: rest

/-- Puts a comma behind the last line. -/
def withComma (lines : Lines) : Lines :=
  match lines.reverse with
  | [] => []
  | (level, line) :: earlier => ((level, line ++ ",") :: earlier).reverse

/-- Puts a comma behind every group of lines but the last. -/
def separated : List Lines → Lines
  | [] => []
  | [last] => last
  | group :: next :: rest => withComma group ++ separated (next :: rest)

/-- Groups of lines in curly brackets behind a title. -/
def block (title : String) (groups : List Lines) : Lines :=
  (0, title ++ " \x7b") :: (deeper (separated groups) ++ [(0, "\x7d")])

/-- The length of a collection as a title shows it; an empty one has no length. -/
def lengthText (length : Nat) : String :=
  if length = 0 then "" else " (len=" ++ toString length ++ ")"

/-- A text with its length in bytes. -/
def textLine (text : String) : String :=
  "(string)" ++ lengthText text.utf8ByteSize ++ " " ++ Text.quoted text

/-- The fields of a term: its tag and what it holds. -/
def fields (tag : Term.Tag) (data : Lines) : List Lines :=
  [[(0, "Tag: (lex.TermTag) " ++ toString tag.rank)], before "Data: " data]

mutual

/-- The fields of a term. -/
def termFields : Term → List Lines
  | .list items =>
    fields .list (block ("([]lex.Term)" ++ lengthText items.length) (terms items))
  | .number value => fields .number [(0, "(float64) " ++ String.ofList (Number.dumpText value))]
  | .bool value => fields .bool [(0, "(bool) " ++ (if value then "true" else "false"))]
  | .unknown => fields .unknown [(0, "(interface \x7b\x7d) <nil>")]
  | other => fields other.tag [(0, textLine other.spelling)]

/-- The lines of every term. -/
def terms : List Term → List Lines
  | [] => []
  | item :: rest => block "(lex.Term)" (termFields item) :: terms rest

end

/-- The lines of a term. -/
def term (value : Term) : Lines :=
  block "(lex.Term)" (termFields value)

/-- Groups of lines in round and curly brackets behind the type of what is referred to. -/
def reference (type : String) (groups : List Lines) : Lines :=
  (0, type ++ "(\x7b") :: (deeper (separated groups) ++ [(0, "\x7d)")])

/-- The lines of a rule. -/
def rule (rule : Rule) : Lines :=
  block "(lex.Rule)" [before "Pattern: " (term rule.pattern), before "Result: " (term rule.result)]

/-- The lines of a binding. -/
def binding (name : String) (value : Term) : Lines :=
  before (textLine name ++ ": ") (term value)

/-- The lines of a list that may be absent. -/
def collection (type : String) (present : Bool) (groups : List Lines) : Lines :=
  if present || !groups.isEmpty then block (type ++ lengthText groups.length) groups
  else [(0, type ++ " <nil>")]

/-- The lines of a return. -/
def leaving : Option Term → Lines
  | none => [(0, "(*lex.Term)(<nil>)")]
  | some value => reference "(*lex.Term)" (termFields value)

/-- The lines of a scope. -/
def scope (present : Bool) (scope : Scope) : Lines :=
  reference "(*lex.Env)" [
    before "Declarations: " (collection "([]lex.Term)" present (terms scope.facts)),
    before "Rules: " (collection "([]lex.Rule)" present (scope.rules.map rule)),
    before "Variables: " (block ("(map[string]lex.Term)" ++ lengthText scope.bindings.length)
      (scope.bindings.map fun (name, value) => binding name value)),
    before "ReturnValue: " (leaving scope.leaving)]

/-- One line with its indentation. -/
def indented (level : Nat) (line : String) : String :=
  String.ofList (List.replicate (2 * level) ' ') ++ line ++ "\n"

/-- The dump of what a session knows. -/
def session (session : Session) : String :=
  (scope session.used session.global).foldl
    (fun text (level, line) => text ++ indented level line) ""

end TermLang.Dump
