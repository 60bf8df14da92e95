import TermLang.Term.Written
import TermLang.Text.Blank
import TermLang.Text.Quoted

/-!
# Traces

A reduction can keep a trace of what it does: one event per list it reduces and per fact, rule,
query, use of a rule and load. An event is shown as one line of `key=value` pairs. A value is
quoted when it is empty or could not be told apart otherwise.
-/

namespace TermLang

/-- What a reduction does, for the trace. -/
inductive Event where
  /-- A list is reduced at a depth. -/
  | reduce (term : Term) (depth : Nat)
  /-- A fact was added, and this many there are now. -/
  | declare (fact : Term) (count : Nat)
  /-- A rule was added. -/
  | define (pattern result : Term)
  /-- A query was put to this many facts, and this many were admitted. -/
  | query (asked : Term) (facts admitted : Nat)
  /-- A query for alternatives becomes a union. -/
  | widen (union : Term)
  /-- A rule is used on a list. -/
  | ruleUsed (before after : Term)
  /-- A file with this many forms is loaded. -/
  | load (path : String) (forms : Nat)
  /-- No file was found. -/
  | notFound (spec : String)
  deriving Inhabited, Repr

namespace Event

/-- Whether a character of a value makes it necessary to quote the value. -/
def callsForQuotes (c : Char) : Bool :=
  if c.toNat < 0x80 then c == '"' || c == '=' || c.toNat ≤ 0x20
  else c == '\uFFFD' || Text.isBlank c || !Text.isPrintable c

/-- A value as a line shows it. -/
def valueText (value : String) : String :=
  if value = "" || value.any callsForQuotes then Text.quoted value else value

/-- The name of an event and its pairs. -/
def pairs : Event → String × List (String × String)
  | .reduce term depth => ("reduce", [("term", term.compact), ("depth", toString depth)])
  | .declare fact count => ("declare", [("fact", fact.compact), ("facts", toString count)])
  | .define pattern result =>
    ("define", [("pattern", pattern.compact), ("result", result.compact)])
  | .query asked facts admitted =>
    ("query", [("query", asked.compact), ("facts", toString facts),
      ("matches", toString admitted)])
  | .widen union => ("query rewrite", [("to", union.compact)])
  | .ruleUsed before after => ("rewrite", [("from", before.compact), ("to", after.compact)])
  | .load path forms => ("load", [("path", path), ("forms", toString forms)])
  | .notFound spec => ("load", [("spec", spec), ("found", "false")])

/-- The line of an event. -/
def line (event : Event) : String :=
  let (name, values) := event.pairs
  " ".intercalate (("level=DEBUG msg=" ++ valueText name) ::
    values.map fun (key, value) => key ++ "=" ++ valueText value)

end Event

end TermLang
