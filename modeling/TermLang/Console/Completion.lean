import TermLang.Form

/-!
# Completion

The word at the end of a line is completed to the keywords that start with it, provided that it
starts with a dot. A word begins behind the last blank or bracket.
-/

namespace TermLang.Console

/-- What a word begins behind. -/
def endsWord (c : Char) : Bool :=
  c == ' ' || c == '\t' || c == '(' || c == ')'

/-- The word at the end of a line, and what stands before it. -/
def lastWord (line : List Char) : List Char × List Char :=
  let reversed := line.reverse
  ((reversed.dropWhile (!endsWord ·)).reverse, (reversed.takeWhile (!endsWord ·)).reverse)

/-- The completions of a line in increasing order. -/
def completions (line : String) : List String :=
  let (before, word) := lastWord line.toList
  if word.head? = some '.' then
    (Form.keywords.filter fun keyword => word.isPrefixOf keyword.toList).map
      (String.ofList before ++ ·)
  else []

end TermLang.Console
