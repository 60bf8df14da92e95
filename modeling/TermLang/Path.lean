/-!
# Paths

Paths are texts with names divided by slashes. Cleaning is lexical: it drops empty names and
single dots and lets a double dot take away the name before it. It asks no file system.
-/

namespace TermLang.Path

/-- The names between the slashes; the empty text has one empty name. -/
def splitAt (divider : Char) : List Char → List (List Char)
  | [] => [[]]
  | c :: rest =>
    if c = divider then [] :: splitAt divider rest
    else
      match splitAt divider rest with
      | [] => [[c]]
      | first :: others => (c :: first) :: others

/-- The parts of a text between occurrences of a character. -/
def parts (divider : Char) (text : String) : List String :=
  (splitAt divider text.toList).map String.ofList

/-- Whether a path starts at the root. -/
def isAbsolute (path : String) : Bool :=
  path.toList.head? == some '/'

/-- Adds a name to the names before it, the latest first. -/
def pushName (rooted : Bool) (names : List String) (name : String) : List String :=
  if name = "" || name = "." then names
  else if name = ".." then
    match names with
    | [] => if rooted then [] else [".."]
    | last :: before => if last = ".." then ".." :: names else before
  else name :: names

/-- The names of a path after cleaning. -/
def cleanNames (path : String) : List String :=
  ((parts '/' path).foldl (pushName (isAbsolute path)) []).reverse

/-- The shortest path that names the same place lexically. -/
def clean (path : String) : String :=
  let joined := "/".intercalate (cleanNames path)
  if isAbsolute path then "/" ++ joined
  else if joined = "" then "."
  else joined

/-- A path below a base, cleaned. Empty parts are left out. -/
def join (base path : String) : String :=
  if base = "" then (if path = "" then "" else clean path)
  else if path = "" then clean base
  else clean (base ++ "/" ++ path)

/-- The absolute path of a path that is relative to a directory. -/
def absolute (directory path : String) : String :=
  if isAbsolute path then clean path else join directory path

/-- A text without its trailing slashes. -/
def dropTrailingSlashes (path : List Char) : List Char :=
  (path.reverse.dropWhile (· == '/')).reverse

/-- The last name of a path. -/
def base (path : String) : String :=
  if path = "" then "."
  else
    let trimmed := dropTrailingSlashes path.toList
    if trimmed.isEmpty then "/"
    else String.ofList (trimmed.reverse.takeWhile (· != '/')).reverse

/-- The extension of the last name, its dot included. -/
def extension (path : String) : String :=
  let name := path.toList.reverse.takeWhile (· != '/')
  if name.contains '.' then String.ofList ('.' :: (name.takeWhile (· != '.')).reverse) else ""

/-- The directory that a path lies in. -/
def directory (path : String) : String :=
  clean (String.ofList (path.toList.reverse.dropWhile (· != '/')).reverse)

/-- The paths of a list divided by colons; the empty text has none. -/
def splitList (paths : String) : List String :=
  if paths = "" then [] else parts ':' paths

/-- The last name without its extension; the whole name if nothing else would be left. -/
def shortName (path : String) : String :=
  let name := base path
  let stem := String.ofList (name.toList.take (name.length - (extension name).length))
  if stem = "" then name else stem

/-- How a cycle is shown: the short names from the first occurrence of a path in a stack,
outermost first, up to the path again. -/
def cycle (stack : List String) (again : String) : String :=
  let entered := if stack.contains again then stack.dropWhile (· != again) else stack
  " -> ".intercalate ((entered ++ [again]).map shortName)

end TermLang.Path
