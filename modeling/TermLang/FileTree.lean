import TermLang.Path
import TermLang.Text.Glyph

/-!
# File trees

A finite tree of directories and files. A path is walked name by name: every name but the last
must be a directory, a double dot goes up, and a single dot or an empty name stays, but only
in a directory.
-/

namespace TermLang

/-- What stands at a path. -/
inductive FileTree.Entry where
  /-- A directory. -/
  | directory
  /-- A file with its bytes. -/
  | file (content : List UInt8)
  deriving DecidableEq, Inhabited, Repr

/-- Why a path cannot be opened or read. -/
inductive FileTree.Failure where
  /-- Nothing stands there. -/
  | absent
  /-- A file is used as a directory. -/
  | notDirectory
  /-- A directory is used as a file. -/
  | isDirectory
  /-- A name, or the whole path, is longer than it can be. -/
  | nameTooLong
  /-- The path holds a zero character. -/
  | invalid
  deriving DecidableEq, Inhabited, Repr

/-- Directories and files by the names on the way to them. The root needs no entry. -/
structure FileTree where
  /-- The entries below the root. -/
  entries : List (List String × FileTree.Entry)
  deriving Inhabited, Repr

namespace FileTree

/-- The failure in words. -/
def Failure.message : Failure → String
  | .absent => "no such file or directory"
  | .notDirectory => "not a directory"
  | .isDirectory => "is a directory"
  | .nameTooLong => "file name too long"
  | .invalid => "invalid argument"

/-- The tree that holds the root only. -/
def empty : FileTree :=
  ⟨[]⟩

/-- What stands behind names that were all taken literally. -/
def find? (tree : FileTree) (names : List String) : Option Entry :=
  if names.isEmpty then some .directory else (tree.entries.find? (·.1 == names)).map (·.2)

/-- Puts an entry in the place of what stands behind some names. -/
def put (tree : FileTree) (names : List String) (entry : Entry) : FileTree :=
  ⟨(names, entry) :: tree.entries.filter (·.1 != names)⟩

/-- Takes away what stands behind some names, and all that lies below it. -/
def erase (tree : FileTree) (names : List String) : FileTree :=
  ⟨tree.entries.filter fun entry => !names.isPrefixOf entry.1⟩

/-- Nothing is left at or below names that were taken away. -/
theorem find?_erase_of_below (tree : FileTree) {names below : List String} (present : names ≠ [])
    (inside : names.isPrefixOf below) : (tree.erase names).find? below = none := by
  have named : below.isEmpty = false := by
    cases below with
    | nil => cases names <;> simp_all [List.isPrefixOf]
    | cons name rest => rfl
  simp only [find?, named, erase]
  simp only [Bool.false_eq_true, if_false, Option.map_eq_none_iff, List.find?_eq_none,
    List.mem_filter]
  intro entry kept same
  have place : entry.1 = below := by simpa using same
  simp [place, inside] at kept

/-- Everything else stays where it is. -/
theorem find?_erase_of_apart (tree : FileTree) {names other : List String}
    (outside : ¬ names.isPrefixOf other) : (tree.erase names).find? other = tree.find? other := by
  simp only [find?, erase, List.find?_filter]
  congr 2
  congr 1
  funext entry
  by_cases same : entry.1 = other
  · simp [same, outside]
  · simp [same]

/-- The longest name there can be, in bytes. -/
def longestName : Nat := 255

/-- The longest path there can be, in bytes, whatever its names are. -/
def longestPath : Nat := 4095

/-- Walks on from a directory, name by name. -/
def walk (tree : FileTree) : (current : List String) → List String →
    Except Failure (List String × Entry)
  | current, [] =>
    match tree.find? current with
    | some entry => .ok (current, entry)
    | none => .error .absent
  | current, name :: rest =>
    match tree.find? current with
    | none => .error .absent
    | some (.file _) => .error .notDirectory
    | some .directory =>
      if name = "" || name = "." then walk tree current rest
      else if name = ".." then walk tree current.dropLast rest
      else if longestName < name.utf8ByteSize then .error .nameTooLong
      else walk tree (current ++ [name]) rest

/-- What stands at a path, seen from a directory. -/
def look (tree : FileTree) (directory path : String) : Except Failure (List String × Entry) :=
  if path = "" then .error .absent
  else if path.toList.contains '\x00' then .error .invalid
  else if longestPath < path.utf8ByteSize then .error .nameTooLong
  else
    let start := if Path.isAbsolute path then [] else Path.cleanNames directory
    walk tree start (Path.parts '/' path)

/-- Whether a file stands at a path. -/
def isFile (tree : FileTree) (directory path : String) : Bool :=
  match tree.look directory path with
  | .ok (_, .file _) => true
  | _ => false

/-- The bytes of the file at a path, or the whole report of why there are none. -/
def read (tree : FileTree) (directory path : String) : Except String (List UInt8) :=
  match tree.look directory path with
  | .ok (_, .file content) => .ok content
  | .ok (_, .directory) => .error ("read " ++ path ++ ": " ++ Failure.message .isDirectory)
  | .error failure => .error ("open " ++ path ++ ": " ++ failure.message)

/-- The directories on the way to the last of some names, the outermost first. -/
def parents (names : List String) : List (List String) :=
  (List.range (names.length - 1)).map fun count => names.take (count + 1)

/-- Whether a file stands behind some names. -/
def holdsFile (tree : FileTree) (names : List String) : Bool :=
  match tree.find? names with
  | some (.file _) => true
  | _ => false

/-- Adds a directory and all directories on the way to it, unless a file is in the way. -/
def addDirectory (tree : FileTree) (names : List String) : FileTree :=
  let places := parents names ++ [names]
  if places.any tree.holdsFile then tree
  else
    places.foldl
      (fun tree names => if names.isEmpty then tree else tree.put names .directory) tree

/-- Adds a file and all directories on the way to it, unless a file is in the way or a directory
in its place. -/
def addFile (tree : FileTree) (names : List String) (content : List UInt8) : FileTree :=
  if (parents names).any tree.holdsFile || tree.find? names = some .directory then tree
  else (tree.addDirectory names.dropLast).put names (.file content)

/-- Writes a file whose directory is there already; `none` if it cannot be written. -/
def write? (tree : FileTree) (directory path : String) (content : List UInt8) : Option FileTree :=
  match tree.look directory path with
  | .ok (names, .file _) => some (tree.put names (.file content))
  | .ok (_, .directory) => none
  | .error _ =>
    let folder := String.ofList (path.toList.reverse.dropWhile (· != '/')).reverse
    let name := String.ofList (path.toList.reverse.takeWhile (· != '/')).reverse
    if name = "" || longestName < name.utf8ByteSize || longestPath < path.utf8ByteSize ||
        path.toList.contains '\x00' then none
    else
      match tree.look directory (if folder = "" then "." else folder) with
      | .ok (names, .directory) =>
        if (tree.find? (names ++ [name])).isSome then none
        else some (tree.put (names ++ [name]) (.file content))
      | _ => none

end FileTree

end TermLang
