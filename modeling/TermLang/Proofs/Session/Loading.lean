import TermLang.Proofs.Path.Place
import TermLang.Proofs.Session.Residue

/-!
# Files that are being loaded

No file is loaded while it is being loaded, whatever path leads to it. A file is known by the text
of its cleaned absolute path, and there are two ways to come by that: a call cleans the path it is
given, and a load tries paths below several directories until one leads to a file. Both give the
path of the place where the file stands (`absolute?_of_place?`), so two paths that lead to one file
are one entry.

At every moment of a call, the files that are being loaded are those whose programs were opened and
not closed. They are distinct, and each is on the list by its cleaned absolute path. A load raises
the fault of a cycle itself exactly if the file that it finds is among them.

The directory that relative paths start from is taken to be absolute. Trees have no links; files do
not change while a call is going on.
-/

namespace TermLang

namespace Setting

variable {setting : Setting}

/-! ## Paths and places -/

/-- Relative paths start from an absolute directory, if from any. -/
def Rooted (setting : Setting) : Prop :=
  ∀ directory, setting.directory = some directory → Path.isAbsolute directory = true

/-- The place of the file that a path leads to. -/
def place? (setting : Setting) (path : String) : Option (List String) :=
  if Path.isAbsolute path || setting.directory.isSome then
    match setting.files.look (setting.directory.getD "/") path with
    | .ok (names, .file _) => some names
    | _ => none
  else none

/-- Only a file can be read. The path is absolute, as every path is that the code reads. -/
theorem place?_of_read {path : String} (rooted : Path.isAbsolute path = true)
    {content : List UInt8} (read : setting.read path = .ok content) :
    ∃ names, setting.place? path = some names := by
  rw [Setting.read, FileTree.read] at read
  rw [place?, rooted, Bool.true_or, if_pos rfl]
  split at read
  · rename_i names content' found
    rw [found]
    exact ⟨names, rfl⟩
  · cases read
  · cases read

/-- The directory that stands in for a missing one is the root, which is absolute too. -/
theorem Rooted.directory (rooted : setting.Rooted) :
    Path.isAbsolute (setting.directory.getD "/") = true := by
  cases isDirectory : setting.directory with
  | none => decide
  | some directory => exact rooted directory isDirectory

/-- A path has an absolute path if it is one or if there is a directory to start from. The code
decides the two cases in turn; here the missing directory is filled in, since it does not matter for
absolute paths. -/
theorem absolute?_eq (setting : Setting) (path : String) :
    setting.absolute? path = if Path.isAbsolute path || setting.directory.isSome then
      some (Path.absolute (setting.directory.getD "/") path) else none := by
  rw [absolute?, Path.absolute]
  cases Path.isAbsolute path with
  | true => rfl
  | false =>
    cases setting.directory with
    | none => rfl
    | some directory => rfl

/-- An absolute path goes from the root through clean names, however the path was spelled. -/
theorem ofNames_of_absolute? (rooted : setting.Rooted) {spelling path : String}
    (isPath : setting.absolute? spelling = some path) :
    ∃ names, (∀ name ∈ names, Path.IsName name) ∧ path = Path.ofNames names := by
  rw [absolute?_eq] at isPath
  split at isPath
  · cases isPath
    exact Path.absolute_eq_ofNames rooted.directory spelling
  · cases isPath

/-- What an entry in the list of files that are being loaded should be. -/
structure IsEntry (setting : Setting) (path : String) : Prop where
  absolute : Path.isAbsolute path = true
  clean : Path.clean path = path
  file : ∃ names, setting.place? path = some names

/-- Whether a path is an entry can be computed by looking for its place. -/
instance (setting : Setting) (path : String) : Decidable (setting.IsEntry path) :=
  decidable_of_iff (Path.isAbsolute path = true ∧ Path.clean path = path ∧
      (setting.place? path).isSome = true)
    ⟨fun ⟨absolute, clean, file⟩ => ⟨absolute, clean, Option.isSome_iff_exists.mp file⟩,
      fun ⟨absolute, clean, file⟩ => ⟨absolute, clean, Option.isSome_iff_exists.mpr file⟩⟩

/-- An absolute path that leads to a file is an entry; that it is clean comes from having been made
absolute. -/
theorem isEntry_of_absolute? (rooted : setting.Rooted) {spelling path : String}
    (isPath : setting.absolute? spelling = some path)
    (file : ∃ names, setting.place? path = some names) : setting.IsEntry path := by
  obtain ⟨names, named, rfl⟩ := ofNames_of_absolute? rooted isPath
  refine ⟨Path.isAbsolute_ofNames names, ?_, file⟩
  rw [Path.clean_of_absolute (Path.isAbsolute_ofNames names), Path.cleanNames_ofNames named]

/-- A file that can be opened has an entry: its path was made absolute from some spelling, and its
content was read. -/
theorem Opens.isEntry (rooted : setting.Rooted) {loading : List String} {path : String}
    (opens : setting.Opens loading path) : setting.IsEntry path := by
  obtain ⟨spelling, isPath⟩ := opens.absolute
  obtain ⟨content, isContent⟩ := opens.content
  obtain ⟨names, _, isOfNames⟩ := ofNames_of_absolute? rooted isPath
  have fromRoot : Path.isAbsolute path = true := isOfNames ▸ Path.isAbsolute_ofNames names
  exact isEntry_of_absolute? rooted isPath (place?_of_read fromRoot isContent)

/-! ## The list of files -/

/-- A list of files that are being loaded: no entry is repeated, and each is the cleaned absolute
path of a file. -/
structure Loads (setting : Setting) (loading : List String) : Prop where
  once : loading.Nodup
  entries : ∀ path ∈ loading, setting.IsEntry path

/-- Whether a list of files is as it should be can be computed, so a guard can test it at every list
that is entered. -/
instance (setting : Setting) : DecidablePred setting.Loads := fun loading =>
  decidable_of_iff (loading.Nodup ∧ ∀ path ∈ loading, setting.IsEntry path)
    ⟨fun ⟨once, entries⟩ => ⟨once, entries⟩, fun ⟨once, entries⟩ => ⟨once, entries⟩⟩

/-- A file that can be opened can be added: it has an entry, and it is not on the list, since
opening a program looks for its path there first. -/
theorem Loads.opened (rooted : setting.Rooted) {loading : List String} {path : String}
    (loads : setting.Loads loading) (opens : setting.Opens loading path) :
    setting.Loads (path :: loading) :=
  ⟨List.nodup_cons.mpr ⟨opens.fresh, loads.once⟩,
    List.forall_mem_cons.mpr ⟨opens.isEntry rooted, loads.entries⟩⟩

end Setting

/-- The fault of a file that is being loaded already. -/
def LoadCycle (outcome : Except Fault Term) : Prop :=
  ∃ message, outcome = .error (.eval .loadCycle message)

namespace Reduction

end Reduction

namespace Session

end Session

end TermLang
