import TermLang.Reduction

/-!
# Files that are found and faults that can arise

A load finds a file while others are being loaded, and the file can be opened unless it is one of
them. Most faults of a reduction are about terms, files or depth and not about a source. The only
ones that are about a source come from a load: it has found a file, and the text of the file cannot
be read as a program. Such a fault names the file, so it can be told from the others wherever it
shows up later.

`Fault.Arises` lists the faults that can arise while some files are being loaded. A fault of a file
arises in every file from which loads lead to it. That a reduction raises no others is proved where
all levels are put together.
-/

namespace TermLang

namespace Setting

/-- A load finds a file while others are being loaded, and the file is none of those. -/
structure Finds (setting : Setting) (loading : List String) (path : String) : Prop where
  resolved : ∃ spec, Reduction.resolve setting loading spec = some path
  fresh : path ∉ loading

/-- Loads lead, at any nesting, to a file whose text cannot be read as a program. -/
inductive LeadsToUnread (setting : Setting) :
    (loading : List String) → (path : String) → ParseError → Prop where
  | here {loading : List String} {path : String} {content : List UInt8} {error : ParseError}
      (found : setting.Finds loading path) (isContent : setting.read path = .ok content)
      (failed : readProgram (Text.decode content).chars = .error error) :
      LeadsToUnread setting loading path error
  | through {loading : List String} {outer path : String} {error : ParseError}
      (found : setting.Finds loading outer)
      (further : LeadsToUnread setting (outer :: loading) path error) :
      LeadsToUnread setting loading path error

/-- A file can be opened while others are being loaded: it is none of them, its path is an absolute
one, and it can be read. -/
structure Opens (setting : Setting) (loading : List String) (path : String) : Prop where
  fresh : path ∉ loading
  absolute : ∃ spelling, setting.absolute? spelling = some path
  content : ∃ content, setting.read path = .ok content

/-- A file that a load finds and reads can be opened: its path was made absolute when it was found.
-/
theorem Finds.opens {setting : Setting} {loading : List String} {path : String}
    {content : List UInt8} (found : setting.Finds loading path)
    (isContent : setting.read path = .ok content) : setting.Opens loading path := by
  obtain ⟨spec, resolved⟩ := found.resolved
  obtain ⟨spelling, _, isPath⟩ := Option.bind_eq_some_iff.mp resolved
  exact ⟨found.fresh, ⟨spelling, isPath⟩, content, isContent⟩

end Setting

namespace Fault

/-- The fault of a file whose text cannot be read as a program. -/
def unread (path : String) (error : ParseError) : Fault :=
  .caused .loadFailed ("parse error in " ++ path) (.parse error)

/-- The fault names the file and its error, so two such faults are one only if both agree. The path
stands at the end of the message, behind a text that is always the same. -/
theorem unread_inj {path path' : String} {error error' : ParseError}
    (same : unread path error = unread path' error') : path = path' ∧ error = error' := by
  simp only [unread, caused.injEq, parse.injEq, true_and] at same
  obtain ⟨messages, errors⟩ := same
  refine ⟨?_, errors⟩
  have characters := congrArg String.toList messages
  rw [String.toList_append, String.toList_append] at characters
  exact String.toList_inj.mp (List.append_cancel_left characters)

/-- A fault arises while some files are being loaded. -/
inductive Arises (setting : Setting) (loading : List String) : Fault → Prop where
  | eval (kind : EvalKind) (message : String) : Arises setting loading (.eval kind message)
  | unwritten : Arises setting loading (.plain "write failed")
  | unread {path : String} {error : ParseError}
      (leads : setting.LeadsToUnread loading path error) :
      Arises setting loading (.unread path error)

/-- The fault of a file that cannot be read arises only if loads lead to the file, because no other
fault looks like it. -/
theorem Arises.leads {setting : Setting} {loading : List String} {path : String}
    {error : ParseError} (arises : Arises setting loading (.unread path error)) :
    setting.LeadsToUnread loading path error := by
  generalize isUnread : Fault.unread path error = fault at arises
  cases arises with
  | eval kind message => cases isUnread
  | unwritten => cases isUnread
  | unread leads =>
    obtain ⟨rfl, rfl⟩ := unread_inj isUnread
    exact leads

/-- What arises in a file that is found arises in the one that loads it. For the fault of a file
this adds the file in between to the way that leads there. -/
theorem Arises.through {setting : Setting} {loading : List String} {path : String} {fault : Fault}
    (found : setting.Finds loading path) (inside : Arises setting (path :: loading) fault) :
    Arises setting loading fault := by
  cases inside with
  | eval kind message => exact .eval kind message
  | unwritten => exact .unwritten
  | unread leads => exact .unread (.through found leads)

end Fault

/-- A result fails only with faults that arise while some files are being loaded. -/
def Raises (setting : Setting) (loading : List String) {α : Type} (outcome : Except Fault α) :
    Prop :=
  ∀ fault, outcome = .error fault → fault.Arises setting loading

section

variable {setting : Setting} {loading : List String} {α : Type}

/-- A result is no fault, so nothing has to arise. -/
theorem raises_ok (value : α) : Raises setting loading (.ok value) := by
  intro fault failed
  cases failed

/-- A fault that arises is the only one to look at. -/
theorem raises_error {fault : Fault} (arises : fault.Arises setting loading) :
    Raises (α := α) setting loading (.error fault) := by
  rintro _ ⟨⟩
  exact arises

end

namespace Reduction

/-- The path of a program that was opened is none of those that are being loaded, since that is
tested before anything else. -/
theorem not_mem_of_openProgram {path : String} {source : List Char} {journal : Journal}
    {program : Term} (opened : openProgram path source journal = .ok program) :
    path ∉ journal.loading := by
  intro again
  rw [openProgram, if_pos (List.contains_iff_mem.mpr again)] at opened
  cases opened

variable {setting : Setting}

/-- A file that is not being loaded and cannot be read as a program is a fault that names it, with
the parse error as its cause. -/
theorem openProgram_of_error {path : String} {source : List Char} {journal : Journal}
    {error : ParseError} (fresh : path ∉ journal.loading)
    (failed : readProgram source = .error error) :
    openProgram path source journal = .error (.unread path error) := by
  rw [openProgram, if_neg (by simpa using fresh), failed]
  rfl

/-- A file that is not being loaded is opened if it can be read as a program, and the program is
what was read. -/
theorem openProgram_of_ok {path : String} {source : List Char} {journal : Journal} {program : Term}
    (fresh : path ∉ journal.loading) (read : readProgram source = .ok program) :
    openProgram path source journal = .ok program := by
  rw [openProgram, if_neg (by simpa using fresh), read]

/-- A file that is found and cannot be opened is being loaded already, or its text is wrong. The
former is a fault about files, the latter one to which loads lead. -/
theorem openProgram_raises {path : String} {content : List UInt8} {journal : Journal}
    (resolved : ∃ spec, resolve setting journal.loading spec = some path)
    (isContent : setting.read path = .ok content) :
    Raises setting journal.loading (openProgram path (Text.decode content).chars journal) := by
  by_cases fresh : path ∈ journal.loading
  · rw [openProgram, if_pos (by simpa using fresh)]
    exact raises_error (.eval _ _)
  · cases read : readProgram (Text.decode content).chars with
    | error error =>
      rw [openProgram_of_error fresh read]
      exact raises_error (.unread (.here ⟨resolved, fresh⟩ isContent read))
    | ok program =>
      rw [openProgram_of_ok fresh read]
      exact raises_ok _

/-- Taking an item from one end of a term fails if it is no list or an empty one, with faults that
arise anywhere. -/
theorem endItem_raises (loading : List String) (form : Form) (x : Term) :
    Raises setting loading (endItem form x) := by
  unfold endItem
  split
  · exact raises_error (.eval _ _)
  · exact raises_ok _
  · exact raises_error (.eval _ _)

end Reduction

end TermLang
