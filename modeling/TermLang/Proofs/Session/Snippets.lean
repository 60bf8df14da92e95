import TermLang.Proofs.Reduction.Faults
import TermLang.Session

/-!
# Snippets of what was typed

A snippet of a source points into that source, so it should be shown for errors of that source only.
A call that reads a source fails in one of two ways. Either the source cannot be read, and the fault
is its parse error; or the reduction of what was read fails, and the fault arises in the files that
are being loaded. No report of the second kind looks like a snippet by itself. But a fault carries
the parse error of a loaded file along, and whatever shows a fault over a source takes the parse
error out of it: then the line and the column of another file are shown in the source.

This is the only case in which a snippet is shown wrongly. What the message says is not discussed.
-/

namespace TermLang

namespace Snippet

/-- A report is a snippet of a source that goes by a name. -/
def Shows (source : List Char) (name report : String) : Prop :=
  ∃ line column message, report = render source name line column message

/-- A snippet begins with its header, whose first letter tells it from every other report. -/
theorem Shows.head {source : List Char} {name report : String} (shows : Shows source name report) :
    report.toList.head? = some 'P' := by
  obtain ⟨line, column, message, rfl⟩ := shows
  simp only [render]
  split
  · simp
  · simp

end Snippet

namespace Fault

open Snippet

variable {setting : Setting} {loading : List String}

/-- The report of a fault that arises is no snippet of anything: it begins with another letter, also
if it quotes a parse error further on. -/
theorem Arises.not_shows {fault : Fault} (arises : Arises setting loading fault)
    (source : List Char) (name : String) : ¬ Shows source name fault.report := by
  intro shows
  have head := shows.head
  cases arises with
  | eval kind message => simp [report] at head
  | unwritten => exact absurd head (by decide)
  | unread leads => simp [Fault.unread, report] at head

/-- The fault of a file that cannot be read is reported with the path of the file, in front of the
report of its parse error. -/
theorem report_unread (path : String) (error : ParseError) :
    (unread path error).report =
      "EVAL ERROR: parse error in " ++ path ++ ": " ++ error.report := by
  simp [unread, report, ← String.append_assoc]

/-- A parse error is shown over a source as a snippet of it. It does not matter of which source the
error is, which is how the error of one file comes to be drawn into another. -/
theorem shows_of_parseError {fault : Fault} {error : ParseError}
    (isError : fault.parseError? = some error) (name : String) (source : List Char) :
    fault.reportOver name source =
      render source name error.line (error.position source).2 error.message := by
  rw [reportOver, isError]
  rfl

/-- Shown over a source, a fault that arises is a snippet of the source or its own report, and the
former exactly if it is the fault of a file that cannot be read. -/
theorem Arises.reportOver_cases {fault : Fault} (arises : Arises setting loading fault)
    (name : String) (source : List Char) :
    (∃ path error, setting.LeadsToUnread loading path error ∧ fault = .unread path error ∧
      fault.reportOver name source =
        render source name error.line (error.position source).2 error.message) ∨
    ((¬ ∃ path error, fault = .unread path error) ∧
      fault.reportOver name source = fault.report) := by
  cases arises with
  | eval kind message => exact .inr ⟨by rintro ⟨_, _, ⟨⟩⟩, rfl⟩
  | unwritten => exact .inr ⟨by rintro ⟨_, _, ⟨⟩⟩, rfl⟩
  | @unread path error leads =>
    exact .inl ⟨path, error, leads, rfl, shows_of_parseError rfl name source⟩

end Fault

namespace Session

open Snippet

/-- Ending a call does not change why it failed, since only results are replaced by a value on its
way out. -/
theorem outcome_of_finish {session : Session} {reply : Reply Scope} {fault : Fault}
    (failed : (session.finish reply).outcome = .error fault) : reply.outcome = .error fault := by
  simp only [finish] at failed
  split at failed
  · cases failed
  · exact failed

/-- A call that reads a source fails because the source cannot be read, or with a fault that arises
in the files that are being loaded. The two exclude each other, as the source is read before
anything is reduced. -/
theorem evalSource_fault {session : Session} {source : List Char} {fault : Fault}
    (failed : (session.evalSource source).outcome = .error fault) :
    (∃ error, readList source = .error error ∧ fault = .parse error) ∨
    ((∃ term, readList source = .ok term) ∧
      fault.Arises session.setting session.loading) := by
  rw [evalSource] at failed
  split at failed
  · rename_i error unreadable
    cases failed
    exact .inl ⟨error, unreadable, rfl⟩
  · rename_i term read
    have reduced := outcome_of_finish failed
    exact .inr ⟨⟨term, read⟩, reduce_raises _ _ term session.global session.journal fault reduced⟩

/-- A report shows a fault of a source properly: it is a snippet exactly if the source cannot be
read, and every other fault is reported as it is. -/
structure ShowsProperly (source : List Char) (fault : Fault) (report : String) : Prop where
  snippet : Shows source "" report ↔ ∃ error, readList source = .error error
  unchanged : (∃ term, readList source = .ok term) → report = fault.report

/-- When a call that reads a source fails, its fault is shown over the source properly, unless it is
the fault of a loaded file that cannot be read. The parse error of such a file is shown as a snippet
of the source. -/
theorem fault_shown_properly_iff {session : Session} {source : List Char} {fault : Fault}
    (failed : (session.evalSource source).outcome = .error fault) :
    (ShowsProperly source fault (fault.reportOver "" source) ↔
      ¬ ∃ path error, session.setting.LeadsToUnread session.loading path error ∧
        fault = .unread path error) ∧
    ∀ path error, fault = .unread path error → fault.reportOver "" source =
      render source "" error.line (error.position source).2 error.message := by
  refine ⟨?_, ?_⟩
  · rcases evalSource_fault failed with ⟨error, unreadable, rfl⟩ | ⟨⟨term, read⟩, arises⟩
    · have shown : (Fault.parse error).reportOver "" source = _ :=
        Fault.shows_of_parseError rfl "" source
      constructor
      · rintro _ ⟨_, _, _, same⟩
        cases same
      · intro _
        refine ⟨iff_of_true ⟨_, _, _, shown⟩ ⟨error, unreadable⟩, ?_⟩
        rintro ⟨term, read⟩
        rw [unreadable] at read
        cases read
    · -- The source was read, so a snippet of it is never the right report.
      have readable : ¬ ∃ error, readList source = .error error := by
        rintro ⟨error, unreadable⟩
        rw [read] at unreadable
        cases unreadable
      rcases arises.reportOver_cases "" source with
        ⟨path, error, leads, isUnread, shown⟩ | ⟨noUnread, unchanged⟩
      · constructor
        · intro properly
          exact absurd (properly.snippet.mp ⟨_, _, _, shown⟩) readable
        · intro noneLoaded
          exact absurd ⟨path, error, leads, isUnread⟩ noneLoaded
      · constructor
        · rintro _ ⟨path, error, _, isUnread⟩
          exact noUnread ⟨path, error, isUnread⟩
        · intro _
          rw [unchanged]
          exact ⟨iff_of_false (arises.not_shows source "") readable, fun _ => rfl⟩
  · rintro path error rfl
    exact Fault.shows_of_parseError rfl "" source

/-- The fault of an empty list is reported as it is. -/
theorem fault_of_empty_list_is_unchanged :
    let session := Session.new { (default : Setting) with maxDepth := 10 }
    let source := "(.head ())".toList
    let fault := Fault.eval .emptyList ".head of an empty list"
    (session.evalSource source).outcome = .error fault ∧
      ShowsProperly source fault (fault.reportOver "" source) := by
  intro session source fault
  have failed : (session.evalSource source).outcome = .error fault := rfl
  refine ⟨failed, (fault_shown_properly_iff failed).1.mpr ?_⟩
  rintro ⟨path, error, _, isUnread⟩
  simp [fault, Fault.unread] at isUnread

/-- The source can be read, and loads a file that cannot: the error of the file is shown as a
snippet of the source. -/
theorem error_of_loaded_file_is_shown_in_source :
    let session := Session.new { (default : Setting) with
      maxDepth := 10
      files := ⟨[(["b.lex"], .file (Text.ofString "(b").bytes)]⟩
      directory := some "/" }
    let source := "(.load \"b\")".toList
    let fault := Fault.unread "/b.lex" (.atMark .unclosedBracket ⟨1, 1⟩)
    (session.evalSource source).outcome = .error fault ∧
      fault.report =
        "EVAL ERROR: parse error in /b.lex: PARSE ERROR at 1:1: bracket is never closed" ∧
      fault.reportOver "" source =
        "PARSE ERROR at 1:1: bracket is never closed\n\n   1 | (.load \"b\")\n     | ^\n" ∧
      ¬ ShowsProperly source fault (fault.reportOver "" source) := by
  intro session source fault
  refine ⟨rfl, by decide +kernel, by decide +kernel, ?_⟩
  intro properly
  have shown : fault.reportOver "" source = _ := Fault.shows_of_parseError rfl "" source
  obtain ⟨error, unreadable⟩ := properly.snippet.mp ⟨_, _, _, shown⟩
  cases unreadable

end Session

end TermLang
