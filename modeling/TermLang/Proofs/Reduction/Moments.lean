import TermLang.Proofs.Reduction.Agreement

/-!
# The moments of a reduction

A reply says how a reduction has ended and not what was the case in between. Here the moments in
between are listed, in order: a list is entered or left, the program of a file is opened or closed,
each with the files that are being loaded then.

All calls of a level are made with the files of the level, except that a program is reduced with its
own file on top; that is `frameSeen_shows`, by induction on the course of the level. With
`reduceFrame_of_questions`, which says that the calls listed are all that a level depends on, it
follows for all levels that a guard in front of every call is never needed, `reduceGuarded_eq`.

What a run of moments keeps follows from what its brackets keep, lists and files, by `moments_keep`.
The induction is on the depth that is left. What happens between two moments, such as printing, is
not listed.
-/

namespace TermLang

/-! ## What all calls of a level have in common -/

/-- A property of lists holds of what is seen of every call made while some files are being loaded,
and of all that is put together from such lists. -/
structure Watch.Shows {α : Type} (watch : Watch α) (setting : Setting) (loading : List String)
    (holds : List α → Prop) : Prop where
  nothing : holds []
  append : ∀ {seen later}, holds seen → holds later → holds (seen ++ later)
  call : ∀ term scope journal, journal.loading = loading → holds (watch.call term scope journal)
  aside : ∀ term scope journal, journal.loading = loading → holds (watch.aside term scope journal)
  apply : ∀ items, holds (watch.apply items)
  program : ∀ path program scope journal, setting.Opens loading path →
    journal.loading = path :: loading → holds (watch.program path program scope journal)

section

variable {α : Type} {setting : Setting} {below : Evaluator} {watch : Watch α} {seen : List α}
  {failed : Option Fault} {journal journal' : Journal} {loading : List String}
  {holds : List α → Prop}

/-- What holds of every call holds of a query: it loads nothing, so the files stay the same. -/
theorem Asking.shows (runs : below.Runs) (shows : watch.Shows setting loading holds)
    {frame frame' : Frame}
    (asking : Asking below watch frame journal seen failed frame' journal')
    (same : journal.loading = loading) : holds seen := by
  induction asking with
  | noted => exact shows.nothing
  | aside term frame journal => exact shows.aside term frame.inner journal same
  | trans first second before after =>
    exact shows.append (before same) (after ((first.run runs).loading.trans same))

/-- What holds of every call made while some files are being loaded holds of the course of a level
that starts with these files. Only a load changes them, and it has taken its own away again when the
next step begins. -/
theorem Course.shows (runs : below.Runs) (shows : watch.Shows setting loading holds)
    {scope scope' : Scope}
    (course : Course setting below watch scope journal seen failed scope' journal')
    (same : journal.loading = loading) : holds seen := by
  induction course with
  | apply => exact shows.apply _
  | declare => exact shows.apply _
  | define => exact shows.apply _
  | call term scope journal => exact shows.call term scope journal same
  | ask calm asking => exact asking.shows runs shows same
  | load program scope journal found isContent =>
    exact shows.program _ program scope _ (same ▸ found.opens isContent) (congrArg _ same)
  | trans first second before after =>
    exact shows.append (before same) (after ((first.run runs).loading.trans same))
  | _ => exact shows.nothing

/-- So it holds of all that is seen of the level, because the level takes such a course. -/
theorem Reduction.frameSeen_shows (runs : below.Runs) (shows : watch.Shows setting loading holds)
    (items : List Term) (outer : Scope) (same : journal.loading = loading) :
    holds (frameSeen setting below watch items outer journal) :=
  (reduceFrame_course setting watch below items outer journal).shows runs shows same

end

/-! ## A guard -/

/-- What happens at a moment. -/
inductive Happening where
  /-- A list is entered, with this much depth left for it. -/
  | entered (left : Nat)
  /-- The list that was entered last is left. -/
  | left
  /-- The program of a file is about to be reduced. -/
  | opened (path : String)
  /-- The program of a file is not reduced any further. -/
  | closed (path : String)
  deriving DecidableEq, Repr

/-- A moment of a reduction. -/
structure Moment where
  /-- What happens. -/
  happening : Happening
  /-- The files that are being loaded as soon as it has happened, the innermost first. -/
  loading : List String
  deriving DecidableEq, Repr

/-- The moments of the calls below: a program is put between the opening and the closing of its
file. -/
def Watch.ofMoments (evaluate : Evaluator) (inside : Term → Scope → Journal → List Moment) :
    Watch Moment where
  call := inside
  aside := inside
  apply _ := []
  program path program scope journal :=
    ⟨.opened path, journal.loading⟩ :: inside program scope journal ++
      [⟨.closed path, (evaluate program scope journal).journal.exit.loading⟩]

open Reduction in
/-- The moments of a reduction, in order. A list that is too deep is entered and left at once. -/
def moments (setting : Setting) : (left : Nat) → Term → Scope → Journal → List Moment
  | 0, .list items, caller, journal =>
    [⟨.entered 0, journal.loading⟩,
      ⟨.left, (reduce setting 0 (.list items) caller journal).journal.loading⟩]
  | left + 1, .list items, caller, journal =>
    ⟨.entered (left + 1), journal.loading⟩ ::
      frameSeen setting (reduce setting left)
        (.ofMoments (reduce setting left) (moments setting left)) items caller
        (journal.note setting (.reduce (.list items) (setting.maxDepth - left))) ++
      [⟨.left, (reduce setting (left + 1) (.list items) caller journal).journal.loading⟩]
  | _, _, _, _ => []

/-! ## What a run of moments keeps -/

section Keeping

variable {σ α : Type} (step : σ → α → σ) (allows : σ → α → Prop)

/-- A state that changes with every moment allows each of them in turn. -/
def Allowed : σ → List α → Prop
  | _, [] => True
  | state, moment :: rest => allows state moment ∧ Allowed (step state moment) rest

/-- A state that changes with every moment allows each of them in turn, and is the same again after
the last. -/
structure Keeps (state : σ) (seen : List α) : Prop where
  allowed : Allowed step allows state seen
  back : seen.foldl step state = state

/-- Two moments of which the second takes back what the first has changed. -/
structure Brackets (state : σ) (first last : α) : Prop where
  opens : allows state first
  closes : allows (step state first) last
  back : step (step state first) last = state

variable {step allows} {state : σ}

/-- Moments one behind the other are allowed if the first are, and the later ones by what the first
have made of the state. -/
theorem allowed_append {seen later : List α} :
    Allowed step allows state (seen ++ later) ↔
      Allowed step allows state seen ∧ Allowed step allows (seen.foldl step state) later := by
  induction seen generalizing state with
  | nil => simp [Allowed]
  | cons moment rest inductionHypothesis =>
    simp only [List.cons_append, Allowed, List.foldl_cons, inductionHypothesis, and_assoc]

/-- Each moment is allowed by what those before it have made of the state, which is how a law about
all moments is read off in the end. -/
theorem Allowed.along {seen : List α} (allowed : Allowed step allows state seen)
    {before after : List α} {moment : α} (split : seen = before ++ moment :: after) :
    allows (before.foldl step state) moment := by
  rw [split, allowed_append] at allowed
  exact allowed.2.1

/-- Without moments the state is kept. -/
theorem keeps_nil : Keeps step allows state [] :=
  ⟨trivial, rfl⟩

/-- Two runs of moments that both keep a state keep it one behind the other, since it is the same in
between. -/
theorem Keeps.append {seen later : List α} (early : Keeps step allows state seen)
    (late : Keeps step allows state later) : Keeps step allows state (seen ++ later) where
  allowed := by
    rw [allowed_append, early.back]
    exact ⟨early.allowed, late.allowed⟩
  back := by rw [List.foldl_append, early.back, late.back]

/-- What keeps the changed state between two brackets, keeps the state with its brackets: the second
bracket takes back what the first has changed. -/
theorem Keeps.bracketed {first last : α} {inside : List α}
    (kept : Keeps step allows (step state first) inside)
    (brackets : Brackets step allows state first last) :
    Keeps step allows state (first :: inside ++ [last]) where
  allowed := by
    rw [List.cons_append, Allowed, allowed_append, kept.back]
    exact ⟨brackets.opens, kept.allowed, brackets.closes, trivial⟩
  back := by
    rw [List.cons_append, List.foldl_cons, List.foldl_append, kept.back]
    exact brackets.back

end Keeping

/-- A state fits some files and a depth left, and goes on fitting when a list is entered or a file
is opened, until the list is left or the file is closed. -/
structure Bracketing {σ : Type} (setting : Setting) (step : σ → Moment → σ)
    (allows : σ → Moment → Prop) (fits : List String → Nat → σ → Prop) : Prop where
  list : ∀ {loading left state}, fits loading left state →
    Brackets step allows state ⟨.entered left, loading⟩ ⟨.left, loading⟩
  inList : ∀ {loading left state}, fits loading (left + 1) state →
    fits loading left (step state ⟨.entered (left + 1), loading⟩)
  file : ∀ {loading left state path}, setting.Opens loading path → fits loading left state →
    Brackets step allows state ⟨.opened path, path :: loading⟩ ⟨.closed path, loading⟩
  inFile : ∀ {loading left state path}, setting.Opens loading path → fits loading left state →
    fits (path :: loading) left (step state ⟨.opened path, path :: loading⟩)

variable {σ : Type} {setting : Setting} {step : σ → Moment → σ} {allows : σ → Moment → Prop}
variable {fits : List String → Nat → σ → Prop}

/-- What happens while a program is reduced is put between the opening and the closing of its file.
That the files are the same again at the closing is known of every run. -/
theorem Bracketing.program (bracketing : Bracketing setting step allows fits)
    {evaluate : Evaluator} (runs : evaluate.Runs)
    {inside : Term → Scope → Journal → List Moment} {loading : List String} {left : Nat} {state : σ}
    (fitting : fits loading left state) {path : String} (opens : setting.Opens loading path)
    (program : Term) (scope : Scope) {journal : Journal}
    (same : journal.loading = path :: loading)
    (kept : Keeps step allows (step state ⟨.opened path, path :: loading⟩)
      (inside program scope journal)) :
    Keeps step allows state
      ((Watch.ofMoments evaluate inside).program path program scope journal) := by
  have closing : (evaluate program scope journal).journal.exit.loading = loading := by
    rw [Journal.exit, (runs program scope journal).loading, same]
    rfl
  rw [Watch.ofMoments]
  dsimp only
  rw [same, closing]
  exact kept.bracketed (bracketing.file opens fitting)

/-- A run of moments keeps a state that fits from bracket to bracket.

Proof: by induction on the depth that is left. The moments of a level are those of its calls in a
row, and each of them keeps the state that fits inside the list, so that the brackets of the list
take it back. -/
theorem moments_keep (bracketing : Bracketing setting step allows fits) (left : Nat) (term : Term)
    (scope : Scope) (journal : Journal) {state : σ} (fitting : fits journal.loading left state) :
    Keeps step allows state (moments setting left term scope journal) := by
  induction left generalizing term scope journal state with
  | zero =>
    cases term with
    | list items => exact keeps_nil.bracketed (bracketing.list fitting)
    | _ => exact keeps_nil
  | succ left inductionHypothesis =>
    cases term with
    | list items =>
      have runs := reduce_runs setting left
      have within := bracketing.inList fitting
      have shows : (Watch.ofMoments (reduce setting left) (moments setting left)).Shows setting
          journal.loading
          (Keeps step allows (step state ⟨.entered (left + 1), journal.loading⟩)) := by
        have called (term : Term) (scope : Scope) (later : Journal)
            (same : later.loading = journal.loading) :
            Keeps step allows (step state ⟨.entered (left + 1), journal.loading⟩)
              (moments setting left term scope later) :=
          inductionHypothesis term scope later (same ▸ within)
        refine ⟨keeps_nil, Keeps.append, called, called, fun _ => keeps_nil, ?_⟩
        · intro path program scope later opens same
          refine bracketing.program runs within opens program scope same ?_
          exact inductionHypothesis program scope later (same ▸ bracketing.inFile opens within)
      have noted := (Run.note scope journal setting
        (.reduce (.list items) (setting.maxDepth - left))).loading
      rw [moments, (reduce_runs setting (left + 1) (.list items) scope journal).loading]
      exact (Reduction.frameSeen_shows runs shows items scope noted).bracketed
        (bracketing.list fitting)
    | _ => exact keeps_nil

end TermLang
