import TermLang.Term

/-!
# Bindings

Names bound to terms, in increasing order of the names, each name once. A binding made later
replaces one made earlier.
-/

namespace TermLang

/-- Names with their terms, in increasing order of the names. -/
abbrev Bindings := List (String × Term)

namespace Bindings

/-- The term that a name is bound to. -/
def find? : Bindings → String → Option Term
  | [], _ => none
  | (other, term) :: rest, name => if other = name then some term else find? rest name

/-- Binds a name, which keeps its place if it was bound before. -/
def insert (name : String) (term : Term) : Bindings → Bindings
  | [] => [(name, term)]
  | (other, old) :: rest =>
    if other = name then (name, term) :: rest
    else if name < other then (name, term) :: (other, old) :: rest
    else (other, old) :: insert name term rest

/-- The bindings of both, those of the first in preference. -/
def orElse (preferred : Bindings) : Bindings → Bindings
  | [] => preferred
  | (name, term) :: rest =>
    let merged := orElse preferred rest
    match preferred.find? name with
    | some _ => merged
    | none => merged.insert name term

/-- The bound names. -/
def names (bindings : Bindings) : List String :=
  bindings.map (·.1)

/-- Without bindings no name is found. -/
@[simp]
theorem find?_nil (name : String) : find? [] name = none := rfl

/-- A name that was just bound is found. -/
theorem find?_insert_self (bindings : Bindings) (name : String) (term : Term) :
    (bindings.insert name term).find? name = some term := by
  induction bindings with
  | nil => simp [insert, find?]
  | cons entry rest ih =>
    obtain ⟨other, old⟩ := entry
    by_cases same : other = name
    · simp [insert, find?, same]
    · by_cases before : name < other
      · simp [insert, find?, same, before]
      · simp [insert, find?, same, before, ih]

/-- Binding a name changes no other name. -/
theorem find?_insert_of_ne (bindings : Bindings) (name sought : String) (term : Term)
    (different : name ≠ sought) :
    (bindings.insert name term).find? sought = bindings.find? sought := by
  induction bindings with
  | nil => simp [insert, find?, different]
  | cons entry rest ih =>
    obtain ⟨other, old⟩ := entry
    by_cases same : other = name
    · subst same
      simp [insert, find?, different]
    · by_cases before : name < other
      · simp [insert, find?, same, before, different]
      · simp [insert, find?, same, before, ih]

end Bindings

end TermLang
