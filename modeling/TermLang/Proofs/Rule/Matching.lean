import TermLang.Proofs.Term.Equality
import TermLang.Rule

/-!
# What matching decides

A pattern describes the terms that it can be filled in to become: each variable by one term wherever
it occurs, each wildcard by any term each time. Matching a term decides whether it equals one of
these. The bindings that it leaves are the description of all ways to do so: an assignment fills the
pattern in to something equal to the term exactly when it agrees with the bindings. Everything else
about matching follows from that, and the induction over patterns and items carries exactly it, with
the bindings made so far as a second condition on the assignment.

Bindings that are left by a mismatch are not covered.
-/

namespace TermLang

/-- A term is a part of another: the other itself, or a part of one of its items. -/
inductive Term.PartOf (part : Term) : Term → Prop where
  | whole : PartOf part part
  | item {item : Term} {items : List Term} (member : item ∈ items) (inside : PartOf part item) :
      PartOf part (.list items)

/-- All numbers of a part are numbers if those of the whole are: the atoms of a part are atoms of
the whole, and being free of NaN speaks of atoms only. -/
theorem Term.PartOf.naNFree {part whole : Term} (inside : part.PartOf whole)
    (numeric : whole.NaNFree) : part.NaNFree := by
  induction inside with
  | whole => exact numeric
  | item member _ inductionHypothesis =>
    apply inductionHypothesis
    exact (Term.naNFree_list_iff _).mp numeric _ member

/-- The items of a part are parts, which the second constructor says only of the whole. The
induction walks from the whole to the part and steps once more at its end. -/
theorem Term.PartOf.items {items : List Term} {whole : Term}
    (inside : (Term.list items).PartOf whole) : ∀ item ∈ items, item.PartOf whole := by
  induction inside with
  | whole =>
    intro item member
    exact .item member .whole
  | item member _ inductionHypothesis =>
    intro inner innerMember
    exact .item member (inductionHypothesis inner innerMember)

namespace Rule

/-- A pattern is filled in by an assignment: each variable becomes the term assigned to its name,
each wildcard becomes any term, and everything else stays as it is. -/
inductive Fills (assigned : String → Term) : (pattern filled : Term) → Prop where
  | var (name : String) : Fills assigned (.var name) (assigned name)
  | wildcard (name : String) (anything : Term) : Fills assigned (.wildcard name) anything
  | list {patterns items : List Term} (each : List.Forall₂ (Fills assigned) patterns items) :
      Fills assigned (.list patterns) (.list items)
  | atom {atom : Term} (atomic : atom.isList = false) (plain : atom.isPattern = false) :
      Fills assigned atom atom

/-- An assignment makes a pattern equal to a term. -/
def Solves (assigned : String → Term) (pattern term : Term) : Prop :=
  ∃ filled, Fills assigned pattern filled ∧ filled.equal term = true

/-- An assignment gives each bound name a term equal to the one that it is bound to. -/
def Agrees (bindings : Bindings) (assigned : String → Term) : Prop :=
  ∀ name bound, bindings.find? name = some bound → (assigned name).equal bound = true

variable {assigned : String → Term}

/-! ## Solutions by the shape of the pattern -/

/-- A variable is solved by what is assigned to it and by nothing else. The case of an atom does not
arise, because a variable is a pattern. -/
theorem solves_var (name : String) (term : Term) :
    Solves assigned (.var name) term ↔ (assigned name).equal term = true := by
  constructor
  · rintro ⟨filled, fills, equal⟩
    cases fills with
    | var => exact equal
    | atom atomic plain => cases plain
  · intro equal
    exact ⟨assigned name, .var name, equal⟩

/-- A wildcard is solved by every assignment, since the term itself can be filled in. It has to be
free of NaN, because a term with one does not equal itself. -/
theorem solves_wildcard (name : String) {term : Term} (numeric : term.NaNFree) :
    Solves assigned (.wildcard name) term :=
  ⟨term, .wildcard name term, numeric.equal_self⟩

/-- An atom that is not a pattern is solved by every assignment or by none: filled in, it stays as
it is. -/
theorem solves_atom {atom : Term} (atomic : atom.isList = false) (plain : atom.isPattern = false)
    (term : Term) : Solves assigned atom term ↔ atom.equal term = true := by
  constructor
  · rintro ⟨filled, fills, equal⟩
    cases fills with
    | var name => cases plain
    | wildcard name => cases plain
    | list each => cases atomic
    | atom => exact equal
  · intro equal
    exact ⟨atom, .atom atomic plain, equal⟩

/-- A list is solved item by item. The assignment is the same for all items, which is how a variable
that occurs twice comes to mean one term.

Proof: to the right by induction on the filled items beside the terms, to the left by collecting the
filled items one after the other. -/
theorem solves_list (patterns terms : List Term) :
    Solves assigned (.list patterns) (.list terms) ↔
      List.Forall₂ (Solves assigned) patterns terms := by
  constructor
  · rintro ⟨filled, fills, equal⟩
    cases fills with
    | list each =>
      rw [Term.equal_list_list] at equal
      induction each generalizing terms with
      | nil =>
        cases equal
        exact .nil
      | cons fills _ inductionHypothesis =>
        cases equal with
        | cons equal others => exact .cons ⟨_, fills, equal⟩ (inductionHypothesis _ others)
    | atom atomic plain => cases atomic
  · intro each
    induction each with
    | nil => exact ⟨.list [], .list .nil, rfl⟩
    | cons solved _ inductionHypothesis =>
      obtain ⟨first, fillsFirst, equalFirst⟩ := solved
      obtain ⟨rest, fillsRest, equalRest⟩ := inductionHypothesis
      cases fillsRest with
      | list each =>
        rw [Term.equal_list_list] at equalRest
        refine ⟨.list (first :: _), .list (.cons fillsFirst each), ?_⟩
        rw [Term.equal_list_list]
        exact .cons equalFirst equalRest
      | atom atomic plain => cases atomic

/-- A list stands for lists only: filled in it is still a list, and equality never relates a list to
an atom. -/
theorem not_solves_list {patterns : List Term} {term : Term} (atomic : term.isList = false) :
    ¬ Solves assigned (.list patterns) term := by
  rintro ⟨filled, fills, equal⟩
  cases fills with
  | list each =>
    obtain ⟨items, rfl⟩ := Term.exists_items_of_equal equal
    cases atomic
  | atom listless plain => cases listless

/-! ## Bindings describe the solutions -/

/-- Without bindings there is no condition: every assignment agrees, so a match that starts without
bindings speaks of all of them. -/
theorem agrees_nil (assigned : String → Term) : Agrees [] assigned := by
  intro name bound found
  cases found

/-- A new binding is one more condition, and the old ones remain. The name has to be unbound before,
since otherwise the new term takes the place of the old one, and an assignment no longer has to
agree with that. -/
theorem agrees_insert {bindings : Bindings} {name : String}
    (unbound : bindings.find? name = none) (term : Term) :
    Agrees (bindings.insert name term) assigned ↔
      Agrees bindings assigned ∧ (assigned name).equal term = true := by
  constructor
  · intro agrees
    constructor
    · intro other bound found
      have different : name ≠ other := by
        rintro rfl
        rw [unbound] at found
        cases found
      exact agrees other bound ((bindings.find?_insert_of_ne name other term different).trans found)
    · exact agrees name term (bindings.find?_insert_self name term)
  · rintro ⟨agrees, equal⟩ other bound found
    by_cases same : name = other
    · subst same
      rw [Bindings.find?_insert_self] at found
      cases found
      exact equal
    · rw [Bindings.find?_insert_of_ne _ _ _ _ same] at found
      exact agrees other bound found

mutual

/-- Matching decides which assignments, among those that agree with the bindings so far, solve the
pattern: it succeeds if there may be some, and these are the ones that agree with its bindings.

Proof: by the shape of the pattern. A wildcard and an atom add no condition, a variable adds one or
compares with the term that it is bound to, and a list hands the bindings from item to item. -/
theorem matchTerm_exact (pattern : Term) {term : Term} (numeric : term.NaNFree)
    (bindings : Bindings) :
    (matchTerm pattern term bindings).1 = true ∧
        Agrees (matchTerm pattern term bindings).2 assigned ↔
      Agrees bindings assigned ∧ Solves assigned pattern term := by
  cases pattern with
  | wildcard name => simp [matchTerm, solves_wildcard name numeric]
  | var name =>
    rw [solves_var]
    simp only [matchTerm]
    split
    · rename_i bound found
      -- Under agreement the variable's term equals the bound one, so either may be compared.
      constructor
      · rintro ⟨equal, agrees⟩
        exact ⟨agrees, Term.equal_trans (agrees name bound found) equal⟩
      · rintro ⟨agrees, equal⟩
        rw [Term.equal_congr_left (agrees name bound found)] at equal
        exact ⟨equal, agrees⟩
    · rename_i unbound
      simp only [agrees_insert unbound, true_and]
  | list patterns =>
    cases term with
    | list terms =>
      rw [solves_list]
      simp only [matchTerm]
      split
      · rename_i sameLength
        exact matchItems_exact patterns sameLength ((Term.naNFree_list_iff terms).mp numeric)
          bindings
      · rename_i otherLength
        have unsolved : ¬ List.Forall₂ (Solves assigned) patterns terms :=
          fun each => otherLength each.length_eq
        simp [unsolved]
    | _ => simpa [matchTerm, Term.equal] using fun _ => not_solves_list rfl
  | _ =>
    rw [solves_atom rfl rfl]
    exact and_comm

/-- So does matching item by item. The bindings of the first item are the ones that the others are
matched with, and a mismatch ends the walk, so that nothing has to be said of the bindings it
leaves. -/
theorem matchItems_exact (patterns : List Term) {terms : List Term}
    (sameLength : patterns.length = terms.length) (numeric : ∀ term ∈ terms, term.NaNFree)
    (bindings : Bindings) :
    (matchItems patterns terms bindings).1 = true ∧
        Agrees (matchItems patterns terms bindings).2 assigned ↔
      Agrees bindings assigned ∧ List.Forall₂ (Solves assigned) patterns terms := by
  cases patterns with
  | nil =>
    cases terms with
    | nil => simp [matchItems]
    | cons term others => cases sameLength
  | cons pattern rest =>
    cases terms with
    | nil => cases sameLength
    | cons term others =>
      obtain ⟨here, later⟩ := List.forall_mem_cons.mp numeric
      have first := matchTerm_exact pattern here bindings
      rw [List.forall₂_cons, ← and_assoc, ← first]
      simp only [matchItems]
      cases result : matchTerm pattern term bindings with
      | mk matched extended =>
        cases matched with
        | true =>
          simp only [true_and]
          exact matchItems_exact rest (Nat.succ.inj sameLength) later extended
        | false => simp

end

/-! ## What is bound -/

/-- A name is bound after a binding is made if it was before or is the one. Unlike the condition on
assignments this holds of bound names too, so no hypothesis is needed. -/
theorem isSome_find?_insert (bindings : Bindings) (name sought : String) (term : Term) :
    ((bindings.insert name term).find? sought).isSome ↔
      (bindings.find? sought).isSome ∨ sought = name := by
  by_cases same : name = sought
  · subst same
    simp [Bindings.find?_insert_self]
  · simp [Bindings.find?_insert_of_ne _ _ _ _ same, Ne.symm same]

mutual

/-- A match binds the variables of the pattern, besides those that were bound before. A variable
that was bound already stays bound, and all other atoms bind nothing.

The terms play no role, so they may hold NaN here. -/
theorem matchTerm_names (pattern term : Term) (bindings : Bindings)
    (matched : (matchTerm pattern term bindings).1 = true) (name : String) :
    ((matchTerm pattern term bindings).2.find? name).isSome ↔
      (bindings.find? name).isSome ∨ .var name ∈ pattern.atoms := by
  cases pattern with
  | var own =>
    simp only [matchTerm]
    split
    · rename_i bound found
      simp only [Term.atoms, List.mem_singleton, Term.var.injEq]
      constructor
      · exact .inl
      · rintro (before | rfl)
        · exact before
        · simp [found]
    · simp [isSome_find?_insert, Term.atoms]
  | list patterns =>
    cases term with
    | list terms =>
      simp only [matchTerm] at matched ⊢
      split at matched
      · rename_i sameLength
        rw [if_pos sameLength, Term.atoms_list]
        exact matchItems_names patterns terms sameLength bindings matched name
      · cases matched
    | _ => simp [matchTerm, Term.equal] at matched
  | _ => simp [matchTerm, Term.atoms]

/-- So does a match item by item: the variables of a list of patterns are those of its patterns in a
row, and each pattern binds its own. -/
theorem matchItems_names (patterns terms : List Term) (sameLength : patterns.length = terms.length)
    (bindings : Bindings) (matched : (matchItems patterns terms bindings).1 = true)
    (name : String) :
    ((matchItems patterns terms bindings).2.find? name).isSome ↔
      (bindings.find? name).isSome ∨ .var name ∈ Term.atomsOf patterns := by
  cases patterns with
  | nil => simp [matchItems, Term.atomsOf]
  | cons pattern rest =>
    cases terms with
    | nil => cases sameLength
    | cons term others =>
      have first := matchTerm_names pattern term bindings
      simp only [matchItems] at matched ⊢
      cases result : matchTerm pattern term bindings with
      | mk isMatch extended =>
        rw [result] at first matched
        cases isMatch with
        | true =>
          have later := matchItems_names rest others (Nat.succ.inj sameLength) extended matched name
          simp only
          rw [later, first rfl name, Term.atomsOf, List.mem_append, or_assoc]
        | false => cases matched

end

mutual

/-- Matching binds parts of the matched term, also if it ends in a mismatch. The whole is fixed, and
the induction goes down to the parts of it that the patterns of a list meet. -/
theorem matchTerm_parts {whole : Term} (pattern : Term) {term : Term} (inside : term.PartOf whole)
    {bindings : Bindings}
    (known : ∀ name bound, bindings.find? name = some bound → bound.PartOf whole) :
    ∀ name bound, (matchTerm pattern term bindings).2.find? name = some bound →
      bound.PartOf whole := by
  cases pattern with
  | var own =>
    simp only [matchTerm]
    split
    · exact known
    · intro name bound found
      by_cases same : own = name
      · subst same
        rw [Bindings.find?_insert_self] at found
        cases found
        exact inside
      · rw [Bindings.find?_insert_of_ne _ _ _ _ same] at found
        exact known name bound found
  | list patterns =>
    cases term with
    | list terms =>
      simp only [matchTerm]
      split
      · apply matchItems_parts patterns _ known
        intro term member
        exact inside.items term member
      · exact known
    | _ => exact known
  | _ => exact known

/-- So does matching item by item, whatever the lengths are: what a mismatch leaves has been bound
on the way and consists of parts as well. -/
theorem matchItems_parts {whole : Term} (patterns : List Term) {terms : List Term}
    (inside : ∀ term ∈ terms, term.PartOf whole) {bindings : Bindings}
    (known : ∀ name bound, bindings.find? name = some bound → bound.PartOf whole) :
    ∀ name bound, (matchItems patterns terms bindings).2.find? name = some bound →
      bound.PartOf whole := by
  cases patterns with
  | nil => exact known
  | cons pattern rest =>
    cases terms with
    | nil => exact known
    | cons term others =>
      obtain ⟨here, later⟩ := List.forall_mem_cons.mp inside
      have extendedKnown := matchTerm_parts pattern here known
      simp only [matchItems]
      cases result : matchTerm pattern term bindings with
      | mk isMatch extended =>
        rw [result] at extendedKnown
        cases isMatch with
        | true => exact matchItems_parts rest later extendedKnown
        | false => exact extendedKnown

end

/-! ## Filling in -/

/-- What filling in puts in the place of a name: the term that it is bound to, or the variable. -/
def lookUp (bindings : Bindings) (name : String) : Term :=
  (bindings.find? name).getD (.var name)

mutual

/-- Filling in is one pass: without wildcards it is the only way in which the bound terms themselves
can take the places of the variables. -/
theorem eq_substitute_of_fills {bindings : Bindings} {pattern filled : Term}
    (fixed : ∀ atom ∈ pattern.atoms, atom.isWildcard = false)
    (fills : Fills (lookUp bindings) pattern filled) : filled = substitute bindings pattern := by
  cases pattern with
  | list patterns =>
    cases fills with
    | @list _ items each =>
      rw [substitute, eq_substituteItems_of_fills (Term.forall_atoms_list.mp fixed) each]
    | atom atomic plain => cases atomic
  | wildcard name =>
    have contradiction := fixed (.wildcard name) (List.mem_singleton_self _)
    cases contradiction
  | var name =>
    cases fills with
    | var => rfl
    | atom atomic plain => cases plain
  | _ =>
    cases fills
    rfl

/-- So it is for items: filling in walks over a list, and at each item there is one way only. -/
theorem eq_substituteItems_of_fills {bindings : Bindings} {patterns items : List Term}
    (fixed : ∀ pattern ∈ patterns, ∀ atom ∈ pattern.atoms, atom.isWildcard = false)
    (each : List.Forall₂ (Fills (lookUp bindings)) patterns items) :
    items = substituteItems bindings patterns := by
  cases patterns with
  | nil =>
    cases each
    rfl
  | cons pattern rest =>
    obtain ⟨here, later⟩ := List.forall_mem_cons.mp fixed
    cases each with
    | cons fills others =>
      rw [substituteItems, eq_substitute_of_fills here fills,
        eq_substituteItems_of_fills later others]

end

/-! ## The bindings of a match -/

/-- Bindings are the solution of a pattern for a term. -/
structure IsSolution (pattern term : Term) (bindings : Bindings) : Prop where
  /-- The variables of the pattern are bound, and no others: those of the term are not. -/
  names : ∀ name, (bindings.find? name).isSome ↔ .var name ∈ pattern.atoms
  /-- What is bound stands in the term as it is. -/
  parts : ∀ name bound, bindings.find? name = some bound → bound.PartOf term
  /-- Without wildcards, the bound terms in the places of the variables give the term back. -/
  filled : (∀ atom ∈ pattern.atoms, atom.isWildcard = false) →
    Fills (lookUp bindings) pattern (substitute bindings pattern) ∧
      (substitute bindings pattern).equal term = true
  /-- Every other assignment that gives the term back agrees on every name. -/
  unique : ∀ assigned filled, Fills assigned pattern filled → filled.equal term = true →
    ∀ name bound, bindings.find? name = some bound → (assigned name).equal bound = true

/-- Every name is looked up as what it is bound to, which is equal to itself. That it is bound to a
part of the matched term is used here: the part inherits that no number is NaN. -/
theorem agrees_lookUp {bindings : Bindings} {term : Term} (numeric : term.NaNFree)
    (parts : ∀ name bound, bindings.find? name = some bound → bound.PartOf term) :
    Agrees bindings (lookUp bindings) := by
  intro name bound found
  have numericBound := (parts name bound found).naNFree numeric
  rw [lookUp, found]
  exact numericBound.equal_self

/-- The bindings of a match solve the pattern: they agree with themselves, and by the law of
matching an assignment that agrees with the bindings left solves the pattern. -/
theorem solves_of_matched {pattern term : Term} (numeric : term.NaNFree)
    (matched : (matchTerm pattern term []).1 = true) :
    Solves (lookUp (matchTerm pattern term []).2) pattern term := by
  have parts : ∀ name bound, (matchTerm pattern term []).2.find? name = some bound →
      bound.PartOf term := matchTerm_parts pattern .whole nofun
  exact ((matchTerm_exact pattern numeric []).mp ⟨matched, agrees_lookUp numeric parts⟩).2

/-- A pattern matches a term exactly when some assignment fills it in to something equal to the
term, and then the bindings are the solution. -/
theorem matching_decides_solutions (pattern term : Term) (numeric : term.NaNFree) :
    ((matchTerm pattern term []).1 = true ↔
        ∃ assigned filled, Fills assigned pattern filled ∧ filled.equal term = true) ∧
      ((matchTerm pattern term []).1 = true →
        IsSolution pattern term (matchTerm pattern term []).2) := by
  have solved {assigned : String → Term} {filled : Term} (fills : Fills assigned pattern filled)
      (equal : filled.equal term = true) :=
    (matchTerm_exact pattern numeric []).mpr ⟨agrees_nil assigned, filled, fills, equal⟩
  constructor
  · constructor
    · intro matched
      exact ⟨_, solves_of_matched numeric matched⟩
    · rintro ⟨assigned, filled, fills, equal⟩
      exact (solved fills equal).1
  · intro matched
    refine ⟨?_, ?_, ?_, ?_⟩
    · intro name
      rw [matchTerm_names pattern term [] matched name]
      simp
    · exact matchTerm_parts pattern .whole nofun
    · intro fixed
      obtain ⟨filled, fills, equal⟩ := solves_of_matched numeric matched
      obtain rfl := eq_substitute_of_fills fixed fills
      exact ⟨fills, equal⟩
    · intro assigned filled fills equal
      exact (solved fills equal).2

/-- The pattern `(X (Y X))` matches `((Y 1) (_ (Y 1)))`: the variable and the wildcard of the term
are data. -/
theorem variables_match_variables :
    let pattern : Term := .list [.var "X", .list [.var "Y", .var "X"]]
    let term : Term :=
      .list [.list [.var "Y", .number 1], .list [.wildcard "_", .list [.var "Y", .number 1]]]
    let bindings : Bindings := [("X", .list [.var "Y", .number 1]), ("Y", .wildcard "_")]
    term.NaNFree ∧ matchTerm pattern term [] = (true, bindings) ∧
      IsSolution pattern term bindings := by
  intro pattern term bindings
  have numeric : term.NaNFree := by
    intro atom member value isNumber
    subst isNumber
    simp [term, Term.atoms, Term.atomsOf] at member
    subst member
    decide
  have found : matchTerm pattern term [] = (true, bindings) := by
    rfl
  have decided := matching_decides_solutions pattern term numeric
  rw [found] at decided
  exact ⟨numeric, found, decided.2 rfl⟩

end Rule

end TermLang
