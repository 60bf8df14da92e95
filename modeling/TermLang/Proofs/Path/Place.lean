import TermLang.FileTree

/-!
# Cleaned paths and places

Cleaning a path is a matter of its text, walking it one of the file tree. Where a walk comes to an
end, it ends at the place that the cleaned absolute path spells: `look_names`. So of two paths that
lead somewhere, both lead to one place exactly if they have the same absolute path, whatever dots
and double dots they go through. A walk can fail on the way to a place that the cleaned path
reaches; which ones do is not covered.

The names on the way are carried through the induction as they are cleaned: none of them is empty, a
dot or a double dot, and none holds a slash.
-/

namespace TermLang.Path

/-! ## Parts -/

/-- There is at least one part, also of the empty text. The step of splitting relies on it: the
first part of the rest is the one that a character is added to. -/
theorem splitAt_ne_nil (divider : Char) (text : List Char) : splitAt divider text ≠ [] := by
  cases text with
  | nil => exact List.cons_ne_nil _ _
  | cons c rest =>
    rw [splitAt]
    split
    · exact List.cons_ne_nil _ _
    · split
      · exact List.cons_ne_nil _ _
      · exact List.cons_ne_nil _ _

/-- A divider in the middle of a text ends a part and starts one, so splitting can be done on both
sides of it apart. -/
theorem splitAt_append (divider : Char) (text rest : List Char) :
    splitAt divider (text ++ divider :: rest) = splitAt divider text ++ splitAt divider rest := by
  induction text with
  | nil => simp only [List.nil_append, splitAt, if_true, List.singleton_append]
  | cons c others inductionHypothesis =>
    rw [List.cons_append, splitAt, splitAt, inductionHypothesis]
    split
    · rfl
    · cases isSplit : splitAt divider others with
      | nil => exact absurd isSplit (splitAt_ne_nil divider others)
      | cons first more => rfl

/-- A text without a divider is one part: every character is added to the part behind it, and there
is never a second one. -/
theorem splitAt_of_not_mem {divider : Char} {text : List Char} (undivided : divider ∉ text) :
    splitAt divider text = [text] := by
  induction text with
  | nil => rfl
  | cons c rest inductionHypothesis =>
    obtain ⟨here, later⟩ := not_or.mp (mt List.mem_cons.mpr undivided)
    rw [splitAt, if_neg (Ne.symm here), inductionHypothesis later]

/-- No part holds a divider. The induction follows splitting: a divider starts a new part and is
dropped, and any other character goes in front of a part without one. -/
theorem not_mem_of_mem_splitAt {divider : Char} {text part : List Char}
    (member : part ∈ splitAt divider text) : divider ∉ part := by
  induction text generalizing part with
  | nil =>
    rw [List.mem_singleton.mp member]
    exact List.not_mem_nil
  | cons c rest inductionHypothesis =>
    rw [splitAt] at member
    split at member
    · rcases List.mem_cons.mp member with rfl | later
      · exact List.not_mem_nil
      · exact inductionHypothesis later
    · rename_i different
      split at member
      · rw [List.mem_singleton.mp member, List.mem_singleton]
        exact Ne.symm different
      · rename_i first others isSplit
        rcases List.mem_cons.mp member with rfl | later
        · have inFirst : divider ∉ first :=
            inductionHypothesis (isSplit ▸ List.mem_cons_self)
          exact mt List.mem_cons.mp (not_or.mpr ⟨Ne.symm different, inFirst⟩)
        · exact inductionHypothesis (isSplit ▸ List.mem_cons_of_mem _ later)

/-- The parts of a path below another are the parts of both in a row, since the slash between them
ends the last part of the one and starts the first of the other. -/
theorem parts_append (base path : String) :
    parts '/' (base ++ "/" ++ path) = parts '/' base ++ parts '/' path := by
  have spelled : (base ++ "/" ++ path).toList = base.toList ++ '/' :: path.toList := by
    rw [String.toList_append, String.toList_append, List.append_assoc]
    rfl
  rw [parts, spelled, splitAt_append, List.map_append, ← parts, ← parts]

/-- A part of a path holds no slash, so it can be a name as far as slashes go. -/
theorem slashless_of_mem_parts {path name : String} (member : name ∈ parts '/' path) :
    '/' ∉ name.toList := by
  obtain ⟨part, isPart, rfl⟩ := List.mem_map.mp member
  rw [String.toList_ofList]
  exact not_mem_of_mem_splitAt isPart

/-! ## Names -/

/-- A name as it stands in a cleaned path from the root. -/
structure IsName (name : String) : Prop where
  present : name ≠ ""
  noDot : name ≠ "."
  noDoubleDot : name ≠ ".."
  slashless : '/' ∉ name.toList

/-- A name is pushed as it is: it is none of the three parts that have a meaning of their own. -/
theorem pushName_of_isName {name : String} (isName : IsName name) (rooted : Bool)
    (names : List String) : pushName rooted names name = name :: names := by
  have counts : (name = "" || name = ".") = false := by simp [isName.present, isName.noDot]
  simp only [pushName, counts, Bool.false_eq_true, if_false, if_neg isName.noDoubleDot]

/-- Names are pushed one after the other and none takes another away, so cleaning a path of names
only reverses them onto what was there. -/
theorem foldl_pushName_names {names : List String} (named : ∀ name ∈ names, IsName name)
    (rooted : Bool) (before : List String) :
    names.foldl (pushName rooted) before = names.reverse ++ before := by
  induction names generalizing before with
  | nil => rfl
  | cons name rest inductionHypothesis =>
    obtain ⟨here, later⟩ := List.forall_mem_cons.mp named
    rw [List.foldl_cons, pushName_of_isName here, inductionHypothesis later, List.reverse_cons,
      List.append_assoc, List.singleton_append]

/-- From the root, a double dot takes the last name away if there is one; at the root itself it
stays there. A double dot is never left standing, because no name is one. -/
theorem pushName_doubleDot {names : List String} (named : ∀ name ∈ names, IsName name) :
    pushName true names ".." = names.tail := by
  cases names with
  | nil => rfl
  | cons last before =>
    have noDoubleDot := (named last List.mem_cons_self).noDoubleDot
    change (if last = ".." then ".." :: last :: before else before) = before
    exact if_neg noDoubleDot

/-- Names from the root stay names whatever part is added: an empty part and a dot add nothing, a
double dot takes a name away, and anything else without a slash is a name. -/
theorem pushName_named {names : List String} (named : ∀ name ∈ names, IsName name) {part : String}
    (slashless : '/' ∉ part.toList) : ∀ name ∈ pushName true names part, IsName name := by
  by_cases stays : part = "" ∨ part = "."
  · have counts : (part = "" || part = ".") = true := by simpa using stays
    simpa only [pushName, counts, if_true] using named
  · by_cases up : part = ".."
    · rw [up, pushName_doubleDot named]
      exact fun name member => named name (List.mem_of_mem_tail member)
    · obtain ⟨present, noDot⟩ := not_or.mp stays
      have isName : IsName part := ⟨present, noDot, up, slashless⟩
      rw [pushName_of_isName isName]
      exact List.forall_mem_cons.mpr ⟨isName, named⟩

/-- Names from the root stay names through all parts of a path, by the step for one part. -/
theorem foldl_pushName_named {parts names : List String} (named : ∀ name ∈ names, IsName name)
    (slashless : ∀ part ∈ parts, '/' ∉ part.toList) :
    ∀ name ∈ parts.foldl (pushName true) names, IsName name := by
  induction parts generalizing names with
  | nil => exact named
  | cons part rest inductionHypothesis =>
    obtain ⟨here, later⟩ := List.forall_mem_cons.mp slashless
    exact inductionHypothesis (pushName_named named here) later

/-- A path from the root is cleaned to names. For a relative path this fails, since double dots in
front have nothing to take away and remain. -/
theorem cleanNames_named {path : String} (rooted : isAbsolute path = true) :
    ∀ name ∈ cleanNames path, IsName name := by
  intro name member
  rw [cleanNames, rooted, List.mem_reverse] at member
  exact foldl_pushName_named (by simp) (fun part => slashless_of_mem_parts) name member

/-! ## Paths from the root -/

/-- The path from the root through some names. -/
def ofNames (names : List String) : String :=
  "/" ++ "/".intercalate names

/-- A path that continues an absolute one is absolute, because only the first character counts. -/
theorem isAbsolute_append {base : String} (rooted : isAbsolute base = true) (rest : String) :
    isAbsolute (base ++ rest) = true := by
  rw [isAbsolute, beq_iff_eq] at rooted ⊢
  rw [String.toList_append, List.head?_append, rooted]
  rfl

/-- A path from the root is absolute, also the one through no names, which is the root itself. -/
theorem isAbsolute_ofNames (names : List String) : isAbsolute (ofNames names) = true :=
  isAbsolute_append (by decide) _

/-- An absolute path is cleaned to the path from the root through its cleaned names; the empty
result that relative paths write as a dot does not arise. -/
theorem clean_of_absolute {path : String} (rooted : isAbsolute path = true) :
    clean path = ofNames (cleanNames path) := by
  simp only [clean, rooted, if_true, ofNames]

/-- Names joined by slashes have themselves as parts, because none of them holds a slash. There has
to be one, since the empty text has an empty part. -/
theorem parts_intercalate {names : List String} (named : ∀ name ∈ names, IsName name)
    (present : names ≠ []) : parts '/' ("/".intercalate names) = names := by
  induction names with
  | nil => exact absurd rfl present
  | cons name rest inductionHypothesis =>
    obtain ⟨here, later⟩ := List.forall_mem_cons.mp named
    have alone : parts '/' name = [name] := by
      rw [parts, splitAt_of_not_mem here.slashless, List.map_singleton, String.ofList_toList]
    cases rest with
    | nil => exact alone
    | cons next others =>
      rw [String.intercalate_cons_cons, parts_append, alone,
        inductionHypothesis later (List.cons_ne_nil _ _), List.singleton_append]

/-- The names of a path are those that it was made of. So paths from the root are equal only if
their names are, and cleaning one again changes nothing. -/
theorem cleanNames_ofNames {names : List String} (named : ∀ name ∈ names, IsName name) :
    cleanNames (ofNames names) = names := by
  have behindRoot : parts '/' (ofNames names) = "" :: parts '/' ("/".intercalate names) :=
    parts_append "" _
  rw [cleanNames, isAbsolute_ofNames, behindRoot, List.foldl_cons]
  cases names with
  | nil => rfl
  | cons name rest =>
    rw [parts_intercalate named (List.cons_ne_nil _ _), foldl_pushName_names named,
      List.reverse_append, List.reverse_reverse]
    rfl

/-- A path below an absolute one adds its parts to the names of that one. Cleaning goes from left to
right, so the base is finished before the path begins, and double dots of the path then take names
of the base away. -/
theorem cleanNames_below {base : String} (rooted : isAbsolute base = true) (path : String) :
    cleanNames (base ++ "/" ++ path) =
      ((parts '/' path).foldl (pushName true) (cleanNames base).reverse).reverse := by
  have stillRooted := isAbsolute_append (isAbsolute_append rooted "/") path
  rw [cleanNames, stillRooted, parts_append, List.foldl_append, cleanNames, rooted,
    List.reverse_reverse]

/-- What an absolute path is joined to is the path from the root through its cleaned names. The path
must not be empty: joining leaves an empty side out together with the slash. -/
theorem join_of_absolute {base : String} (rooted : isAbsolute base = true) {path : String}
    (present : path ≠ "") : join base path = ofNames (cleanNames (base ++ "/" ++ path)) := by
  have based : base ≠ "" := by
    rintro rfl
    exact absurd rooted (by decide)
  rw [join, if_neg based, if_neg present,
    clean_of_absolute (isAbsolute_append (isAbsolute_append rooted "/") path)]

/-- The absolute path of a path goes from the root through names that are clean, in each of the
three ways to get it: from an absolute path, from a relative one, and from an empty one, which means
the directory. -/
theorem absolute_eq_ofNames {directory : String} (rooted : isAbsolute directory = true)
    (path : String) :
    ∃ names, (∀ name ∈ names, IsName name) ∧ absolute directory path = ofNames names := by
  rw [absolute]
  split
  · rename_i pathRooted
    exact ⟨_, cleanNames_named pathRooted, clean_of_absolute pathRooted⟩
  · by_cases present : path = ""
    · have based : directory ≠ "" := by
        rintro rfl
        exact absurd rooted (by decide)
      refine ⟨_, cleanNames_named rooted, ?_⟩
      rw [present, join, if_neg based, if_pos rfl, clean_of_absolute rooted]
    · exact ⟨_, cleanNames_named (isAbsolute_append (isAbsolute_append rooted "/") path),
        join_of_absolute rooted present⟩

end TermLang.Path

namespace TermLang.FileTree

open TermLang.Path

/-! ## Where a walk ends -/

/-- A walk from a place ends, if anywhere, where the cleaned names lead.

Proof: by induction on the parts, with the names so far as the invariant. The walk and cleaning
treat each part alike; the walk can only fail besides. -/
theorem walk_names {tree : FileTree} {current parts names : List String} {entry : Entry}
    (named : ∀ name ∈ current, IsName name) (slashless : ∀ part ∈ parts, '/' ∉ part.toList)
    (walked : tree.walk current parts = .ok (names, entry)) :
    names = (parts.foldl (pushName true) current.reverse).reverse := by
  induction parts generalizing current with
  | nil =>
    rw [walk] at walked
    split at walked
    · cases walked
      exact (List.reverse_reverse _).symm
    · cases walked
  | cons part rest inductionHypothesis =>
    obtain ⟨here, later⟩ := List.forall_mem_cons.mp slashless
    have backwards : ∀ name ∈ current.reverse, IsName name :=
      fun name member => named name (List.mem_reverse.mp member)
    rw [walk] at walked
    split at walked
    · cases walked
    · cases walked
    · rw [List.foldl_cons]
      split at walked
      · rename_i stays
        rw [pushName.eq_def, if_pos stays]
        exact inductionHypothesis named later walked
      · rename_i counts
        split at walked
        · rename_i up
          rw [up, pushName_doubleDot backwards, List.tail_reverse]
          exact inductionHypothesis (fun name member => named name (List.dropLast_subset _ member))
            later walked
        · rename_i noDoubleDot
          split at walked
          · cases walked
          · have isName : IsName part := by
              simp only [Bool.or_eq_true, decide_eq_true_eq, not_or] at counts
              exact ⟨counts.1, counts.2, noDoubleDot, here⟩
            rw [pushName_of_isName isName, ← List.reverse_concat]
            refine inductionHypothesis ?_ later walked
            exact List.forall_mem_append.mpr ⟨named, List.forall_mem_singleton.mpr isName⟩

/-- What stands at a path stands at the place that its absolute path spells. A look fails on an
empty path, so what remains is a walk from the root or from the directory, and both have their names
cleaned. -/
theorem look_names {tree : FileTree} {directory path : String} {names : List String} {entry : Entry}
    (rooted : isAbsolute directory = true)
    (found : tree.look directory path = .ok (names, entry)) :
    (∀ name ∈ names, IsName name) ∧ absolute directory path = ofNames names := by
  have slashless : ∀ part ∈ parts '/' path, '/' ∉ part.toList := fun part => slashless_of_mem_parts
  rw [look] at found
  split at found
  · cases found
  · rename_i present
    split at found
    · cases found
    · split at found
      · cases found
      · rw [absolute]
        cases isRooted : isAbsolute path with
        | true =>
          simp only [isRooted, if_true] at found ⊢
          have isClean : names = cleanNames path := by
            rw [cleanNames, isRooted]
            exact walk_names (by simp) slashless found
          rw [isClean]
          exact ⟨cleanNames_named isRooted, clean_of_absolute isRooted⟩
        | false =>
          simp only [isRooted, Bool.false_eq_true, if_false] at found ⊢
          have isClean : names = cleanNames (directory ++ "/" ++ path) := by
            rw [cleanNames_below rooted]
            exact walk_names (cleanNames_named rooted) slashless found
          rw [isClean]
          exact ⟨cleanNames_named (isAbsolute_append (isAbsolute_append rooted "/") path),
            join_of_absolute rooted present⟩

/-- Where a walk ends, its entry stands: the last step of a walk looks its names up, and the steps
before only decide which names these are. -/
theorem find?_of_walk {tree : FileTree} {current parts names : List String} {entry : Entry}
    (walked : tree.walk current parts = .ok (names, entry)) : tree.find? names = some entry := by
  induction parts generalizing current with
  | nil =>
    rw [walk] at walked
    split at walked
    · rename_i found
      cases walked
      exact found
    · cases walked
  | cons part rest inductionHypothesis =>
    rw [walk] at walked
    split at walked
    · cases walked
    · cases walked
    · split at walked
      · exact inductionHypothesis walked
      · split at walked
        · exact inductionHypothesis walked
        · split at walked
          · cases walked
          · exact inductionHypothesis walked

/-- Where a look ends, its entry stands, since what comes before the walk can only fail. -/
theorem find?_of_look {tree : FileTree} {directory path : String} {names : List String}
    {entry : Entry} (found : tree.look directory path = .ok (names, entry)) :
    tree.find? names = some entry := by
  rw [look] at found
  split at found
  · cases found
  · split at found
    · cases found
    · split at found
      · cases found
      · exact find?_of_walk found

/-- Only what stands at a path as a file can be read, and the bytes are those of that entry. -/
theorem look_of_read {tree : FileTree} {directory path : String} {content : List UInt8}
    (isContent : tree.read directory path = .ok content) :
    ∃ names, tree.look directory path = .ok (names, .file content) := by
  rw [read] at isContent
  split at isContent
  · rename_i names content' found
    cases isContent
    exact ⟨names, found⟩
  · cases isContent
  · cases isContent

/-- A path and its absolute path are read as the same bytes, if both can be read.

Proof: both looks end at the names that the absolute path spells, and these are the same names,
because an absolute path is its own. Then the same entry stands there. -/
theorem read_absolute {tree : FileTree} {directory path : String} {content content' : List UInt8}
    (rooted : isAbsolute directory = true) (isContent : tree.read directory path = .ok content)
    (again : tree.read directory (absolute directory path) = .ok content') :
    content' = content := by
  obtain ⟨names, found⟩ := look_of_read isContent
  obtain ⟨names', found'⟩ := look_of_read again
  obtain ⟨named, isPath⟩ := look_names rooted found
  obtain ⟨named', isPath'⟩ := look_names rooted found'
  rw [isPath, absolute, if_pos (isAbsolute_ofNames names),
    clean_of_absolute (isAbsolute_ofNames names), cleanNames_ofNames named] at isPath'
  have same : names = names' := by
    rw [← cleanNames_ofNames named, isPath', cleanNames_ofNames named']
  have entries := (find?_of_look found).symm.trans (same ▸ find?_of_look found')
  cases entries
  rfl

end TermLang.FileTree
