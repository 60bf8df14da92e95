import TermLang.Proofs.Reader.Position

/-!
# No error is about a blank

Blanks divide atoms wherever they stand, so no error reports one: neither is a blank an invalid
character, nor does the run of an invalid symbol start with one. Where an error points, it points at
something that can be seen.

An error arises from one character: the reader has got as far as that character, and its state
covers what stands in front of it. So the signs that the state holds are legal, and one of them, or
the character itself, is what the error is about.
-/

namespace TermLang

open Reader Grammar

namespace ParseError

/-- No blank is what an error reports, or what the text of the error starts with. -/
def SparesBlanks (error : ParseError) : Prop :=
  ∀ c, isDivider c = true → error.code ≠ c.toNat ∧ error.text.toList.head? ≠ some c

/-- A blank is one of four characters. -/
theorem divider_cases {c : Char} (divides : isDivider c = true) :
    c = ' ' ∨ c = '\t' ∨ c = '\r' ∨ c = '\n' := by
  simpa [isDivider, or_assoc] using divides

/-- No blank has the code zero, which stands for no character. -/
theorem code_ne_zero_of_divider {c : Char} (divides : isDivider c = true) :
    (0 : Int) ≠ c.toNat := by
  rcases divider_cases divides with rfl | rfl | rfl | rfl <;> decide

/-- An error without a character spares blanks if its text does not start with one. Its code is then
zero, which is the code of no blank. -/
theorem sparesBlanks_of_text {error : ParseError} (noCode : error.code = 0)
    (text : ∀ c, isDivider c = true → error.text.toList.head? ≠ some c) : error.SparesBlanks := by
  intro c divides
  rw [noCode]
  exact ⟨code_ne_zero_of_divider divides, text c divides⟩

/-- An error that says nothing but a place names no character and quotes no text, so it spares
blanks. -/
theorem sparesBlanks_atMark (kind : Kind) (mark : Mark) : (atMark kind mark).SparesBlanks :=
  sparesBlanks_of_text rfl (by simp [atMark])

/-- An invalid character that is no blank. The error names it by its code, and different characters
have different codes; it quotes no text. -/
theorem sparesBlanks_invalidCharacter {c : Char} (visible : isDivider c = false) (mark : Mark) :
    (invalidCharacter c mark).SparesBlanks := by
  intro other divides
  constructor
  · intro same
    have equal : c = other := by
      rw [← Char.ofNat_toNat c, ← Char.ofNat_toNat other, Int.ofNat.inj same]
    rw [equal, divides] at visible
    cases visible
  · simp [invalidCharacter, atMark]

/-- What an atom is made of is no blank. -/
theorem visible_of_signChar {c : Char} (isSign : isSignChar c = true) : isDivider c = false := by
  rw [← Bool.not_eq_true]
  intro divides
  rcases divider_cases divides with rfl | rfl | rfl | rfl <;> exact absurd isSign (by decide)

/-- The first character of a sign is no blank: it is a character that atoms are made of, or the
quote in front of a text. -/
theorem visible_of_legal {sign : Sign} (legal : SignLegal sign) : isDivider sign.first = false := by
  obtain ⟨_, _, isSign | isQuote⟩ := source_of_legal legal
  · exact visible_of_signChar isSign
  · rw [isQuote]
    rfl

end ParseError

namespace Reader

open ParseError

/-! ## Runs and pieces -/

/-- What is wrong with a run of legal signs is no blank.

Proof: an error of a run names one of its signs, or quotes the run from its first sign on, or starts
with a word of the message. The signs are visible because they are legal, and the message starts
with a letter. -/
theorem sparesBlanks_of_atom {first : Sign} {rest : List Sign} {error : ParseError}
    (legal : ∀ sign ∈ first :: rest, SignLegal sign) (failed : atom first rest = .error error) :
    error.SparesBlanks := by
  obtain ⟨sign, member, rfl⟩ | rfl | ⟨numeral, _, _, _, _, rfl⟩ := atom_error failed
  · exact sparesBlanks_invalidCharacter (visible_of_legal (legal sign member)) _
  · have firstLegal := legal first List.mem_cons_self
    obtain ⟨⟨more, source⟩, _⟩ := source_of_legal firstLegal
    refine sparesBlanks_of_text rfl ?_
    intro c divides starts
    have isFirst : first.first = c := by
      simpa [invalidRun, source] using starts
    have visible := visible_of_legal firstLegal
    rw [isFirst, divides] at visible
    cases visible
  · refine sparesBlanks_of_text rfl ?_
    intro c divides starts
    have isFirst : 'b' = c := by
      simpa [otherAt] using starts
    subst isFirst
    cases divides

/-- The signs of a marked run are legal, since each of them was marked where it stands. -/
theorem Marked.legal {before : List Char} {signs : List Sign} (marked : Marked before signs) :
    ∀ sign ∈ signs, SignLegal sign := by
  induction signs generalizing before with
  | nil => simp
  | cons first rest inductionHypothesis =>
    obtain ⟨legal, _, restMarked⟩ := marked
    exact List.forall_mem_cons.mpr ⟨legal, inductionHypothesis restMarked⟩

/-- What is wrong with the items of a list is no blank. The induction is on the number of pieces,
since a run takes several of them at once. -/
theorem Laid.sparesBlanks {before source : List Char} {pieces : List Piece} {error : ParseError}
    (laid : Laid before pieces source) (failed : items pieces = .error error) :
    error.SparesBlanks := by
  induction length : pieces.length using Nat.strongRecOn generalizing before source pieces with
  | ind size inductionHypothesis =>
    cases laid with
    | nil => cases failed
    | @cons _ chunk rest piece others head marked tail =>
      have fewer : others.length < size := by simp [← length]
      cases head with
      | divider divides => exact inductionHypothesis others.length fewer tail failed rfl
      | list body =>
        have failedRest := (items_list_error_iff _ _ _).mp failed
        exact inductionHypothesis others.length fewer tail failedRest rfl
      | @sign sign legal =>
        obtain ⟨run, remaining, _, rfl, restApart, runMarked, _, restLaid⟩ :=
          Laid.run (Laid.cons (PieceCovers.sign legal) marked tail)
        rcases items_run_error restApart failed with failedRun | failedRest
        · exact sparesBlanks_of_atom runMarked.legal failedRun
        · have shorter : remaining.length < size := by
            simp only [List.length_append, List.length_map] at fewer
            omega
          exact inductionHypothesis remaining.length shorter restLaid failedRest rfl

/-! ## The character at which reading ends -/

/-- Reading fails at one character, from a state that it reaches before. The induction is on what is
left to read; the characters in front of the one that fails are read from the same state without it.
-/
theorem exists_failing_character {state : State} {rest : List Char} {error : ParseError}
    (failed : state.readAll rest = .error error) :
    ∃ earlier c later reached, rest = earlier ++ c :: later ∧
      state.readAll earlier = .ok reached ∧ reached.read c = .error error := by
  induction rest generalizing state with
  | nil => cases failed
  | cons c others inductionHypothesis =>
    rw [State.readAll] at failed
    split at failed
    · rename_i inner failsHere
      cases failed
      exact ⟨[], c, others, state, rfl, rfl, failsHere⟩
    · rename_i next goesOn
      obtain ⟨earlier, d, later, reached, rfl, run, failsThere⟩ := inductionHypothesis failed
      refine ⟨c :: earlier, d, later, reached, rfl, ?_, failsThere⟩
      rw [State.readAll, goesOn]
      exact run

/-- A step: the character at which reading fails is no blank, and neither is what was kept.

Proof: inside of quotes nothing fails. Outside of them, a closing bracket fails for want of a
partner, or because of the items in front of it, which the state covers; any other character that
fails is none that is read, and so no blank. -/
theorem Tracks.sparesBlanks {state : State} {source : List Char} (tracks : Tracks state source)
    {c : Char} {error : ParseError} (failed : state.read c = .error error) :
    error.SparesBlanks := by
  unfold State.read at failed
  split at failed
  · cases failed
  rename_i outside
  obtain ⟨before, inside, _, _, laid⟩ := tracks.outside outside
  unfold State.readPlain at failed
  split at failed
  · cases failed
  split at failed
  · unfold State.close at failed
    split at failed
    · cases failed
      exact sparesBlanks_atMark _ _
    split at failed
    · rename_i inner failedItems
      cases failed
      rw [State.count_pieces] at failedItems
      exact laid.sparesBlanks failedItems
    · cases failed
  split at failed
  · cases failed
  rename_i visible
  split at failed
  · cases failed
  split at failed
  · cases failed
  · cases failed
    exact sparesBlanks_invalidCharacter (Bool.not_eq_true _ ▸ visible) _

/-- A quoted text that never ends starts with its quote. -/
theorem sparesBlanks_unfinished (quotation : Quotation) :
    (State.unfinished quotation).SparesBlanks := by
  refine sparesBlanks_of_text rfl ?_
  intro c divides starts
  have isQuote : '"' = c := by
    simpa [State.unfinished] using starts
  exact ne_quote_of_divider divides isQuote.symm

/-- A run: a source is scanned, or the error is about no blank. It arises at the character at which
reading fails, or it is a quoted text that never ends. -/
theorem sparesBlanks_of_scan {source : List Char} {error : ParseError}
    (failed : scan source = .error error) : error.SparesBlanks := by
  unfold scan at failed
  split at failed
  · rename_i inner failedRun
    cases failed
    obtain ⟨earlier, c, _, reached, _, run, failsThere⟩ := exists_failing_character failedRun
    have tracks := tracks_initial.readAll earlier
    rw [run] at tracks
    exact Tracks.sparesBlanks tracks failsThere
  · split at failed
    · cases failed
      exact sparesBlanks_unfinished _
    · cases failed

/-- The error of a program is about no blank. If it is not an error of the scan, then something
stands outside of all lists, and the message starts with a letter, or a bracket is open, and nothing
is quoted. -/
theorem sparesBlanks_of_readProgram {source : List Char} {error : ParseError}
    (failed : readProgram source = .error error) : error.SparesBlanks := by
  unfold readProgram at failed
  split at failed
  · rename_i inner failedScan
    cases failed
    exact sparesBlanks_of_scan failedScan
  · simp only at failed
    split at failed
    · rename_i inner outsideList
      cases failed
      obtain ⟨_, _, sign, _, _, _, rfl⟩ := topLists_error outsideList
      refine sparesBlanks_of_text rfl ?_
      intro c divides starts
      have isFirst : 'a' = c := by
        simpa [otherAt] using starts
      subst isFirst
      cases divides
    · split at failed
      · cases failed
        exact sparesBlanks_atMark _ _
      · cases failed

/-- The character that the error of a program points at is no blank. Whether the error names that
character or quotes a text that starts with it, it spares blanks. -/
theorem visible_of_readProgram {source before after : List Char} {c : Char} {error : ParseError}
    (failed : readProgram source = .error error) (offends : error.Offends before c after) :
    isDivider c = false := by
  have spares := sparesBlanks_of_readProgram failed
  rw [← Bool.not_eq_true]
  intro divides
  obtain ⟨notCode, notText⟩ := spares c divides
  unfold Offends at offends
  split at offends
  · exact notCode offends
  · subst offends
    cases divides
  · subst offends
    cases divides
  · obtain ⟨present, found⟩ := offends
    have nonempty := mt String.toList_eq_nil_iff.mp present
    obtain ⟨first, rest, text⟩ := List.exists_cons_of_ne_nil nonempty
    rw [text] at found notText
    exact notText (by rw [(List.cons_prefix_cons.mp found).1]; rfl)
  · obtain ⟨⟨_, isSign | isQuote⟩, _⟩ := offends
    · have visible := visible_of_signChar isSign
      rw [divides] at visible
      cases visible
    · exact ne_quote_of_divider divides isQuote

end Reader

end TermLang
