import TermLang.Proofs.Server.Change
import TermLang.Proofs.Server.Lines

/-!
# Offsets keep the order of positions

Positions are ordered by their lines and, within a line, by their code units. Whatever whole numbers
an editor sends, the offset of a position lies in the text and between two glyphs, and a later
position has no lesser offset: what is counted of a line stops in front of its newline, behind which
the next line starts.

So the two ends of a range cut the text into parts that make it up again, and the ends are exchanged
only where the editor has sent the later one first. Of a batch of changes this is said of each text
that the changes before have left.

That the offsets are those the editor had in mind is not covered.
-/

namespace TermLang

namespace Server.Position

/-- Positions are ordered by lines first. -/
instance : LE Position where
  le first second :=
    first.line < second.line ∨ first.line = second.line ∧ first.character ≤ second.character

/-- A position is before another by its line, or on the same line by its units. Both are whole
numbers, so positions in front of the text are ordered too. -/
theorem le_iff {first second : Position} :
    first ≤ second ↔
      first.line < second.line ∨
        first.line = second.line ∧ first.character ≤ second.character := Iff.rfl

/-- Which of two positions is the later can be computed, so that a range can be seen to be reversed.
-/
instance (first second : Position) : Decidable (first ≤ second) :=
  decidable_of_iff' _ le_iff

end Server.Position

namespace Text

open Server (Position Range)

/-! ## Within a line -/

/-- More code units take no fewer bytes. The count stops at a newline in either case, and a carriage
return is passed only as long as units are wanted, so both counts go through the same glyphs until
the lesser one stops. -/
theorem bytesBefore_mono {fewer more : Int} (le : fewer ≤ more) (text : Text) :
    bytesBefore fewer text ≤ bytesBefore more text := by
  induction text generalizing fewer more with
  | nil => exact Nat.le_refl 0
  | cons glyph rest inductionHypothesis =>
    have skipped := inductionHypothesis le
    have counted := inductionHypothesis (Int.sub_le_sub_right le glyph.units16)
    simp only [bytesBefore]
    by_cases done : fewer ≤ 0
    · rw [if_pos done]
      exact Nat.zero_le _
    · have remains : ¬ more ≤ 0 := by omega
      rw [if_neg done, if_neg remains]
      split
      · omega
      split
      · exact Nat.le_refl 0
      · omega

/-- What is counted of a line ends in front of the line after it, strictly, because the newline
between them is not counted. This is what makes offsets grow from line to line, however many units a
position asks for. -/
theorem bytesBefore_lt_of_fromLine? {offset line start : Nat} {text rest : Text}
    (found : fromLine? offset (line + 1) text = some (start, rest)) (units : Int) :
    offset + bytesBefore units text < start := by
  induction text generalizing offset units with
  | nil => cases found
  | cons glyph others inductionHypothesis =>
    have wide := glyph.width_pos
    rw [fromLine?] at found
    simp only [bytesBefore]
    split at found
    · rename_i newline
      obtain ⟨behind, _⟩ := past_of_fromLine? found
      have stops : glyph ≠ .scalar '\r' := by simp [newline]
      rw [if_neg stops, if_pos newline, ite_self]
      omega
    · rename_i sameLine
      have skipped := inductionHypothesis found units
      have counted := inductionHypothesis found (units - glyph.units16)
      rw [if_neg sameLine]
      split
      · omega
      split
      · omega
      · omega

/-! ## Over lines -/

/-- A line is found from any line before it as it is found from the start. So two positions can be
compared from the line of the earlier one on. -/
theorem fromLine?_add (offset line further : Nat) (text : Text) :
    fromLine? offset (line + further) text =
      (fromLine? offset line text).bind fun found => fromLine? found.1 further found.2 := by
  induction text generalizing offset line with
  | nil =>
    cases line with
    | zero => rw [Nat.zero_add]; rfl
    | succ line => rw [Nat.succ_add]; rfl
  | cons glyph rest inductionHypothesis =>
    cases line with
    | zero => rw [Nat.zero_add]; rfl
    | succ line =>
      rw [Nat.succ_add, fromLine?, fromLine?]
      split
      · exact inductionHypothesis _ line
      · rw [Nat.add_right_comm line further 1]
        exact inductionHypothesis _ (line + 1)

/-- A later position has no lesser offset.

Proof: a position in front of the text has the offset zero. Otherwise the earlier position has a
line or is at the end of the text; on the same line the units decide, and a later line starts behind
everything that is counted of the earlier one. -/
theorem offsetOf_mono {first second : Position} (le : first ≤ second) (text : Text) :
    text.offsetOf first ≤ text.offsetOf second := by
  rw [Position.le_iff] at le
  by_cases negative : first.line < 0
  · rw [offsetOf, if_pos negative]
    exact Nat.zero_le _
  have notNegative : ¬ second.line < 0 := by omega
  obtain ⟨further, lines⟩ : ∃ further, second.line.toNat = first.line.toNat + further :=
    ⟨second.line.toNat - first.line.toNat, by omega⟩
  rw [offsetOf, if_neg negative, offsetOf, if_neg notNegative, lines, fromLine?_add]
  cases found : fromLine? 0 first.line.toNat text with
  | none => exact Nat.le_refl _
  | some line =>
    obtain ⟨start, rest⟩ := line
    simp only [Option.bind_some]
    cases further with
    | zero =>
      have counted : first.character ≤ second.character := by omega
      have within := bytesBefore_mono counted rest
      simp only [fromLine?]
      omega
    | succ further =>
      cases later : fromLine? start (further + 1) rest with
      | none =>
        have whole := add_width_of_fromLine? found
        have inside := bytesBefore_le_width first.character rest
        simp only
        omega
      | some other =>
        have behind := bytesBefore_lt_of_fromLine? later first.character
        simp only
        omega

/-! ## Between glyphs -/

/-- What is counted of a line ends between two glyphs, since the count takes whole glyphs. A
position inside of a glyph of two units is moved behind it. -/
theorem exists_parts_bytesBefore (units : Int) (text : Text) :
    ∃ before after, text = before ++ after ∧ before.width = bytesBefore units text := by
  induction text generalizing units with
  | nil => exact ⟨[], [], rfl, rfl⟩
  | cons glyph rest inductionHypothesis =>
    have none : ∃ before after : Text, glyph :: rest = before ++ after ∧ before.width = 0 :=
      ⟨[], glyph :: rest, rfl, rfl⟩
    have more (left : Int) : ∃ before after : Text, glyph :: rest = before ++ after ∧
        before.width = glyph.width + bytesBefore left rest := by
      obtain ⟨before, after, rfl, width⟩ := inductionHypothesis left
      exact ⟨glyph :: before, after, rfl, by rw [width_cons, width]⟩
    simp only [bytesBefore]
    split
    · exact none
    split
    · exact more _
    split
    · exact none
    · exact more _

/-- The offset of a position falls between two glyphs: at the start of the text, at its end, or
where the count on its line ends. -/
theorem exists_parts_offsetOf (text : Text) (position : Position) :
    ∃ before after, text = before ++ after ∧ before.width = text.offsetOf position := by
  simp only [offsetOf]
  split
  · exact ⟨[], text, rfl, rfl⟩
  split
  · exact ⟨text, [], (List.append_nil text).symm, rfl⟩
  · rename_i start rest found
    obtain ⟨before, after, rfl, width⟩ := exists_parts_bytesBefore position.character rest
    obtain ⟨_, isRest⟩ := past_of_fromLine? found
    have parts : text.upTo start ++ (before ++ after) = text := by
      rw [← isRest, Nat.sub_zero, upTo_append_past]
    have start_eq : start = (text.upTo start).width := by
      have whole := add_width_of_fromLine? found
      have sum := congrArg Text.width parts
      rw [width_append] at sum
      omega
    refine ⟨text.upTo start ++ before, after, by rw [List.append_assoc, parts], ?_⟩
    rw [width_append, width, ← start_eq]

/-- Up to the offset of a position stand the bytes up to that offset; for an offset inside of a
glyph this would fail. -/
theorem bytes_upTo_offsetOf (text : Text) (position : Position) :
    (text.upTo (text.offsetOf position)).bytes = text.bytes.take (text.offsetOf position) := by
  obtain ⟨before, after, parts, width⟩ := text.exists_parts_offsetOf position
  rw [← width, parts, upTo_width_append, bytes_append, ← length_bytes, List.take_left]

/-- Behind the offset of a position stand the bytes behind that offset, for the same reason. -/
theorem bytes_past_offsetOf (text : Text) (position : Position) :
    (text.past (text.offsetOf position)).bytes = text.bytes.drop (text.offsetOf position) := by
  obtain ⟨before, after, parts, width⟩ := text.exists_parts_offsetOf position
  rw [← width, parts, past_width_append, bytes_append, ← length_bytes, List.drop_left]

end Text

namespace Server

open Text

/-! ## Changes of ranges -/

namespace Change

/-- A change of a range cuts a text at two offsets, the lesser first. -/
structure Cuts (text : Text) (range : Range) (lower upper : Nat) : Prop where
  /-- They are the offsets of the ends of the range, exchanged only if the range is reversed. -/
  ends : lower = text.offsetIn text.lineStarts range.start ∧
      upper = text.offsetIn text.lineStarts range.stop ∨
    ¬ range.start ≤ range.stop ∧ lower = text.offsetIn text.lineStarts range.stop ∧
      upper = text.offsetIn text.lineStarts range.start
  /-- They are in order. -/
  ordered : lower ≤ upper
  /-- They are inside of the text. -/
  inside : upper ≤ text.bytes.length

/-- The text after changes of ranges, one after the other. Each of them cuts the text that those
before it have left, and puts its own text in the place of the bytes between the cuts. -/
inductive Edits : Text → List (Range × Text) → Text → Prop where
  | done (text : Text) : Edits text [] text
  | edit {text final inserted : Text} {range : Range} {later : List (Range × Text)}
      {lower upper : Nat} (cuts : Cuts text range lower upper)
      (replaced : (apply text (.part range inserted)).bytes =
        text.bytes.take lower ++ inserted.bytes ++ text.bytes.drop upper)
      (rest : Edits (apply text (.part range inserted)) later final) :
      Edits text ((range, inserted) :: later) final

/-- The order in which the ends of a range come does not matter, because the lesser offset is taken
for the start. -/
theorem splice_comm (text : Text) (start stop : Nat) (inserted : Text) :
    splice text start stop inserted = splice text stop start inserted := by
  simp only [splice, Nat.min_comm start, Nat.max_comm start]

/-- Between the offsets of two positions the bytes are replaced, and no others. Both offsets fall
between glyphs, so cutting glyphs is cutting bytes. -/
theorem bytes_splice {text : Text} {start stop : Position}
    (ordered : text.offsetOf start ≤ text.offsetOf stop) (inserted : Text) :
    (splice text (text.offsetOf start) (text.offsetOf stop) inserted).bytes =
      text.bytes.take (text.offsetOf start) ++ inserted.bytes ++
        text.bytes.drop (text.offsetOf stop) := by
  rw [splice, Nat.min_eq_left ordered, Nat.max_eq_right ordered, bytes_append, bytes_append,
    bytes_upTo_offsetOf, bytes_past_offsetOf]

/-- One change of a range cuts the text inside and replaces what stands between the cuts. If the
offsets of its ends come in reverse, so do the ends themselves, because offsets keep the order of
positions. -/
theorem exists_cuts (text : Text) (range : Range) (inserted : Text) :
    ∃ lower upper, Cuts text range lower upper ∧
      (apply text (.part range inserted)).bytes =
        text.bytes.take lower ++ inserted.bytes ++ text.bytes.drop upper := by
  have inside (position : Position) : text.offsetOf position ≤ text.bytes.length :=
    (text.length_bytes).symm ▸ text.offsetOf_le_width position
  by_cases ordered : text.offsetOf range.start ≤ text.offsetOf range.stop
  · refine ⟨_, _, ⟨.inl ⟨rfl, rfl⟩, ?_, ?_⟩, ?_⟩
    · rwa [offsetIn_lineStarts, offsetIn_lineStarts]
    · rw [offsetIn_lineStarts]
      exact inside _
    · rw [offsetIn_lineStarts, offsetIn_lineStarts]
      exact bytes_splice ordered inserted
  · have isReversed : ¬ range.start ≤ range.stop := fun le => ordered (offsetOf_mono le text)
    have exchanged : text.offsetOf range.stop ≤ text.offsetOf range.start := by omega
    refine ⟨_, _, ⟨.inr ⟨isReversed, rfl, rfl⟩, ?_, ?_⟩, ?_⟩
    · rwa [offsetIn_lineStarts, offsetIn_lineStarts]
    · rw [offsetIn_lineStarts]
      exact inside _
    · rw [offsetIn_lineStarts, offsetIn_lineStarts, apply, splice_comm]
      exact bytes_splice exchanged inserted

/-- The changes of a batch, one after the other, cut only what is there: each is applied to the text
that the ones before it have left, and the law for one change holds of any text. -/
theorem edits_foldl (text : Text) (edits : List (Range × Text)) :
    Edits text edits ((edits.map fun edit => part edit.1 edit.2).foldl apply text) := by
  induction edits generalizing text with
  | nil => exact .done text
  | cons edit later inductionHypothesis =>
    obtain ⟨range, inserted⟩ := edit
    obtain ⟨lower, upper, cuts, replaced⟩ := exists_cuts text range inserted
    exact .edit cuts replaced (inductionHypothesis _)

/-- A batch of changes of ranges is applied change by change, as there is no whole replacement in it
that would make the others moot. -/
theorem applyAll_parts (text : Text) (edits : List (Range × Text)) :
    applyAll text (edits.map fun edit => part edit.1 edit.2) =
      (edits.map fun edit => part edit.1 edit.2).foldl apply text := by
  induction edits generalizing text with
  | nil => rfl
  | cons edit later inductionHypothesis =>
    rw [List.map_cons, applyAll_part, List.foldl_cons, inductionHypothesis]

end Change

/-- Every position has an offset inside of the text, a later position no lesser one, and a batch of
changes of ranges cuts each text only inside, exchanging the ends of a range only if they were sent
in reverse. -/
theorem edits_cut_inside (text : Text) :
    (∀ position, text.offsetIn text.lineStarts position ≤ text.bytes.length) ∧
    (∀ first second : Position, first ≤ second →
      text.offsetIn text.lineStarts first ≤ text.offsetIn text.lineStarts second) ∧
    ∀ (workspace : Workspace) (uri : String), workspace.textOf? uri = some text →
      ∀ edits : List (Range × Text), ∃ final,
        (workspace.notified uri (edits.map fun edit => .part edit.1 edit.2)).textOf? uri =
          some final ∧
        Change.Edits text edits final := by
  refine ⟨?_, ?_, ?_⟩
  · intro position
    rw [offsetIn_lineStarts, length_bytes]
    exact text.offsetOf_le_width position
  · intro first second le
    rw [offsetIn_lineStarts, offsetIn_lineStarts]
    exact offsetOf_mono le text
  · intro workspace uri opened edits
    refine ⟨_, Workspace.textOf?_notified opened _, ?_⟩
    rw [Change.applyAll_parts]
    exact Change.edits_foldl text edits

/-- A reversed range from inside of a code point above the basic plane to a line that is not there,
and then one that ends in front of the text. -/
theorem reversed_edit_cuts_inside :
    let text := Text.ofString "a😀\r\nb"
    let workspace := Workspace.empty.insert "a" (.ofText text)
    let edits : List (Range × Text) :=
      [(⟨⟨9, 0⟩, ⟨0, 2⟩⟩, .ofString "x"), (⟨⟨-1, 5⟩, ⟨0, -2⟩⟩, .ofString "y")]
    text.offsetIn text.lineStarts ⟨9, 0⟩ ≤ 8 ∧
      (⟨0, 2⟩ : Position) ≤ ⟨9, 0⟩ ∧
      text.offsetIn text.lineStarts ⟨0, 2⟩ ≤ text.offsetIn text.lineStarts ⟨9, 0⟩ ∧
      (workspace.notified "a" (edits.map fun edit => .part edit.1 edit.2)).textOf? "a" =
        some (.ofString "ya😀x") ∧
      Change.Edits text edits (.ofString "ya😀x") := by
  intro text workspace edits
  obtain ⟨inside, monotone, batch⟩ := edits_cut_inside text
  have ordered : (⟨0, 2⟩ : Position) ≤ ⟨9, 0⟩ := by decide
  obtain ⟨final, changed, edited⟩ := batch workspace "a" rfl edits
  obtain rfl : Text.ofString "ya😀x" = final := by
    rw [Workspace.textOf?_notified rfl] at changed
    exact (by decide : _ = _).trans (Option.some.inj changed)
  exact ⟨inside _, ordered, monotone _ _ ordered, changed, edited⟩

end Server

end TermLang
