import TermLang.Proofs.Number.Numeral
import TermLang.Proofs.Text.Encoding
import TermLang.Server.Frame

/-!
# Frames on a stream

Bodies that are framed and written one behind the other are read back one by one, and then the
stream ends. The header is read line by line and the body by its length, so what a body looks like
does not matter: it may hold empty lines or the text of a header.

Other lines may stand around the one with the length, and its key may be written in any letter case
and with blanks around it. One frame is taken off the stream by `next_bytes`, whatever follows it;
the law of the stream is the induction on its frames.

Streams that are cut short, and headers with several lengths or none, are not covered.
-/

namespace TermLang.Server.Frame

/-! ## Lines -/

/-- A header line: a key and a value. -/
structure Line where
  /-- What stands before the colon. -/
  key : List UInt8
  /-- What stands behind the colon. -/
  value : List UInt8
  /-- The key ends at the first colon. -/
  keyEnds : colon ∉ key
  /-- The line ends behind the value. -/
  unbroken : newline ∉ key ++ value

namespace Line

/-- A line as it is written. -/
def bytes (line : Line) : List UInt8 :=
  line.key ++ colon :: line.value ++ [carriageReturn, newline]

/-- Whether the key of a line, without blanks around it and in small letters, is that of the
length. -/
def givesLength (line : Line) : Bool :=
  String.ofList ((trimmed line.key).map Char.toLower) = lengthKey

end Line

/-- A line ends at the first newline. `line` holds its bytes so far, the latest first.

Behind the returns at its end are taken away, an empty line ends the header, and any other may
change the length that is known so far. -/
theorem header?_line {text : List UInt8} (unbroken : newline ∉ text) (length : Int)
    (line rest : List UInt8) :
    header? length line (text ++ newline :: rest) =
      match trimReturns (line.reverse ++ text) with
      | [] => some (length, rest)
      | first :: more => header? (lengthAfter length (first :: more)) [] rest := by
  induction text generalizing line with
  | nil =>
    rw [List.append_nil]
    exact if_pos rfl
  | cons byte others inductionHypothesis =>
    obtain ⟨inside, further⟩ := not_or.mp (mt List.mem_cons.mpr unbroken)
    have step := inductionHypothesis further (byte :: line)
    simp only [List.reverse_cons, List.append_assoc, List.singleton_append] at step
    rw [List.cons_append, header?, if_neg (Ne.symm inside), step]

/-- Carriage returns are taken away from behind the colon only, so the key of a line stays as it was
written, and the line is not empty. -/
theorem trimReturns_colon (key value : List UInt8) :
    trimReturns (key ++ colon :: value) = key ++ colon :: trimReturns value := by
  have kept : (colon == carriageReturn) = false := by decide
  simp only [trimReturns, List.reverse_append, List.reverse_cons, List.append_assoc,
    List.singleton_append, List.dropWhile_append, List.dropWhile_cons, kept]
  split
  · rename_i returnsOnly
    simp [List.isEmpty_iff.mp returnsOnly]
  · simp

/-- The return at the end of a line does not count, so lines that end with a newline alone are read
in the same way. -/
theorem trimReturns_return (text : List UInt8) :
    trimReturns (text ++ [carriageReturn]) = trimReturns text := by
  simp [trimReturns]

/-- A text without returns keeps its end, since the first byte from behind is not one. -/
theorem trimReturns_of_none {text : List UInt8} (none : carriageReturn ∉ text) :
    trimReturns text = text := by
  cases isLast : text.reverse with
  | nil => simp [trimReturns, List.reverse_eq_nil_iff.mp isLast]
  | cons last before =>
    have present : last ∈ text := List.mem_reverse.mp (isLast ▸ List.mem_cons_self)
    have differs : (last == carriageReturn) = false := by
      rw [beq_eq_false_iff_ne]
      exact fun same => none (same ▸ present)
    rw [trimReturns, isLast, List.dropWhile_cons, differs, ← isLast]
    simp

/-- What a line says about the length depends on its key. The first colon divides the line, so
colons in the value do no harm; and a value that is no number leaves the length that is known. -/
theorem lengthAfter_colon {key : List UInt8} (keyEnds : colon ∉ key) (length : Int)
    (value : List UInt8) :
    lengthAfter length (key ++ colon :: value) =
      if String.ofList ((trimmed key).map Char.toLower) = lengthKey then
        (leadingNumber? (trimmed value)).getD length
      else length := by
  have before : ∀ byte ∈ key, (byte != colon) = true := by
    intro byte member
    rw [bne_iff_ne]
    exact fun same => keyEnds (same ▸ member)
  have behind : (key ++ colon :: value).dropWhile (· != colon) = colon :: value := by
    rw [List.dropWhile_append_of_pos before]
    simp
  have inFront : (key ++ colon :: value).takeWhile (· != colon) = key := by
    rw [List.takeWhile_append_of_pos before]
    simp
  simp only [lengthAfter, behind, inFront]

/-- A step over one header line. It has a colon, so it is not empty whatever returns are taken away,
and the header goes on behind it. -/
theorem header?_bytes (line : Line) (length : Int) (rest : List UInt8) :
    header? length [] (line.bytes ++ rest) =
      header? (lengthAfter length (line.key ++ colon :: trimReturns line.value)) [] rest := by
  have unbroken : newline ∉ line.key ++ colon :: line.value ++ [carriageReturn] := by
    obtain ⟨inKey, inValue⟩ := not_or.mp (mt List.mem_append.mpr line.unbroken)
    simp only [List.mem_append, List.mem_cons, List.not_mem_nil, or_false, not_or]
    exact ⟨⟨inKey, by decide, inValue⟩, by decide⟩
  have split : line.bytes ++ rest =
      (line.key ++ colon :: line.value ++ [carriageReturn]) ++ newline :: rest := by
    simp [Line.bytes]
  rw [split, header?_line unbroken]
  simp only [List.reverse_nil, List.nil_append]
  rw [trimReturns_return, trimReturns_colon]
  cases line.key with
  | nil => rfl
  | cons first others => rfl

/-- A run over lines that say nothing about the length: they can stand before the line with the
length and behind it, and are passed over. -/
theorem header?_others {lines : List Line} (others : ∀ line ∈ lines, line.givesLength = false)
    (length : Int) (rest : List UInt8) :
    header? length [] (lines.flatMap Line.bytes ++ rest) = header? length [] rest := by
  induction lines with
  | nil => rfl
  | cons line later inductionHypothesis =>
    obtain ⟨here, further⟩ := List.forall_mem_cons.mp others
    rw [List.flatMap_cons, List.append_assoc, header?_bytes, lengthAfter_colon line.keyEnds,
      if_neg (of_decide_eq_false here)]
    exact inductionHypothesis further

/-! ## The line with the length -/

/-- The value of the line with the length: a blank and the decimal digits. -/
def count (length : Nat) : List UInt8 :=
  Text.bytes (Text.ofString (" " ++ toString length))

/-- The characters of a count: the blank behind the colon and the digits. -/
theorem toList_count (length : Nat) :
    (" " ++ toString length).toList = ' ' :: Number.digitsOf length := by
  simp [Number.digitsOf]

/-- The digits of a number are among the ASCII characters from zero to nine, so they are neither
blanks nor signs nor ends of lines. -/
theorem digit_range {length : Nat} {digit : Char} (member : digit ∈ Number.digitsOf length) :
    48 ≤ digit.toNat ∧ digit.toNat ≤ 57 := by
  have isDigit := Number.digitsOf_only length digit member
  simp only [isDecimalDigit, Bool.and_eq_true, decide_eq_true_eq] at isDigit
  exact isDigit

/-- No byte of a count is a control character. So it holds no newline, which would end its line, and
no return, which would be taken away. -/
theorem le_of_mem_count {length : Nat} {byte : UInt8} (member : byte ∈ count length) :
    32 ≤ byte.toNat := by
  simp only [count, Text.ofString, toList_count, Text.bytes, List.mem_flatMap,
    List.mem_map] at member
  obtain ⟨_, ⟨char, isChar, rfl⟩, isByte⟩ := member
  have range : 32 ≤ char.toNat ∧ char.toNat < 128 := by
    rcases List.mem_cons.mp isChar with rfl | isDigit
    · decide
    · have range := digit_range isDigit
      omega
  have alone : byte = char.toNat.toUInt8 := by
    simpa [Glyph.bytes, Glyph.encodeChar, range.2] using isByte
  have same : char.toNat.toUInt8.toNat = char.toNat :=
    UInt8.toNat_ofNat_of_lt (Nat.lt_trans range.2 (by decide))
  rw [alone, same]
  exact range.1

/-- Without the blank, a count is the digits: there is one blank in front of them and none behind.
-/
theorem trimmed_count (length : Nat) : trimmed (count length) = Number.digitsOf length := by
  have unblank : ∀ digit ∈ Number.digitsOf length, Text.isBlank digit = false := by
    intro digit member
    have range := digit_range member
    simp only [Text.isBlank, Bool.or_eq_false_iff, Bool.and_eq_false_iff, decide_eq_false_iff_not,
      beq_eq_false_iff_ne]
    omega
  have endless (digits : List Char) (plain : ∀ digit ∈ digits, Text.isBlank digit = false) :
      digits.dropWhile Text.isBlank = digits := by
    cases digits with
    | nil => rfl
    | cons digit others => simp [plain digit List.mem_cons_self]
  have blank : Text.isBlank ' ' = true := by decide
  rw [trimmed, count, Text.decode_bytes_ofString, Text.chars_ofString, toList_count,
    Text.trimBlank, List.dropWhile_cons, if_pos blank, endless _ unblank, endless]
  · exact List.reverse_reverse _
  · intro digit member
    exact unblank digit (List.mem_reverse.mp member)

/-- A count reads back, if a word can hold it. The digits begin with no sign, all of them are taken,
and their value is the number that they were written for. -/
theorem leadingNumber?_count {length : Nat} (countable : (length : Int) ≤ Number.greatestWord) :
    leadingNumber? (trimmed (count length)) = some (length : Int) := by
  have digits : (Number.digitsOf length).takeWhile isDecimalDigit = Number.digitsOf length := by
    rw [List.takeWhile_eq_self_iff]
    exact Number.digitsOf_only length
  have isWord : Number.word? false (Number.digitsOf length) = some (length : Int) := by
    have present : (Number.digitsOf length).isEmpty = false := by
      rw [List.isEmpty_eq_false_iff]
      exact Nat.toDigits_ne_nil
    have above : ¬ (length : Int) < Number.leastWord := by
      simp only [Number.leastWord]
      omega
    simp [Number.word?, Number.digitsValue_digitsOf, present, above, countable]
  rw [trimmed_count]
  unfold leadingNumber?
  split
  · rename_i rest isDigits
    have range := digit_range (isDigits ▸ List.mem_cons_self (a := '-') (l := rest))
    exact absurd range (by decide)
  · rename_i rest isDigits
    have range := digit_range (isDigits ▸ List.mem_cons_self (a := '+') (l := rest))
    exact absurd range (by decide)
  · rw [digits, isWord]

/-! ## Frames -/

/-- A frame as an editor may write it. -/
structure Sent where
  /-- The lines before the one with the length. -/
  before : List Line
  /-- The key of the line with the length. -/
  key : List UInt8
  /-- The lines behind the one with the length. -/
  after : List Line
  /-- The body. -/
  body : List UInt8
  /-- The key ends at the colon, and on its line. -/
  keyEnds : colon ∉ key ∧ newline ∉ key
  /-- The key is that of the length, in any letter case and with any blanks around it. -/
  keyed : String.ofList ((trimmed key).map Char.toLower) = lengthKey
  /-- No other line gives a length. -/
  others : ∀ line ∈ before ++ after, line.givesLength = false
  /-- There is a body. -/
  present : body ≠ []
  /-- A word can count its bytes. -/
  countable : (body.length : Int) ≤ Number.greatestWord

namespace Sent

/-- The line with the length. -/
def lengthLine (sent : Sent) : Line where
  key := sent.key
  value := count sent.body.length
  keyEnds := sent.keyEnds.1
  unbroken := by
    rw [List.mem_append, not_or]
    refine ⟨sent.keyEnds.2, ?_⟩
    intro member
    exact absurd (le_of_mem_count member) (by decide)

/-- A frame as it is written: header lines, an empty line, the body. -/
def bytes (sent : Sent) : List UInt8 :=
  sent.before.flatMap Line.bytes ++ sent.lengthLine.bytes ++ sent.after.flatMap Line.bytes ++
    [carriageReturn, newline] ++ sent.body

/-- The header of a frame gives the length of its body, and the body starts where the header ends.

Proof: the lines before the one with the length are passed, that line sets the length, those behind
it are passed again, and the empty line ends the header. -/
theorem header?_sent (sent : Sent) (rest : List UInt8) :
    header? 0 [] (sent.bytes ++ rest) = some ((sent.body.length : Int), sent.body ++ rest) := by
  obtain ⟨others, othersBehind⟩ := List.forall_mem_append.mp sent.others
  have noReturn : carriageReturn ∉ count sent.body.length := by
    intro member
    exact absurd (le_of_mem_count member) (by decide)
  have given : lengthAfter 0 (sent.key ++ colon :: trimReturns (count sent.body.length)) =
      sent.body.length := by
    rw [trimReturns_of_none noReturn, lengthAfter_colon sent.keyEnds.1, if_pos sent.keyed,
      leadingNumber?_count sent.countable, Option.getD_some]
  have blankLine : header? sent.body.length []
      (carriageReturn :: newline :: (sent.body ++ rest)) =
        some ((sent.body.length : Int), sent.body ++ rest) := by
    have unbroken : newline ∉ [carriageReturn] := by decide
    exact header?_line unbroken _ [] _
  simp only [bytes, List.append_assoc]
  rw [header?_others others, header?_bytes]
  change header? (lengthAfter 0 (sent.key ++ colon :: trimReturns (count sent.body.length))) [] _ =
    _
  rw [given, header?_others othersBehind]
  exact blankLine

/-- A step: the frame is taken off the stream, and nothing else is. The body is cut by its length,
so what it holds is not looked at, and the rest begins with the next frame. -/
theorem next_bytes (sent : Sent) (rest : List UInt8) :
    next (sent.bytes ++ rest) = .body sent.body rest := by
  have positive : ¬ (sent.body.length : Int) ≤ 0 := by
    have some := List.length_pos_iff.mpr sent.present
    omega
  have inside : (sent.body.length : Int) ≤ (sent.body ++ rest).length := by
    rw [List.length_append]
    omega
  have present : (sent.body ++ rest).isEmpty = false := by
    rw [List.isEmpty_eq_false_iff]
    exact fun empty => sent.present (List.append_eq_nil_iff.mp empty).1
  simp only [next, sent.header?_sent, positive, present, decide_false, Bool.or_self,
    Bool.false_eq_true, if_false, inside, if_true, Int.toNat_natCast, List.take_left,
    List.drop_left]

end Sent

/-- A run: the bodies are read in order, and then the stream ends. The induction is on the frames,
and each is taken off whatever frames follow it. -/
theorem bodies_sent (frames : List Sent) :
    bodies (frames.flatMap Sent.bytes) = (frames.map Sent.body, false) := by
  induction frames with
  | nil =>
    rw [bodies]
    rfl
  | cons sent later inductionHypothesis =>
    rw [List.flatMap_cons, bodies]
    split
    · rename_i ended
      rw [sent.next_bytes] at ended
      cases ended
    · rename_i cut
      rw [sent.next_bytes] at cut
      cases cut
    · rename_i content rest read
      rw [sent.next_bytes] at read
      cases read
      rw [inductionHypothesis]
      rfl

/-- The frame that is built around a body, as one with no other lines. -/
def Sent.ofBody (content : List UInt8) (present : content ≠ [])
    (countable : (content.length : Int) ≤ Number.greatestWord) : Sent where
  before := []
  key := Text.bytes (Text.ofString "Content-Length")
  after := []
  body := content
  keyEnds := by decide
  keyed := by decide
  others := by simp
  present := present
  countable := countable

/-- It is written as `wrap` does, byte for byte, so what is known of frames from an editor holds of
those that the server writes. -/
theorem Sent.bytes_ofBody {content : List UInt8} (present : content ≠ [])
    (countable : (content.length : Int) ≤ Number.greatestWord) :
    (Sent.ofBody content present countable).bytes = wrap content := by
  simp only [bytes, ofBody, lengthLine, Line.bytes, wrap, count, Text.bytes, Text.ofString,
    String.toList_append, List.map_append, List.flatMap_append, List.flatMap_nil, List.append_nil,
    List.nil_append, List.append_assoc]
  rfl

/-- Frames built around bodies are frames as an editor may write them, with no other lines. A body
has to hold something and to have a length that a word can hold, as every frame does. -/
theorem exists_sent {contents : List (List UInt8)}
    (fit : ∀ content ∈ contents,
      content ≠ [] ∧ (content.length : Int) ≤ Number.greatestWord) :
    ∃ frames : List Sent, frames.flatMap Sent.bytes = contents.flatMap wrap ∧
      frames.map Sent.body = contents := by
  induction contents with
  | nil => exact ⟨[], rfl, rfl⟩
  | cons content later inductionHypothesis =>
    obtain ⟨⟨present, countable⟩, further⟩ := List.forall_mem_cons.mp fit
    obtain ⟨frames, sameBytes, sameBodies⟩ := inductionHypothesis further
    refine ⟨.ofBody content present countable :: frames, ?_, ?_⟩
    · rw [List.flatMap_cons, List.flatMap_cons, Sent.bytes_ofBody, sameBytes]
    · rw [List.map_cons, sameBodies]
      rfl

/-- Bodies of at least one byte that are framed and written one behind the other are read back in
order, and then the stream ends; and so they are when every header has other lines before and behind
the one with the length, and the key of that one is in any letter case. -/
theorem frames_read_back :
    (∀ contents : List (List UInt8),
      (∀ content ∈ contents, content ≠ [] ∧ (content.length : Int) ≤ Number.greatestWord) →
        bodies (contents.flatMap wrap) = (contents, false)) ∧
    ∀ frames : List Sent, bodies (frames.flatMap Sent.bytes) = (frames.map Sent.body, false) := by
  refine ⟨?_, bodies_sent⟩
  intro contents fit
  obtain ⟨frames, sameBytes, sameBodies⟩ := exists_sent fit
  rw [← sameBytes, bodies_sent, sameBodies]

/-- Two bodies of which one is a header with a body of its own, and a frame with other lines around
the length. -/
theorem header_like_body_reads_back :
    let headerLike := Text.bytes (Text.ofString "\r\n\r\nContent-Length: 1\r\n\r\n()")
    let other : Line := ⟨Text.bytes (Text.ofString " X-content-length"),
      Text.bytes (Text.ofString " 7: Content-Length: 3\r"), by decide, by decide⟩
    let sent : Sent := ⟨[other], Text.bytes (Text.ofString "cONTENT-Length "), [other, other],
      headerLike, by decide, by decide, by decide, by decide, by decide⟩
    bodies ([headerLike, [0x80, 10]].flatMap wrap) = ([headerLike, [0x80, 10]], false) ∧
      bodies ([sent, sent].flatMap Sent.bytes) = ([headerLike, headerLike], false) :=
  ⟨frames_read_back.1 _ (by decide), frames_read_back.2 _⟩

end TermLang.Server.Frame
