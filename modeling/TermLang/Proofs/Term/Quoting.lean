import TermLang.Proofs.Reader.Soundness
import TermLang.Proofs.Term.RoundTrip
import TermLang.Proofs.Text.Encoding

/-!
# Texts are quoted exactly where they have to be

A text is written without quotes exactly if the source that consists of nothing else is read as the
list of that one text. What is read is the text that stands there, perhaps between blanks, or one
that stands there between quotes; the source is as long as the text, so that neither blanks nor
quotes are left over.

Whether quotes are needed can be decided byte by byte, before anything is decoded: a byte counts as
the character with its number, and a byte outside ASCII is no part of a word. The source is read by
code points. Both agree on all bytes, also on those that are no UTF-8, which no term is read from.

What a text between quotes is read as is not said here; one that holds a quote is not read back.
-/

namespace TermLang

open Grammar

/-! ## Bytes as characters -/

/-- The character with the number of a byte. Every byte has one, also those outside ASCII, which
encode no character by themselves. -/
def byteChar (byte : UInt8) : Char := Char.ofNat byte.toNat

/-- The number of a byte's character is the byte: numbers below 256 are all those of characters. -/
@[simp]
theorem toNat_byteChar (byte : UInt8) : (byteChar byte).toNat = byte.toNat := by
  have valid : byte.toNat.isValidChar := .inl (Nat.lt_trans byte.toNat_lt (by decide))
  simp [byteChar, Char.ofNat, valid, Char.toNat, Char.ofNatAux]

/-- Two bytes have different characters, so nothing is lost where bytes are compared as characters.
-/
theorem byteChar_injective : Function.Injective byteChar := by
  intro first second same
  have numbers := congrArg Char.toNat same
  rw [toNat_byteChar, toNat_byteChar] at numbers
  exact UInt8.toNat_inj.mp numbers

/-- An ASCII byte encodes the character with its number. It is the one case in which the byte and
the character that is decoded from it go by the same number. -/
theorem encodeChar_byteChar {byte : UInt8} (ascii : byte.toNat < 0x80) :
    Glyph.encodeChar (byteChar byte) = [byte] := by
  rw [Glyph.encodeChar, toNat_byteChar, if_pos ascii]
  simp

namespace Text

/-- ASCII bytes are decoded one by one, each as the character with its number. -/
theorem decode_of_ascii {bytes : List UInt8} (ascii : ∀ byte ∈ bytes, byte.toNat < 0x80) :
    (decode bytes).chars = bytes.map byteChar := by
  induction bytes with
  | nil => rfl
  | cons byte rest inductionHypothesis =>
    obtain ⟨first, others⟩ := List.forall_mem_cons.mp ascii
    have decoded := decode_encodeChar (byteChar byte) rest
    rw [encodeChar_byteChar first, List.singleton_append] at decoded
    rw [decoded, List.map_cons, ← inductionHypothesis others]
    rfl

/-- What shows as ASCII characters is made of their bytes. A stray byte does not show as one: it is
decoded as the replacement character, which is outside ASCII. -/
theorem byteChar_of_ascii {text : Text} (ascii : ∀ c ∈ text.chars, c.toNat < 0x80) :
    text.bytes.map byteChar = text.chars := by
  induction text with
  | nil => rfl
  | cons glyph rest inductionHypothesis =>
    obtain ⟨first, others⟩ := List.forall_mem_cons.mp ascii
    have number : glyph.char.toNat.toUInt8.toNat = glyph.char.toNat :=
      UInt8.toNat_ofNat_of_lt (Nat.lt_trans first (by decide))
    have byte : byteChar glyph.char.toNat.toUInt8 = glyph.char := by
      rw [byteChar, number, Char.ofNat_toNat]
    have tail := inductionHypothesis others
    simp only [bytes, chars, List.flatMap_cons, List.map_append, List.map_cons,
      Glyph.bytes_of_ascii first, List.map_nil, byte] at tail ⊢
    rw [tail]
    rfl

/-- What shows as ASCII characters holds no stray bytes, so the characters alone give the text back.
-/
theorem ofString_of_ascii {text : Text} (ascii : ∀ c ∈ text.chars, c.toNat < 0x80) :
    ofString (String.ofList text.chars) = text := by
  have each : ∀ glyph ∈ text, Glyph.scalar glyph.char = glyph := by
    intro glyph member
    cases glyph with
    | scalar c => rfl
    | stray byte =>
      have replaced : ¬ '\uFFFD'.toNat < 0x80 := by decide
      exact absurd (ascii _ (List.mem_map_of_mem member)) replaced
  rw [ofString, String.toList_ofList, chars, List.map_map]
  exact (List.map_congr_left each).trans (List.map_id text)

end Text

namespace Term

/-! ## Words -/

/-- Whether a byte is part of a word, as the character with its number. -/
def isWordByte (byte : UInt8) : Bool := isWordChar (byteChar byte)

/-- Whether bytes would not read back as a bare word, decided byte by byte. -/
def needsQuotesBytes (bytes : List UInt8) : Bool :=
  match bytes with
  | [] => true
  | first :: rest =>
    bytes == (Text.ofString "true").bytes || bytes == (Text.ofString "false").bytes ||
      !isSmallLetter (byteChar first) || !rest.all isWordByte

/-- A text in bytes as an atom: bare if it reads back, else between quotes. -/
def atomBytes (bytes : List UInt8) : List UInt8 :=
  if needsQuotesBytes bytes then 0x22 :: (bytes ++ [0x22]) else bytes

/-- Byte by byte is character by character, if every byte counts as a character. Two words of bytes
are the same exactly if their characters are, so the two reserved words are recognised alike. -/
theorem needsQuotesBytes_eq (bytes : List UInt8) :
    needsQuotesBytes bytes = needsQuotes (bytes.map byteChar) := by
  cases bytes with
  | nil => rfl
  | cons first rest =>
    have same (word : List UInt8) :
        (first :: rest == word) = ((first :: rest).map byteChar == word.map byteChar) := by
      rw [Bool.eq_iff_iff]
      simp only [beq_iff_eq]
      exact (List.map_injective_iff.mpr byteChar_injective).eq_iff.symm
    simp only [needsQuotesBytes, same, List.map_cons, needsQuotes, List.all_map]
    rfl

/-- What may stand in a word is ASCII: letters, digits, the hyphen and the underscore. -/
theorem ascii_of_word {c : Char} (word : isWordChar c = true) : c.toNat < 0x80 := by
  simp only [isWordChar, isLetter, Bool.or_eq_true, beq_iff_eq, Reader.small_iff,
    Reader.capital_iff, Reader.digit_iff] at word
  rcases word with ((letter | digit) | rfl) | rfl
  · omega
  · omega
  · decide
  · decide

/-- A text that needs no quotes is ASCII, since all of it may stand in a word. -/
theorem ascii_of_unquoted {text : List Char} (plain : needsQuotes text = false) :
    ∀ c ∈ text, c.toNat < 0x80 := by
  cases text with
  | nil => simp
  | cons first rest =>
    simp only [needsQuotes, Bool.or_eq_false_iff, Bool.not_eq_false'] at plain
    obtain ⟨⟨_, small⟩, word⟩ := plain
    refine List.forall_mem_cons.mpr ⟨ascii_of_word ?_, fun c member => ascii_of_word ?_⟩
    · simp [isWordChar, isLetter, small]
    · exact List.all_eq_true.mp word c member

/-- Whether quotes are needed is the same before and after bytes are decoded. If either check is
passed, what it was passed by is ASCII, and there decoding changes nothing. -/
theorem needsQuotes_decode (bytes : List UInt8) :
    needsQuotes (Text.decode bytes).chars = needsQuotesBytes bytes := by
  rw [needsQuotesBytes_eq]
  cases asBytes : needsQuotes (bytes.map byteChar) with
  | false =>
    have ascii : ∀ byte ∈ bytes, byte.toNat < 0x80 := by
      intro byte member
      rw [← toNat_byteChar]
      exact ascii_of_unquoted asBytes _ (List.mem_map_of_mem member)
    rw [Text.decode_of_ascii ascii, asBytes]
  | true =>
    cases asChars : needsQuotes (Text.decode bytes).chars with
    | true => rfl
    | false =>
      have same := Text.byteChar_of_ascii (ascii_of_unquoted asChars)
      rw [Text.bytes_decode] at same
      rw [same, asChars] at asBytes
      cases asBytes

-- A byte that belongs to no character, behind a letter.
example : needsQuotesBytes [0x61, 0xFF] = true := by decide

/-- The bytes of a text without need of quotes are the bytes of its characters: none of them is
stray. -/
theorem bytes_of_unquoted {bytes : List UInt8} (plain : needsQuotesBytes bytes = false) :
    (Text.ofString (String.ofList (Text.decode bytes).chars)).bytes = bytes := by
  rw [← needsQuotes_decode] at plain
  rw [Text.ofString_of_ascii (ascii_of_unquoted plain), Text.bytes_decode]

/-! ## Reading a text back -/

/-- A single text is spelled somewhere in its source. The source may hold blanks besides, which is
why the spelling is found within it and need not be all of it. -/
theorem exists_spelling {touching : Bool} {source : List Char} {text : String}
    (derived : Items touching source [.str text]) :
    ∃ spelling, spelling <:+: source ∧ Atom spelling (.str text) := by
  generalize single : [Term.str text] = terms at derived
  induction derived with
  | done => cases single
  | blank _ _ _ inductionHypothesis =>
    obtain ⟨spelling, within, spelled⟩ := inductionHypothesis single
    exact ⟨spelling, within.trans (List.suffix_cons _ _).isInfix, spelled⟩
  | @atom spelling after _ _ spelled _ _ =>
    cases single
    exact ⟨spelling, (List.prefix_append spelling after).isInfix, spelled⟩
  | list => cases single

/-- A text spells itself, if it needs no quotes, or it is spelled with two characters more. -/
theorem spelling_cases {spelling : List Char} {text : String}
    (spelled : Atom spelling (.str text)) :
    spelling = text.toList ∧ needsQuotes spelling = false ∨
      spelling.length = text.toList.length + 2 := by
  cases spelled with
  | quoted unquoted =>
    right
    simp
  | bare bare =>
    cases bare with
    | str small word notAffirmed notDenied =>
      refine .inl ⟨by simp, ?_⟩
      simp only [needsQuotes, Bool.or_eq_false_iff, Bool.not_eq_false', beq_eq_false_iff_ne]
      exact ⟨⟨⟨notAffirmed, notDenied⟩, small⟩, List.all_eq_true.mpr word⟩

/-- A text is read as itself exactly if it needs no quotes. Its spelling is as long as the text or,
with quotes, longer; so in a source that is the text nothing stands but the bare text. -/
theorem reads_itself_iff (text : String) :
    readList text.toList = .ok (.list [.str text]) ↔ needsQuotes text.toList = false := by
  constructor
  · intro read
    obtain ⟨terms, same, derived⟩ := Reader.items_of_readList read
    obtain rfl : [Term.str text] = terms := Term.list.inj same
    obtain ⟨spelling, within, spelled⟩ := exists_spelling derived
    rcases spelling_cases spelled with ⟨rfl, plain⟩ | longer
    · exact plain
    · have length := within.length_le
      omega
  · intro plain
    have spelled := Atom.bare (bare_of_unquoted plain)
    rw [String.ofList_toList] at spelled
    have derived := Items.atom spelled (.done true)
    rw [List.append_nil] at derived
    exact Reader.readList_of_items derived

/-! ## Writing a text -/

/-- A text is not the same with quotes around it, being shorter by two. -/
theorem ne_quoted {α : Type} (quote : α) (text rest : List α) :
    quote :: (text ++ quote :: rest) ≠ text ++ rest := by
  intro same
  have length := congrArg List.length same
  simp only [List.length_cons, List.length_append] at length
  omega

/-- A text is written bare, wherever it stands, exactly if it needs no quotes. -/
theorem write_str_iff (text : String) (rest : List Char) :
    write (.str text) rest = text.toList ++ rest ↔ needsQuotes text.toList = false := by
  simp only [write, writeAtom, writeStr]
  cases needsQuotes text.toList with
  | false => simp
  | true => simpa using ne_quoted '"' text.toList rest

/-- Bytes are an atom by themselves exactly if they need no quotes. -/
theorem atomBytes_eq_iff (bytes : List UInt8) :
    atomBytes bytes = bytes ↔ needsQuotesBytes bytes = false := by
  unfold atomBytes
  cases needsQuotesBytes bytes with
  | false => simp
  | true => simpa using ne_quoted 0x22 bytes []

/-- The bytes of an atom are made of the bytes of its text: writing a term and then encoding it is
the same as quoting the encoded text. The check on bytes agrees with that on characters here. -/
theorem bytes_compact (text : String) :
    (Text.ofString (compact (.str text))).bytes = atomBytes (Text.ofString text).bytes := by
  have quotes : needsQuotes text.toList = needsQuotesBytes (Text.ofString text).bytes := by
    rw [← needsQuotes_decode, Text.decode_bytes_ofString, Text.chars_ofString]
  simp only [compact, write, writeAtom, writeStr, atomBytes, ← quotes]
  cases needsQuotes text.toList with
  | false => simp
  | true =>
    simp [Text.ofString, Text.bytes, Glyph.bytes, Glyph.encodeChar]

/-- Bytes need no quotes exactly if the source that they are is read as the list of the one text
that they are. Bytes that are no UTF-8 are the bytes of no text, and they always need quotes. -/
theorem needsQuotesBytes_iff (bytes : List UInt8) :
    needsQuotesBytes bytes = false ↔ ∃ text : String, (Text.ofString text).bytes = bytes ∧
      readList (Text.decode bytes).chars = .ok (.list [.str text]) := by
  constructor
  · intro plain
    refine ⟨String.ofList (Text.decode bytes).chars, bytes_of_unquoted plain, ?_⟩
    have read := (reads_itself_iff (String.ofList (Text.decode bytes).chars)).mpr
    rw [String.toList_ofList, needsQuotes_decode] at read
    exact read plain
  · rintro ⟨text, rfl, read⟩
    rw [Text.decode_bytes_ofString, Text.chars_ofString] at read
    rw [← needsQuotes_decode, Text.decode_bytes_ofString, Text.chars_ofString]
    exact (reads_itself_iff text).mp read

/-- A text is quoted exactly where it has to be. Bytes need no quotes, and are an atom by
themselves, exactly if the source that they are is read as the list of the one text that they are;
and the check on bytes is the check on characters. The atom of a text is what a term with that text
is written as, in bytes, and wherever the text stands in a term, it is bare exactly if it is read as
itself. -/
theorem quoted_exactly_where_needed :
    (∀ bytes : List UInt8,
      (needsQuotesBytes bytes = false ↔ ∃ text : String, (Text.ofString text).bytes = bytes ∧
        readList (Text.decode bytes).chars = .ok (.list [.str text])) ∧
      (atomBytes bytes = bytes ↔ ∃ text : String, (Text.ofString text).bytes = bytes ∧
        readList (Text.decode bytes).chars = .ok (.list [.str text])) ∧
      needsQuotes (Text.decode bytes).chars = needsQuotesBytes bytes) ∧
    ∀ text : String,
      (Text.ofString (compact (.str text))).bytes = atomBytes (Text.ofString text).bytes ∧
      ∀ rest, write (.str text) rest = text.toList ++ rest ↔
        readList text.toList = .ok (.list [.str text]) := by
  constructor
  · intro bytes
    have plain := needsQuotesBytes_iff bytes
    exact ⟨plain, (atomBytes_eq_iff bytes).trans plain, needsQuotes_decode bytes⟩
  · intro text
    refine ⟨bytes_compact text, fun rest => ?_⟩
    rw [write_str_iff, reads_itself_iff]

end Term

end TermLang
