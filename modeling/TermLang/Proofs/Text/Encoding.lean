import TermLang.Proofs.Text.Slice

/-!
# Encoded text is decoded

The bytes of code points, one behind the other, are decoded to the same code points. Decoding
decides by the lead byte how many bytes to take and within which limits the second one must lie; the
encoding of a code point always meets them, because a code point is neither overlong in its own
length nor a surrogate nor above the last plane. Stray bytes are not covered: next to each other
they may form a sequence.

The other way round there is no exception. Whatever bytes are decoded, the glyphs stand for exactly
these bytes, so every string of bytes is the bytes of a text.

An ASCII byte always stands for its character: it is part of no sequence and never a stray. So bytes
one behind the other are decoded one behind the other if the first end with an ASCII character.
Elsewhere a sequence might begin in the first and end in the second.

Together with the slices this makes a text and its bytes interchangeable.
-/

namespace TermLang

namespace Glyph

/-- A continuation byte adds its six bits to the value. It is a byte between the limits, and the
bytes behind it have the ordinary ones. -/
theorem extend_continuation (value count : Nat) {least greatest bits : Nat} (rest : List UInt8)
    (small : bits < 64) (low : least ≤ 0x80 + bits) (high : 0x80 + bits ≤ greatest) :
    extend value (count + 1) least greatest ((0x80 + bits).toUInt8 :: rest) =
      extend (value * 64 + bits) count 0x80 0xBF rest := by
  have byte : (0x80 + bits).toUInt8.toNat = 0x80 + bits :=
    UInt8.toNat_ofNat_of_lt (Nat.add_lt_add_left (by omega : bits < 128) 0x80)
  rw [extend, byte, if_pos ⟨low, high⟩, Nat.add_sub_cancel_left]

/-- A lead byte and the continuation bytes that it announces make a code point, and they are all
taken. -/
theorem leading_of_extend {lead count least greatest code : Nat} {rest : List UInt8}
    (notAscii : ¬ lead < 0x80) (small : lead < 256)
    (announces : announced lead = some (count, least, greatest))
    (extended : extend (leadBits lead count) count least greatest rest = some code) :
    leading lead.toUInt8 rest = (.scalar (Char.ofNat code), count) := by
  have byte : lead.toUInt8.toNat = lead := UInt8.toNat_ofNat_of_lt small
  simp only [leading, byte, notAscii, if_false, announces, extended]

/-- The lead byte of three announces two more, and the second is between its limits. The narrower
limits keep out codes that need fewer bytes, and surrogates, and the code is neither. -/
theorem announced_three {code : Nat} (least : 0x800 ≤ code) (below : code < 0x10000)
    (valid : code < 0xD800 ∨ 0xDFFF < code) :
    ∃ low high, announced (0xE0 + code / 4096) = some (2, low, high) ∧
      low ≤ 0x80 + code / 64 % 64 ∧ 0x80 + code / 64 % 64 ≤ high := by
  unfold announced
  split
  · omega
  split
  · exact ⟨_, _, rfl, by omega, by omega⟩
  split
  · exact ⟨_, _, rfl, by omega, by omega⟩
  split
  · exact ⟨_, _, rfl, by omega, by omega⟩
  · omega

/-- The lead byte of four announces three more, and the second is between its limits. The narrower
limits keep out codes that need fewer bytes, and those above all characters. -/
theorem announced_four {code : Nat} (least : 0x10000 ≤ code) (below : code < 0x110000) :
    ∃ low high, announced (0xF0 + code / 262144) = some (3, low, high) ∧
      low ≤ 0x80 + code / 4096 % 64 ∧ 0x80 + code / 4096 % 64 ≤ high := by
  have fewer : announced (0xF0 + code / 262144) =
      if 0xF0 + code / 262144 = 0xF0 then some (3, 0x90, 0xBF)
      else if 0xF0 + code / 262144 < 0xF4 then some (3, 0x80, 0xBF)
      else some (3, 0x80, 0x8F) := by
    grind [announced]
  rw [fewer]
  split
  · exact ⟨_, _, rfl, by omega, by omega⟩
  split
  · exact ⟨_, _, rfl, by omega, by omega⟩
  · exact ⟨_, _, rfl, by omega, by omega⟩

/-- The bytes of a code point are led by a byte that takes all of them, whatever follows.

Proof: one case for each length. The lead byte announces as many bytes as there are, and each of
these adds its six bits, so that the value in the end is the code. -/
theorem leading_encodeChar (c : Char) (rest : List UInt8) :
    ∃ lead others, encodeChar c = lead :: others ∧
      leading lead (others ++ rest) = (.scalar c, others.length) := by
  have valid : c.toNat < 0xD800 ∨ 0xDFFF < c.toNat ∧ c.toNat < 0x110000 := c.valid
  have same : Char.ofNat c.toNat = c := Char.ofNat_toNat c
  simp only [encodeChar]
  generalize c.toNat = code at valid same ⊢
  rw [← same]
  split
  · rename_i ascii
    have byte : code.toUInt8.toNat = code :=
      UInt8.toNat_ofNat_of_lt (Nat.lt_trans ascii (by decide))
    refine ⟨_, [], rfl, ?_⟩
    simp only [leading, byte, ascii, if_true, List.length_nil]
  split
  · have announces : announced (0xC0 + code / 64) = some (1, 0x80, 0xBF) := if_pos (by omega)
    refine ⟨_, _, rfl, ?_⟩
    apply leading_of_extend (by omega) (by omega) announces
    rw [List.singleton_append, extend_continuation _ _ _ (by omega) (by omega) (by omega)]
    simp only [extend, leadBits_one, Option.some.injEq]
    omega
  split
  · obtain ⟨low, high, announces, above, below⟩ :=
      @announced_three code (by omega) (by omega) (by omega)
    refine ⟨_, _, rfl, ?_⟩
    apply leading_of_extend (by omega) (by omega) announces
    rw [List.cons_append, extend_continuation _ _ _ (by omega) above below,
      List.singleton_append, extend_continuation _ _ _ (by omega) (by omega) (by omega)]
    simp only [extend, leadBits_two, Option.some.injEq]
    omega
  · obtain ⟨low, high, announces, above, below⟩ := @announced_four code (by omega) (by omega)
    refine ⟨_, _, rfl, ?_⟩
    apply leading_of_extend (by omega) (by omega) announces
    rw [List.cons_append, extend_continuation _ _ _ (by omega) above below,
      List.cons_append, extend_continuation _ _ _ (by omega) (by omega) (by omega),
      List.singleton_append, extend_continuation _ _ _ (by omega) (by omega) (by omega)]
    simp only [extend, leadBits_three, Option.some.injEq]
    omega

/-! ## Decoded bytes are encoded again -/

/-- The last `count` bytes of a code point, each with six of its bits. -/
def continuation (code : Nat) : (count : Nat) → List UInt8
  | 0 => []
  | count + 1 => (0x80 + code / 64 ^ count % 64).toUInt8 :: continuation code count

/-- What a lead byte announces tells how large it is; no limit is below or above those of ordinary
continuation bytes. There is one case for each kind of lead byte. -/
theorem limits_of_announced {lead count least greatest : Nat}
    (announces : announced lead = some (count, least, greatest)) :
    0x80 ≤ least ∧ greatest ≤ 0xBF ∧
      (count = 1 ∧ 0xC0 ≤ lead ∨ count = 2 ∧ 0xE0 ≤ lead ∨ count = 3 ∧ 0xF0 ≤ lead) := by
  unfold announced at announces
  repeat' split at announces
  all_goals simp only [Option.some.injEq, Prod.mk.injEq, reduceCtorEq] at announces
  all_goals
    obtain ⟨rfl, rfl, rfl⟩ := announces
    omega

/-- The bytes that extend a value are the continuation bytes of the code, and the value is what is
left of the code without them. -/
theorem continuation_of_extend {value count least greatest code : Nat} {bytes : List UInt8}
    (low : 0x80 ≤ least) (high : greatest ≤ 0xBF)
    (extended : extend value count least greatest bytes = some code) :
    bytes.take count = continuation code count ∧ code / 64 ^ count = value := by
  induction count generalizing value least greatest bytes with
  | zero =>
    simp only [extend, Option.some.injEq] at extended
    simp [continuation, extended]
  | succ count inductionHypothesis =>
    obtain ⟨byte, rest, rfl, above, below, others⟩ := extend_succ_eq_some_iff.mp extended
    obtain ⟨isRest, isValue⟩ := inductionHypothesis (by omega) (by omega) others
    have isByte : byte = (0x80 + code / 64 ^ count % 64).toUInt8 := by
      have bits : 0x80 + code / 64 ^ count % 64 = byte.toNat := by omega
      rw [bits]
      exact (UInt8.ofNat_toNat).symm
    constructor
    · rw [List.take_succ_cons, isRest, continuation, ← isByte]
    · rw [Nat.pow_succ, ← Nat.div_div_eq_div_mul, isValue]
      omega

/-- A sequence makes a code point that is encoded by the sequence.

Proof: its continuation bytes are those of the code, and the bits of the lead byte are what is left.
The code is valid and in the range of as many bytes, since otherwise its width would be another one,
so the encoding takes the same branch. -/
theorem encodeChar_of_extend {lead : UInt8} {count least greatest code : Nat} {bytes : List UInt8}
    (announces : announced lead.toNat = some (count, least, greatest))
    (extended : extend (leadBits lead.toNat count) count least greatest bytes = some code) :
    encodeChar (Char.ofNat code) = lead :: bytes.take count := by
  obtain ⟨low, high, size⟩ := limits_of_announced announces
  obtain ⟨isTail, isValue⟩ := continuation_of_extend low high extended
  have wide := width_of_extend announces extended
  have valid : code.isValidChar := by
    refine Decidable.byContradiction fun invalid => ?_
    rw [Char.ofNat, dif_neg invalid] at wide
    change 1 = count + 1 at wide
    omega
  have same : (Char.ofNat code).toNat = code := by
    rw [Char.ofNat, dif_pos valid]
    rfl
  have isLead {bits : Nat} (sum : bits = lead.toNat) : bits.toUInt8 = lead := by
    rw [sum]
    exact UInt8.ofNat_toNat
  rw [width_ofNat valid] at wide
  simp only [encodeChar, same, isTail]
  rcases size with ⟨rfl, least⟩ | ⟨rfl, least⟩ | ⟨rfl, least⟩
  · have range : 0x80 ≤ code ∧ code < 0x800 := by grind
    rw [leadBits_one] at isValue
    rw [if_neg (by omega), if_pos (by omega), isLead (by omega)]
    simp [continuation]
  · have range : 0x800 ≤ code ∧ code < 0x10000 := by grind
    rw [leadBits_two] at isValue
    rw [if_neg (by omega), if_neg (by omega), if_pos (by omega), isLead (by omega)]
    simp [continuation]
  · have range : 0x10000 ≤ code := by grind
    rw [leadBits_three] at isValue
    rw [if_neg (by omega), if_neg (by omega), if_neg (by omega), isLead (by omega)]
    simp [continuation]

/-- A glyph stands for the byte that it starts with and those that it takes. A stray stands for its
byte, and an ASCII character for its code. -/
theorem bytes_of_leading {lead : UInt8} {rest : List UInt8} {glyph : Glyph} {taken : Nat}
    (leads : leading lead rest = (glyph, taken)) : glyph.bytes = lead :: rest.take taken := by
  unfold leading at leads
  split at leads
  · rename_i ascii
    cases leads
    have same : (Char.ofNat lead.toNat).toNat = lead.toNat := by
      rw [Char.ofNat, dif_pos (.inl (by omega))]
      rfl
    simp only [bytes, encodeChar, same, ascii, if_true, List.take_zero]
    exact congrArg (· :: []) UInt8.ofNat_toNat
  · split at leads
    · cases leads
      rfl
    · rename_i announces
      split at leads
      · cases leads
        rfl
      · rename_i extended
        cases leads
        exact encodeChar_of_extend announces extended

/-! ## ASCII -/

/-- An ASCII character is one byte. A stray is shown as the replacement character, which is not
ASCII. -/
theorem bytes_of_ascii {glyph : Glyph} (ascii : glyph.char.toNat < 0x80) :
    glyph.bytes = [glyph.char.toNat.toUInt8] := by
  cases glyph with
  | scalar c =>
    rw [char] at ascii
    rw [bytes, encodeChar, if_pos ascii, char]
  | stray byte =>
    have replaced : ¬ '\uFFFD'.toNat < 0x80 := by decide
    exact absurd ascii replaced

/-- Bytes of a code point that is not ASCII are not ASCII: lead bytes and continuation bytes all
have the highest bit. -/
theorem not_ascii_of_mem_encodeChar {c : Char} {byte : UInt8} (large : ¬ c.toNat < 0x80)
    (member : byte ∈ encodeChar c) : 0x80 ≤ byte.toNat := by
  have valid : c.toNat < 0xD800 ∨ 0xDFFF < c.toNat ∧ c.toNat < 0x110000 := c.valid
  have high {code : Nat} (above : 0x80 ≤ code) (below : code < 256)
      (same : byte = code.toUInt8) : 0x80 ≤ byte.toNat := by
    have asNat : code.toUInt8.toNat = code := UInt8.toNat_ofNat_of_lt below
    rw [same, asNat]
    exact above
  simp only [encodeChar, if_neg large] at member
  split at member
  · simp only [List.mem_cons, List.not_mem_nil, or_false] at member
    rcases member with same | same <;> exact high (by omega) (by omega) same
  · split at member
    · simp only [List.mem_cons, List.not_mem_nil, or_false] at member
      rcases member with same | same | same <;> exact high (by omega) (by omega) same
    · simp only [List.mem_cons, List.not_mem_nil, or_false] at member
      rcases member with same | same | same | same <;> exact high (by omega) (by omega) same

/-- An ASCII byte stands for its character, or is a stray. It is not a byte of a longer sequence. -/
theorem eq_of_ascii_byte {glyph : Glyph} {byte : UInt8} (member : byte ∈ glyph.bytes)
    (ascii : byte.toNat < 0x80) :
    glyph = .scalar (Char.ofNat byte.toNat) ∨ glyph = .stray byte := by
  cases glyph with
  | stray other =>
    rw [bytes, List.mem_singleton] at member
    exact .inr (congrArg Glyph.stray member.symm)
  | scalar c =>
    by_cases small : c.toNat < 0x80
    · rw [bytes, encodeChar, if_pos small, List.mem_singleton] at member
      have same : byte.toNat = c.toNat := by
        rw [member]
        exact UInt8.toNat_ofNat_of_lt (Nat.lt_trans small (by decide))
      rw [same, Char.ofNat_toNat]
      exact .inl rfl
    · have := not_ascii_of_mem_encodeChar small member
      omega

/-- An ASCII byte is no continuation byte, so a sequence is decided in front of it: it has ended
before, or it fails there. The induction is on the bytes that are still announced. -/
theorem extend_append {value count least greatest : Nat} {bytes : List UInt8} {last : UInt8}
    (low : 0x80 ≤ least) (isLast : bytes.getLast? = some last) (ascii : last.toNat < 0x80)
    (more : List UInt8) :
    extend value count least greatest (bytes ++ more) =
      extend value count least greatest bytes := by
  induction count generalizing value least greatest bytes with
  | zero => simp [extend]
  | succ count inductionHypothesis =>
    cases bytes with
    | nil => cases isLast
    | cons byte rest =>
      simp only [List.cons_append, extend]
      split
      · rename_i inside
        cases rest with
        | nil =>
          obtain rfl : byte = last := Option.some.inj isLast
          omega
        | cons next others =>
          rw [List.getLast?_cons_cons] at isLast
          exact inductionHypothesis (by decide) isLast
      · rfl

/-- A glyph is decided by bytes that end with an ASCII byte, since its sequence cannot go on behind
that byte. -/
theorem leading_append {lead last : UInt8} {rest : List UInt8}
    (isLast : (lead :: rest).getLast? = some last) (ascii : last.toNat < 0x80)
    (more : List UInt8) : leading lead (rest ++ more) = leading lead rest := by
  unfold leading
  split
  · rfl
  rename_i notAscii
  split
  · rfl
  rename_i announces
  cases rest with
  | nil =>
    obtain rfl : lead = last := Option.some.inj isLast
    exact absurd ascii notAscii
  | cons next others =>
    rw [List.getLast?_cons_cons] at isLast
    rw [extend_append (limits_of_announced announces).1 isLast ascii]

/-- A glyph takes no more bytes than there are, because it stands for those bytes. -/
theorem taken_le {lead : UInt8} {rest : List UInt8} {glyph : Glyph} {taken : Nat}
    (leads : leading lead rest = (glyph, taken)) : taken ≤ rest.length := by
  have wide := width_leading leads
  rw [width_eq_length_bytes, bytes_of_leading leads, List.length_cons, List.length_take] at wide
  omega

end Glyph

namespace Text

/-- The bytes of a code point in front of others are decoded to it, and the others as they are
alone. -/
theorem decode_encodeChar (c : Char) (rest : List UInt8) :
    decode (Glyph.encodeChar c ++ rest) = .scalar c :: decode rest := by
  obtain ⟨lead, others, encoded, leads⟩ := Glyph.leading_encodeChar c rest
  rw [encoded]
  simp only [decode, List.cons_append, decodeFrom, leads]
  rw [decodeFrom_eq_decode_drop, List.drop_left]
  rfl

/-- The bytes of a string are decoded to the string, code point by code point. -/
theorem decode_bytes_ofString (s : String) : decode (ofString s).bytes = ofString s := by
  simp only [ofString, bytes]
  induction s.toList with
  | nil => rfl
  | cons c rest inductionHypothesis =>
    simp only [List.map_cons, List.flatMap_cons, Glyph.bytes]
    rw [decode_encodeChar, inductionHypothesis]

/-- Nothing of the bytes is lost when they are decoded: each glyph stands for the bytes that it was
made of, and strays are kept. The induction is on the decoded text. -/
theorem bytes_decode (bytes : List UInt8) : (decode bytes).bytes = bytes := by
  generalize decoded : decode bytes = text
  induction text generalizing bytes with
  | nil =>
    cases bytes with
    | nil => rfl
    | cons lead rest => cases decoded
  | cons glyph text inductionHypothesis =>
    obtain ⟨lead, rest, taken, rfl, leads, behind⟩ := decode_eq_cons decoded
    have others := inductionHypothesis (rest.drop taken) behind
    rw [Text.bytes] at others
    rw [Text.bytes, List.flatMap_cons, others, Glyph.bytes_of_leading leads, List.cons_append,
      List.take_append_drop]

/-- The first glyph of some bytes, and those behind it. What the glyph takes is left out. -/
theorem decode_cons {lead : UInt8} {rest : List UInt8} {glyph : Glyph} {taken : Nat}
    (leads : Glyph.leading lead rest = (glyph, taken)) :
    decode (lead :: rest) = glyph :: decode (rest.drop taken) := by
  simp only [decode, decodeFrom, leads]
  rw [decodeFrom_eq_decode_drop]
  rfl

/-- Behind an ASCII byte decoding starts afresh.

Proof: induction on the number of bytes, since a glyph takes several at once. The first glyph is
decided in front of the ASCII byte, or by it; what is left ends with that byte as well, unless
nothing is left. -/
theorem decode_append_of_byte {bytes : List UInt8} {last : UInt8}
    (isLast : bytes.getLast? = some last) (ascii : last.toNat < 0x80) (more : List UInt8) :
    decode (bytes ++ more) = decode bytes ++ decode more := by
  induction length : bytes.length using Nat.strongRecOn generalizing bytes with
  | ind size inductionHypothesis =>
    cases bytes with
    | nil => cases isLast
    | cons lead rest =>
      cases leads : Glyph.leading lead rest with
      | mk glyph taken =>
        have fits := Glyph.taken_le leads
        have longer := Glyph.leading_append isLast ascii more
        rw [leads] at longer
        rw [List.cons_append, decode_cons longer, decode_cons leads,
          List.drop_append_of_le_length fits, List.cons_append]
        congr 1
        by_cases none : rest.drop taken = []
        · rw [none]
          rfl
        · have untaken : ¬ rest.length ≤ taken := fun all => none (List.drop_of_length_le all)
          have present : rest ≠ [] := by
            rintro rfl
            exact none List.drop_nil
          have stillLast : (rest.drop taken).getLast? = some last := by
            rw [List.getLast?_drop, if_neg untaken, ← isLast, List.getLast?_cons_of_ne_nil present]
          refine inductionHypothesis _ ?_ stillLast rfl
          rw [← length, List.length_drop, List.length_cons]
          omega

/-- Behind an ASCII character decoding starts afresh. The last glyph is then the ASCII byte of that
character, with which the bytes end. -/
theorem decode_append {first : List UInt8}
    (ascii : ∀ last ∈ (decode first).chars.getLast?, last.toNat < 0x80) (second : List UInt8) :
    decode (first ++ second) = decode first ++ decode second := by
  have whole := bytes_decode first
  rcases List.eq_nil_or_concat (decode first) with none | ⟨earlier, glyph, parts⟩
  · rw [none] at whole
    subst whole
    rfl
  · rw [List.concat_eq_append] at parts
    have small : glyph.char.toNat < 0x80 := ascii glyph.char (by simp [parts, chars])
    rw [parts, bytes_append] at whole
    have isLast : first.getLast? = some glyph.char.toNat.toUInt8 := by
      simp [← whole, bytes, Glyph.bytes_of_ascii small]
    have byte : glyph.char.toNat.toUInt8.toNat = glyph.char.toNat :=
      UInt8.toNat_ofNat_of_lt (Nat.lt_trans small (by decide))
    exact decode_append_of_byte isLast (by rwa [byte]) second

/-! ## Stray bytes -/

/-- No stray byte is ASCII. -/
def HighStrays (text : Text) : Prop := ∀ byte, .stray byte ∈ text → 0x80 ≤ byte.toNat

/-- Two texts one behind the other have no ASCII strays exactly if neither has. -/
theorem highStrays_append {before after : Text} :
    HighStrays (before ++ after) ↔ HighStrays before ∧ HighStrays after := by
  simp only [HighStrays, List.mem_append, or_imp, forall_and]

/-- An ASCII byte is never left over when bytes are decoded, because such a byte is decoded to its
character at once. The induction is on the decoded text. -/
theorem highStrays_decode (bytes : List UInt8) : HighStrays (decode bytes) := by
  generalize decoded : decode bytes = text
  induction text generalizing bytes with
  | nil => simp [HighStrays]
  | cons glyph text inductionHypothesis =>
    obtain ⟨lead, rest, taken, rfl, leads, behind⟩ := decode_eq_cons decoded
    intro byte member
    rcases List.mem_cons.mp member with isFirst | later
    · rw [← isFirst] at leads
      unfold Glyph.leading at leads
      split at leads
      · cases leads
      · split at leads
        · cases leads
          omega
        · split at leads
          · cases leads
            omega
          · cases leads
    · exact inductionHypothesis (rest.drop taken) behind byte later

/-- In a text without ASCII strays an ASCII byte comes from its character. So looking for such a
byte is looking for the character. -/
theorem HighStrays.scalar_mem {text : Text} (high : HighStrays text) {byte : UInt8}
    (member : byte ∈ text.bytes) (ascii : byte.toNat < 0x80) :
    .scalar (Char.ofNat byte.toNat) ∈ text := by
  obtain ⟨glyph, among, inside⟩ := List.mem_flatMap.mp member
  rcases Glyph.eq_of_ascii_byte inside ascii with rfl | rfl
  · exact among
  · have := high byte among
    omega

end Text

end TermLang
