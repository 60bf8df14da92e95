import Mathlib.Algebra.Group.Nat.Defs
import TermLang.Server.Position

/-!
# Slices of a text

A part of a text can be cut out of its glyphs or out of its bytes. Where the cuts fall between
glyphs the two agree: the bytes of the part, decoded on their own, are the part again. This holds
for stray bytes too, since a byte that starts no sequence with more bytes behind it starts none with
fewer.

Cuts inside of a glyph are not covered.
-/

namespace TermLang

namespace Glyph

/-! ## The width of what is decoded -/

/-- How many bytes a code point takes. A valid code is kept by the character that is made of it, so
the ranges of the encoding decide. -/
theorem width_ofNat {code : Nat} (valid : code.isValidChar) :
    (Glyph.scalar (Char.ofNat code)).width =
      if code < 0x80 then 1 else if code < 0x800 then 2 else if code < 0x10000 then 3 else 4 := by
  have same : (Char.ofNat code).toNat = code := by
    rw [Char.ofNat, dif_pos valid]
    rfl
  simp only [width, encodeChar, same]
  split
  · rfl
  · split
    · rfl
    · split <;> rfl

/-- One continuation byte more: it lies between the limits, and the others follow. The limits of the
first one may be narrower; all others are ordinary. -/
theorem extend_succ_eq_some_iff {value count least greatest code : Nat} {bytes : List UInt8} :
    extend value (count + 1) least greatest bytes = some code ↔
      ∃ byte rest, bytes = byte :: rest ∧ least ≤ byte.toNat ∧ byte.toNat ≤ greatest ∧
        extend (value * 64 + (byte.toNat - 0x80)) count 0x80 0xBF rest = some code := by
  cases bytes with
  | nil => simp [extend]
  | cons byte rest => simp [extend, and_assoc]

/-- Ordinary continuation bytes fill the low bits of a value, six each. So the code that they make
lies between the value with all of them zero and the next value. The induction is on their number.
-/
theorem range_of_extend {value count code : Nat} {bytes : List UInt8}
    (extended : extend value count 0x80 0xBF bytes = some code) :
    value * 64 ^ count ≤ code ∧ code < (value + 1) * 64 ^ count := by
  induction count generalizing value bytes with
  | zero =>
    simp only [extend, Option.some.injEq] at extended
    omega
  | succ count inductionHypothesis =>
    obtain ⟨byte, rest, rfl, least, greatest, others⟩ := extend_succ_eq_some_iff.mp extended
    obtain ⟨above, below⟩ := inductionHypothesis others
    have lower : value * 64 * 64 ^ count ≤ (value * 64 + (byte.toNat - 0x80)) * 64 ^ count :=
      Nat.mul_le_mul_right _ (by omega)
    have upper :
        (value * 64 + (byte.toNat - 0x80) + 1) * 64 ^ count ≤ (value + 1) * 64 * 64 ^ count :=
      Nat.mul_le_mul_right _ (by omega)
    rw [Nat.pow_succ', ← Nat.mul_assoc, ← Nat.mul_assoc]
    omega

/-- The bits in the lead byte of a sequence with one continuation byte. -/
@[simp]
theorem leadBits_one (lead : Nat) : leadBits lead 1 = lead - 0xC0 := rfl

/-- The bits in the lead byte of a sequence with two continuation bytes. -/
@[simp]
theorem leadBits_two (lead : Nat) : leadBits lead 2 = lead - 0xE0 := rfl

/-- The bits in the lead byte of a sequence with three continuation bytes. -/
@[simp]
theorem leadBits_three (lead : Nat) : leadBits lead 3 = lead - 0xF0 := rfl

/-- The first two bytes of a sequence keep it in the range of its length, clear of surrogates. The
limits that a lead byte sets for the byte behind it are chosen for this; there is one case for each
of them. -/
theorem top_of_announced {lead count least greatest byte top : Nat}
    (announces : announced lead = some (count, least, greatest)) (low : least ≤ byte)
    (high : byte ≤ greatest) (isTop : top = leadBits lead count * 64 + (byte - 0x80)) :
    count = 1 ∧ 0x80 ≤ top ∧ top < 0x800 ∨
      count = 2 ∧ 0x20 ≤ top ∧ top < 0x400 ∧ (top < 0x360 ∨ 0x380 ≤ top) ∨
      count = 3 ∧ 0x10 ≤ top ∧ top < 0x110 := by
  unfold announced at announces
  repeat' split at announces
  all_goals simp only [Option.some.injEq, Prod.mk.injEq, reduceCtorEq] at announces
  all_goals
    obtain ⟨rfl, rfl, rfl⟩ := announces
    simp only [leadBits_one, leadBits_two, leadBits_three] at isTop
    omega

/-- A sequence makes a code point that takes as many bytes as the sequence has.

Proof: the two first bytes give the range of the code, by `top_of_announced`, and the others only
fill its low bits. So the code is valid, and in the range that is encoded in that many bytes: no
sequence is overlong. -/
theorem width_of_extend {lead count least greatest code : Nat} {bytes : List UInt8}
    (announces : announced lead = some (count, least, greatest))
    (extended : extend (leadBits lead count) count least greatest bytes = some code) :
    (Glyph.scalar (Char.ofNat code)).width = count + 1 := by
  cases count with
  | zero => grind [announced]
  | succ tail =>
    obtain ⟨byte, rest, rfl, low, high, others⟩ := extend_succ_eq_some_iff.mp extended
    obtain ⟨above, below⟩ := range_of_extend others
    rcases top_of_announced announces low high rfl with
      ⟨isOne, least, greatest⟩ | ⟨isTwo, least, greatest, apart⟩ | ⟨isThree, least, greatest⟩
    · obtain rfl : tail = 0 := by omega
      rw [width_ofNat (by simp only [Nat.isValidChar]; omega), if_neg (by omega), if_pos (by omega)]
    · obtain rfl : tail = 1 := by omega
      rw [width_ofNat (by simp only [Nat.isValidChar]; omega), if_neg (by omega), if_neg (by omega),
        if_pos (by omega)]
    · obtain rfl : tail = 2 := by omega
      rw [width_ofNat (by simp only [Nat.isValidChar]; omega), if_neg (by omega), if_neg (by omega),
        if_neg (by omega)]

/-- A glyph that starts with a byte takes that byte and those it says. A stray takes its one byte,
as an ASCII character does. -/
theorem width_leading {lead : UInt8} {rest : List UInt8} {glyph : Glyph} {taken : Nat}
    (leads : leading lead rest = (glyph, taken)) : glyph.width = taken + 1 := by
  unfold leading at leads
  split at leads
  · rename_i ascii
    cases leads
    rw [width_ofNat (.inl (by omega)), if_pos ascii]
  · split at leads
    · cases leads
      rfl
    · rename_i announces
      split at leads
      · cases leads
        rfl
      · rename_i extended
        cases leads
        exact width_of_extend announces extended

/-- Bytes behind the continuation bytes do not matter, and a sequence that fails with them fails
without them. So the bytes may be cut off behind as many as a sequence takes. -/
theorem extend_take {value count least greatest : Nat} {bytes : List UInt8} {length : Nat}
    (enough : (extend value count least greatest bytes).isSome → count ≤ length) :
    extend value count least greatest (bytes.take length) =
      extend value count least greatest bytes := by
  induction count generalizing value least greatest bytes length with
  | zero => simp [extend]
  | succ count inductionHypothesis =>
    cases bytes with
    | nil => simp
    | cons byte rest =>
      cases length with
      | zero =>
        cases extended : extend value (count + 1) least greatest (byte :: rest) with
        | none => rfl
        | some code => exact absurd (enough (by simp [extended])) (by omega)
      | succ length =>
        simp only [List.take_succ_cons, extend] at enough ⊢
        split
        · rename_i inside
          rw [if_pos inside] at enough
          exact inductionHypothesis fun present => Nat.le_of_succ_le_succ (enough present)
        · rfl

/-- A glyph is decided by the bytes that it takes. If the sequence fails, it takes none besides the
first, and fails with fewer bytes as well. -/
theorem leading_take {lead : UInt8} {rest : List UInt8} {glyph : Glyph} {taken length : Nat}
    (leads : leading lead rest = (glyph, taken)) (enough : taken ≤ length) :
    leading lead (rest.take length) = (glyph, taken) := by
  rw [← leads]
  unfold leading at leads ⊢
  split
  · rfl
  · rename_i notAscii
    rw [if_neg notAscii] at leads
    split
    · rfl
    · rename_i count least greatest announces
      rw [announces] at leads
      have same := @extend_take (leadBits lead.toNat count) count least greatest rest length
      rw [same]
      intro present
      obtain ⟨code, extended⟩ := Option.isSome_iff_exists.mp present
      simp only [extended, Prod.mk.injEq] at leads
      omega

end Glyph

namespace Text

/-- Bytes that are already taken are left out, so decoding in the middle is decoding what is left.
-/
theorem decodeFrom_eq_decode_drop (skip : Nat) (bytes : List UInt8) :
    decodeFrom skip bytes = decode (bytes.drop skip) := by
  induction bytes generalizing skip with
  | nil => simp [decode, decodeFrom]
  | cons byte rest inductionHypothesis =>
    cases skip with
    | zero => rfl
    | succ skip => exact inductionHypothesis skip

/-- Where the first glyph of decoded bytes comes from, and what is decoded behind it. This is the
step of every induction over decoded texts. -/
theorem decode_eq_cons {bytes : List UInt8} {glyph : Glyph} {text : Text}
    (decoded : decode bytes = glyph :: text) :
    ∃ lead rest taken, bytes = lead :: rest ∧ Glyph.leading lead rest = (glyph, taken) ∧
      decode (rest.drop taken) = text := by
  cases bytes with
  | nil => cases decoded
  | cons lead rest =>
    simp only [decode, decodeFrom, List.cons.injEq] at decoded
    obtain ⟨isGlyph, isText⟩ := decoded
    refine ⟨lead, rest, (Glyph.leading lead rest).2, rfl, ?_, ?_⟩
    · rw [← isGlyph]
    · rw [← decodeFrom_eq_decode_drop, isText]

/-- The bytes behind those of the first part are decoded to the second. The induction is on the
first part, whose glyphs are as wide as the bytes that they take. -/
theorem decode_drop {bytes : List UInt8} {before after : Text}
    (decoded : decode bytes = before ++ after) : decode (bytes.drop before.width) = after := by
  induction before generalizing bytes with
  | nil => exact decoded
  | cons glyph text inductionHypothesis =>
    obtain ⟨lead, rest, taken, rfl, leads, behind⟩ := decode_eq_cons decoded
    have further := inductionHypothesis behind
    rw [List.drop_drop] at further
    rw [width_cons, Glyph.width_leading leads, Nat.add_right_comm, List.drop_succ_cons]
    exact further

/-- The bytes of the first part are decoded to it. Each glyph of it is decided by the bytes that it
takes, which are all there. -/
theorem decode_take {bytes : List UInt8} {part after : Text}
    (decoded : decode bytes = part ++ after) : decode (bytes.take part.width) = part := by
  induction part generalizing bytes with
  | nil => rfl
  | cons glyph text inductionHypothesis =>
    obtain ⟨lead, rest, taken, rfl, leads, behind⟩ := decode_eq_cons decoded
    have short : Glyph.leading lead (rest.take (taken + width text)) = (glyph, taken) :=
      Glyph.leading_take leads (by omega)
    rw [width_cons, Glyph.width_leading leads, Nat.add_right_comm, List.take_succ_cons]
    simp only [decode, decodeFrom, short, List.cons.injEq, true_and]
    rw [decodeFrom_eq_decode_drop, List.drop_take, Nat.add_sub_cancel_left]
    exact inductionHypothesis behind

/-- A part of a text stands between two byte offsets that fall between glyphs. -/
def Cut (text : Text) (start stop : Nat) (part : Text) : Prop :=
  ∃ before after, text = before ++ (part ++ after) ∧ before.width = start ∧
    start + part.width = stop

/-- What stands between two offsets is cut out of the glyphs, since both offsets fall between
glyphs. -/
theorem Cut.between {text part : Text} {start stop : Nat} (cut : text.Cut start stop part) :
    text.between start stop = part := by
  obtain ⟨before, after, rfl, rfl, rfl⟩ := cut
  rw [Text.between, past_width_append, Nat.add_sub_cancel_left, upTo_width_append]

/-- It is decoded from the bytes between the offsets: first those in front are dropped, then those
behind. -/
theorem Cut.decode {bytes : List UInt8} {part : Text} {start stop : Nat}
    (cut : (decode bytes).Cut start stop part) :
    Text.decode (bytes.extract start stop) = part := by
  obtain ⟨before, after, decoded, rfl, rfl⟩ := cut
  rw [List.extract, Nat.add_sub_cancel_left]
  exact decode_take (decode_drop decoded)

end Text

end TermLang
