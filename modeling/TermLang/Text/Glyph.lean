/-!
# Text as glyphs

A text arrives as bytes and is read as code points. Bytes that form a well-formed UTF-8
sequence make one `Glyph.scalar`; every other byte makes one `Glyph.stray`, which shows as
U+FFFD but keeps its value. Nothing of the bytes is lost, so byte offsets, UTF-16 lengths
and code-point columns can all be read off one and the same list of glyphs.
-/

namespace TermLang

/-- One code point of a text, or one byte that belongs to no well-formed sequence. -/
inductive Glyph where
  /-- A well-formed code point. -/
  | scalar (c : Char)
  /-- A byte outside every well-formed sequence. -/
  | stray (byte : UInt8)
  deriving DecidableEq, Inhabited, Repr

/-- Text as it was received: code points and stray bytes in order. -/
abbrev Text := List Glyph

namespace Glyph

/-- The code point a glyph shows as. A stray byte shows as the replacement character. -/
def char : Glyph → Char
  | .scalar c => c
  | .stray _ => '\uFFFD'

/-- The bytes of a code point in UTF-8, the lead byte first. -/
def encodeChar (c : Char) : List UInt8 :=
  let code := c.toNat
  if code < 0x80 then [code.toUInt8]
  else if code < 0x800 then
    [(0xC0 + code / 64).toUInt8, (0x80 + code % 64).toUInt8]
  else if code < 0x10000 then
    [(0xE0 + code / 4096).toUInt8, (0x80 + code / 64 % 64).toUInt8, (0x80 + code % 64).toUInt8]
  else
    [(0xF0 + code / 262144).toUInt8, (0x80 + code / 4096 % 64).toUInt8,
      (0x80 + code / 64 % 64).toUInt8, (0x80 + code % 64).toUInt8]

/-- The bytes that a glyph stands for. -/
def bytes : Glyph → List UInt8
  | .scalar c => encodeChar c
  | .stray byte => [byte]

/-- How many bytes a glyph stands for. -/
def width : Glyph → Nat
  | .scalar c => (encodeChar c).length
  | .stray _ => 1

/-- How many UTF-16 code units a glyph takes: two above the basic plane, else one. -/
def units16 (glyph : Glyph) : Nat :=
  if glyph.char.toNat < 0x10000 then 1 else 2

/-- The width of a glyph is the number of its bytes. -/
theorem width_eq_length_bytes (glyph : Glyph) : glyph.width = glyph.bytes.length := by
  cases glyph <;> rfl

/-- Every glyph stands for at least one byte. -/
theorem width_pos (glyph : Glyph) : 0 < glyph.width := by
  cases glyph with
  | scalar c =>
    simp only [width, encodeChar]
    split <;> try split
    all_goals try split
    all_goals simp
  | stray byte => simp [width]

/-- How many continuation bytes a lead byte announces, and the limits of the first of them.
The limits of the second byte exclude overlong forms, surrogates and values past U+10FFFF. -/
def announced (lead : Nat) : Option (Nat × Nat × Nat) :=
  if 0xC2 ≤ lead ∧ lead ≤ 0xDF then some (1, 0x80, 0xBF)
  else if lead = 0xE0 then some (2, 0xA0, 0xBF)
  else if lead = 0xED then some (2, 0x80, 0x9F)
  else if 0xE1 ≤ lead ∧ lead ≤ 0xEF then some (2, 0x80, 0xBF)
  else if lead = 0xF0 then some (3, 0x90, 0xBF)
  else if 0xF1 ≤ lead ∧ lead ≤ 0xF3 then some (3, 0x80, 0xBF)
  else if lead = 0xF4 then some (3, 0x80, 0x8F)
  else none

/-- Appends six bits per continuation byte to `value`; `none` if a byte is missing or lies
outside `[least, greatest]`. Only the first byte has limits of its own. -/
def extend (value : Nat) : (count least greatest : Nat) → List UInt8 → Option Nat
  | 0, _, _, _ => some value
  | _ + 1, _, _, [] => none
  | count + 1, least, greatest, byte :: rest =>
    if least ≤ byte.toNat ∧ byte.toNat ≤ greatest then
      extend (value * 64 + (byte.toNat - 0x80)) count 0x80 0xBF rest
    else none

/-- The payload bits of a lead byte that announces `count` continuation bytes. -/
def leadBits (lead count : Nat) : Nat :=
  match count with
  | 1 => lead - 0xC0
  | 2 => lead - 0xE0
  | _ => lead - 0xF0

/-- The glyph that starts with byte `lead`, and how many of the following bytes it takes. -/
def leading (lead : UInt8) (rest : List UInt8) : Glyph × Nat :=
  if lead.toNat < 0x80 then (.scalar (Char.ofNat lead.toNat), 0)
  else
    match announced lead.toNat with
    | none => (.stray lead, 0)
    | some (count, least, greatest) =>
      match extend (leadBits lead.toNat count) count least greatest rest with
      | none => (.stray lead, 0)
      | some code => (.scalar (Char.ofNat code), count)

end Glyph

namespace Text

/-- Reads bytes as glyphs, the first `skip` bytes being continuation bytes already taken. -/
def decodeFrom : (skip : Nat) → List UInt8 → Text
  | _, [] => []
  | skip + 1, _ :: rest => decodeFrom skip rest
  | 0, lead :: rest =>
    let (glyph, taken) := Glyph.leading lead rest
    glyph :: decodeFrom taken rest

/-- Reads bytes as UTF-8. A byte outside every well-formed sequence is kept as a stray. -/
def decode (bytes : List UInt8) : Text :=
  decodeFrom 0 bytes

/-- The glyphs of a string, which has no stray bytes. -/
def ofString (s : String) : Text :=
  s.toList.map .scalar

/-- The code points that a text shows. -/
def chars (text : Text) : List Char :=
  text.map Glyph.char

/-- What a text shows, with U+FFFD for every stray byte. -/
def shown (text : Text) : String :=
  String.ofList text.chars

/-- The bytes of a text. -/
def bytes (text : Text) : List UInt8 :=
  text.flatMap Glyph.bytes

/-- The number of bytes of a text. -/
def width : Text → Nat
  | [] => 0
  | glyph :: rest => glyph.width + width rest

/-- Whether every byte belongs to a well-formed sequence. -/
def wellFormed (text : Text) : Bool :=
  text.all fun
    | .scalar _ => true
    | .stray _ => false

/-- A text without glyphs takes no bytes. -/
@[simp]
theorem width_nil : width [] = 0 := rfl

/-- A glyph in front of a text adds its own width. -/
@[simp]
theorem width_cons (glyph : Glyph) (rest : Text) :
    width (glyph :: rest) = glyph.width + width rest := rfl

/-- The widths of two texts one behind the other are added. The induction is on the first text. -/
@[simp]
theorem width_append (before after : Text) :
    width (before ++ after) = width before + width after := by
  induction before with
  | nil => simp
  | cons glyph rest ih => simp only [List.cons_append, width_cons, ih]; omega

/-- Two texts one behind the other show what each of them shows. -/
@[simp]
theorem chars_append (before after : Text) :
    chars (before ++ after) = chars before ++ chars after := by
  simp [chars]

/-- The bytes of two texts one behind the other are those of each of them. -/
theorem bytes_append (before after : Text) :
    bytes (before ++ after) = bytes before ++ bytes after :=
  List.flatMap_append

/-- A text takes as many bytes as it is wide, glyph by glyph, so that offsets into a text are
offsets into its bytes. -/
theorem length_bytes (text : Text) : text.bytes.length = text.width := by
  induction text with
  | nil => rfl
  | cons glyph rest ih =>
    simp only [bytes] at ih
    simp only [bytes, List.flatMap_cons, List.length_append, ih, width_cons,
      Glyph.width_eq_length_bytes]

/-- A string is shown as itself. -/
@[simp]
theorem chars_ofString (s : String) : chars (ofString s) = s.toList := by
  simp [chars, ofString, Glyph.char, Function.comp_def]

end Text

end TermLang
