import TermLang.Proofs.Server.Layout
import TermLang.Proofs.Text.Encoding

/-!
# How a text falls into tokens

Every text has tokens, whether or not it can be read. They stand one behind the other, and between
them there is nothing but blanks and brackets. A token is a quoted text up to the next quote, or to
the end of the text if there is none, or else a run without blanks, brackets and quotes that is as
long as it can be.

All of this is said about bytes. The scan goes through glyphs, but what it looks for is ASCII, and
the bytes of other glyphs are never ASCII. So a scan of glyphs splits the bytes that they stand for:
`Split` says how, and everything else follows from it by induction.

Which brackets belong together is not treated here.
-/

namespace TermLang.Server

/-! ## Bytes -/

/-- The bytes that are blanks between tokens. -/
def blankBytes : List UInt8 := [0x20, 0x09, 0x0D, 0x0A]

/-- The bytes of the opening and the closing bracket. -/
def bracketBytes : List UInt8 := [0x28, 0x29]

/-- The byte of the quote. -/
def quoteByte : UInt8 := 0x22

/-- Neither a blank nor a bracket nor a quote. -/
structure Plain (byte : UInt8) : Prop where
  notBlank : byte ∉ blankBytes
  notBracket : byte ∉ bracketBytes
  notQuote : byte ≠ quoteByte

/-- How a token is written, and what may come behind it. -/
inductive Shape : (written after : List UInt8) → Prop where
  /-- A quoted text ends at the next quote. -/
  | quotation {inside : List UInt8} (unquoted : quoteByte ∉ inside) (after : List UInt8) :
      Shape (quoteByte :: (inside ++ [quoteByte])) after
  /-- A quoted text without a second quote ends with the text. -/
  | unended {inside : List UInt8} (unquoted : quoteByte ∉ inside) : Shape (quoteByte :: inside) []
  /-- A run is as long as it can be. -/
  | word {written after : List UInt8} (present : written ≠ [])
      (plain : ∀ byte ∈ written, Plain byte) (ends : ∀ next ∈ after.head?, ¬ Plain next) :
      Shape written after

/-- The offset at which a mark starts. -/
def Mark.start : Mark → Nat
  | .opening offset | .closing offset => offset
  | .token found => found.start

/-- The offset at which a mark ends. -/
def Mark.stop : Mark → Nat
  | .opening offset | .closing offset => offset + 1
  | .token found => found.stop

/-- The bracket that a byte is at its offset, if it is one. -/
def bracket? (entry : UInt8 × Nat) : Option Mark :=
  if entry.1 = 0x28 then some (.opening entry.2)
  else if entry.1 = 0x29 then some (.closing entry.2)
  else none

/-- A bracket is one byte and no token, so as a mark it takes exactly the byte at its offset. All
that is used of brackets below is said here. -/
theorem bracket?_eq_some {byte : UInt8} {offset : Nat} {mark : Mark}
    (isBracket : bracket? (byte, offset) = some mark) :
    byte ∈ bracketBytes ∧ mark.start = offset ∧ mark.stop = offset + 1 ∧ mark.token? = none := by
  unfold bracket? at isBracket
  split at isBracket
  · rename_i opens
    cases isBracket
    exact ⟨by simp [bracketBytes, show byte = 0x28 from opens], rfl, rfl, rfl⟩
  · split at isBracket
    · rename_i closes
      cases isBracket
      exact ⟨by simp [bracketBytes, show byte = 0x29 from closes], rfl, rfl, rfl⟩
    · cases isBracket

/-- A blank is no bracket, since the two kinds of bytes are different lists of numbers. -/
theorem bracket?_of_blank {byte : UInt8} (blank : byte ∈ blankBytes) (offset : Nat) :
    bracket? (byte, offset) = none := by
  have notOpening : byte ≠ 0x28 := by
    rintro rfl
    exact absurd blank (by decide)
  have notClosing : byte ≠ 0x29 := by
    rintro rfl
    exact absurd blank (by decide)
  simp [bracket?, notOpening, notClosing]

/-- How bytes that start at an offset fall into blanks, brackets and tokens. -/
inductive Split : (offset : Nat) → List UInt8 → List Mark → Prop where
  | done (offset : Nat) : Split offset [] []
  | blank {offset : Nat} {byte : UInt8} {bytes : List UInt8} {marks : List Mark}
      (blank : byte ∈ blankBytes) (rest : Split (offset + 1) bytes marks) :
      Split offset (byte :: bytes) marks
  | bracket {offset : Nat} {byte : UInt8} {mark : Mark} {bytes : List UInt8} {marks : List Mark}
      (isBracket : bracket? (byte, offset) = some mark) (rest : Split (offset + 1) bytes marks) :
      Split offset (byte :: bytes) (mark :: marks)
  | token {offset : Nat} {text : Text} {after : List UInt8} {marks : List Mark}
      (shape : Shape text.bytes after) (rest : Split (offset + text.width) after marks) :
      Split offset (text.bytes ++ after) (.token ⟨offset, text⟩ :: marks)

/-! ## The scan splits bytes -/

namespace Mark

/-- What ends a word is a bracket, a quote or a blank, and always a character: a stray byte never
ends one. -/
theorem endsWord_cases {glyph : Glyph} (ends : endsWord glyph = true) :
    glyph = .scalar '(' ∨ glyph = .scalar ')' ∨ glyph = .scalar '"' ∨
      ∃ c, isDivider c = true ∧ glyph = .scalar c := by
  cases glyph with
  | stray byte => cases ends
  | scalar c =>
    simp only [endsWord, Bool.or_eq_true, beq_iff_eq] at ends
    rcases ends with ((rfl | rfl) | rfl) | divides
    · exact .inl rfl
    · exact .inr (.inl rfl)
    · exact .inr (.inr (.inl rfl))
    · exact .inr (.inr (.inr ⟨c, divides, rfl⟩))

/-- A blank is one blank byte. So blanks between tokens can be said about bytes, and each takes one
place. -/
theorem bytes_of_divider {c : Char} (divides : isDivider c = true) :
    ∃ byte ∈ blankBytes, (Glyph.scalar c).bytes = [byte] ∧ (Glyph.scalar c).width = 1 := by
  simp only [isDivider, Bool.or_eq_true, beq_iff_eq] at divides
  rcases divides with ((rfl | rfl) | rfl) | rfl
  · exact ⟨0x20, by decide, rfl, rfl⟩
  · exact ⟨0x09, by decide, rfl, rfl⟩
  · exact ⟨0x0D, by decide, rfl, rfl⟩
  · exact ⟨0x0A, by decide, rfl, rfl⟩

/-- What ends a word starts with a byte that ends it, whatever bytes follow. It is how the end of a
word, seen by the scan, is seen in the bytes. -/
theorem head_of_endsWord {glyph : Glyph} (ends : endsWord glyph = true) (rest : List UInt8) :
    ∀ next ∈ (glyph.bytes ++ rest).head?, ¬ Plain next := by
  rcases endsWord_cases ends with rfl | rfl | rfl | ⟨c, divides, rfl⟩
  · rintro _ ⟨⟩ plain
    exact plain.notBracket (by decide)
  · rintro _ ⟨⟩ plain
    exact plain.notBracket (by decide)
  · rintro _ ⟨⟩ plain
    exact plain.notQuote rfl
  · obtain ⟨byte, blank, isByte, _⟩ := bytes_of_divider divides
    rw [isByte]
    rintro _ ⟨⟩ plain
    exact plain.notBlank blank

/-- A byte that is not plain is the byte of a character that ends a word, and it is ASCII. There are
seven such bytes, and each is looked at. -/
theorem endsWord_of_not_plain {byte : UInt8} (ends : ¬ Plain byte) :
    byte.toNat < 0x80 ∧ endsWord (.scalar (Char.ofNat byte.toNat)) = true := by
  have special : byte ∈ blankBytes ∨ byte ∈ bracketBytes ∨ byte = quoteByte := by
    by_contra others
    rw [not_or, not_or] at others
    exact ends ⟨others.1, others.2.1, others.2.2⟩
  simp only [blankBytes, bracketBytes, quoteByte, List.mem_cons, List.not_mem_nil, or_false]
    at special
  rcases special with (rfl | rfl | rfl | rfl) | (rfl | rfl) | rfl <;> decide

/-- The bytes of a word are plain. A byte that is not would be ASCII, and ASCII bytes stand for
their own characters only, so the word would hold a character that ends it. -/
theorem plain_of_word {word : Text} (high : word.HighStrays)
    (goes : ∀ glyph ∈ word, endsWord glyph = false) : ∀ byte ∈ word.bytes, Plain byte := by
  intro byte member
  by_contra ends
  obtain ⟨ascii, atEnd⟩ := endsWord_of_not_plain ends
  rw [goes _ (high.scalar_mem member ascii)] at atEnd
  cases atEnd

/-- A text without quotes has no bytes of quotes, because the byte of a quote is ASCII and is never
a part of another character. -/
theorem quoteByte_not_mem {text : Text} (high : text.HighStrays)
    (unquoted : Glyph.scalar '"' ∉ text) : quoteByte ∉ text.bytes := by
  intro member
  exact unquoted (high.scalar_mem member (by decide))

/-- A quoted text that never ends goes on to the end of the text and is one token, the only one that
is left. -/
theorem scan_unended {inside : Text} (unquoted : Glyph.scalar '"' ∉ inside) (start offset : Nat)
    (earlier : Text) :
    scan (.quotation start earlier) offset inside =
      [.token ⟨start, earlier.reverse ++ inside⟩] := by
  induction inside generalizing offset earlier with
  | nil => simp [scan, Pending.finish]
  | cons glyph rest inductionHypothesis =>
    have notQuote : glyph ≠ .scalar '"' := Ne.symm (List.ne_of_not_mem_cons unquoted)
    have others : Glyph.scalar '"' ∉ rest := List.not_mem_of_not_mem_cons unquoted
    simp only [scan, step, if_neg notQuote, List.nil_append]
    rw [inductionHypothesis others, List.reverse_cons, List.append_assoc, List.singleton_append]

/-- What does not end a word begins one, which goes on as long as it can: up to the first glyph that
ends it, or to the end of the text. -/
theorem exists_word {glyph : Glyph} (goes : endsWord glyph = false) (rest : Text) :
    ∃ word after : Text, glyph :: rest = word ++ after ∧ word ≠ [] ∧
      (∀ glyph ∈ word, endsWord glyph = false) ∧ Ends after := by
  refine ⟨(glyph :: rest).takeWhile (!endsWord ·), (glyph :: rest).dropWhile (!endsWord ·),
    List.takeWhile_append_dropWhile.symm, by simp [goes], ?_, ?_⟩
  · intro other member
    simpa using List.mem_takeWhile_imp member
  · intro other first
    have stops := List.head?_dropWhile_not (!endsWord ·) (glyph :: rest)
    rw [first] at stops
    simpa using stops

/-- A word is written as a token is: with at least one byte, with plain bytes only, and with no
plain byte behind it. -/
theorem shape_of_word {word after : Text} (high : word.HighStrays) (present : word ≠ [])
    (goes : ∀ glyph ∈ word, endsWord glyph = false) (ends : Ends after) :
    Shape word.bytes after.bytes := by
  refine .word ?_ (plain_of_word high goes) ?_
  · obtain ⟨glyph, rest, rfl⟩ := List.exists_cons_of_ne_nil present
    intro none
    have width := Text.length_bytes (glyph :: rest)
    rw [none, Text.width_cons] at width
    exact Nat.ne_of_lt (Nat.add_pos_left glyph.width_pos _) width
  · cases after with
    | nil => simp [Text.bytes]
    | cons glyph rest => exact head_of_endsWord (ends glyph rfl) (Text.bytes rest)

/-- A quoted text is written as a token is: the byte of a quote, bytes that are no quotes, and the
byte of a quote again. -/
theorem shape_of_quotation {inside : Text} (high : inside.HighStrays)
    (unquoted : Glyph.scalar '"' ∉ inside) (after : List UInt8) :
    Shape (Text.bytes (.scalar '"' :: (inside ++ [.scalar '"']))) after := by
  have bytes : Text.bytes (.scalar '"' :: (inside ++ [.scalar '"'])) =
      quoteByte :: (inside.bytes ++ [quoteByte]) := by
    simp [Text.bytes, Glyph.bytes, Glyph.encodeChar, quoteByte]
  rw [bytes]
  exact .quotation (quoteByte_not_mem high unquoted) after

/-- A quote begins a token, and what is behind that token is split. There are two cases: the quoted
text is ended by a second quote, or it reaches the end of the text.

What is behind the token is a hypothesis here, since the induction that this is a case of supplies
it. -/
theorem split_quotation {rest : Text} (high : Text.HighStrays (.scalar '"' :: rest)) (offset : Nat)
    (behind : ∀ {front after : Text}, .scalar '"' :: rest = front ++ after → front ≠ [] →
      ∀ next, Split next after.bytes (scan .nothing next after)) :
    Split offset (Text.bytes (.scalar '"' :: rest))
      (scan .nothing offset (.scalar '"' :: rest)) := by
  rw [← List.singleton_append, Text.highStrays_append] at high
  by_cases closed : Glyph.scalar '"' ∈ rest
  · obtain ⟨inside, after, rfl, unquoted⟩ := List.eq_append_cons_of_mem closed
    let quoted : Text := .scalar '"' :: (inside ++ [.scalar '"'])
    have parts : .scalar '"' :: (inside ++ .scalar '"' :: after) = quoted ++ after := by
      simp [quoted]
    have width : quoted.width = 1 + (Text.width inside + 1) := by
      simp [quoted, Glyph.width, Glyph.encodeChar]
    have shape : Shape quoted.bytes (Text.bytes after) :=
      shape_of_quotation (Text.highStrays_append.mp high.2).1 unquoted _
    rw [scan_quotation unquoted, parts, Text.bytes_append, Nat.add_assoc, ← width]
    exact .token shape (behind parts (by simp [quoted]) _)
  · have scanned : scan .nothing offset (.scalar '"' :: rest) =
        [.token ⟨offset, .scalar '"' :: rest⟩] :=
      scan_unended closed offset (offset + 1) [.scalar '"']
    have shape : Shape (Text.bytes (.scalar '"' :: rest)) [] :=
      .unended (quoteByte_not_mem high.2 closed)
    rw [scanned, ← List.append_nil (Text.bytes _)]
    exact .token shape (.done _)

/-- The scan of a text splits its bytes. The induction is on the length, since a token is passed at
once.

Proof: by what the text starts with. A word goes on as long as it can, a bracket is a mark, a quote
begins a token of its own, and a blank is passed; in each case something is taken off, and the rest
is split by induction. -/
theorem split_scan {text : Text} (high : text.HighStrays) (offset : Nat) :
    Split offset text.bytes (scan .nothing offset text) := by
  induction length : text.length using Nat.strongRecOn generalizing text offset with
  | ind size inductionHypothesis =>
    have behind {front after : Text} (parts : text = front ++ after) (present : front ≠ [])
        (next : Nat) : Split next after.bytes (scan .nothing next after) := by
      have shorter := List.length_pos_iff.mpr present
      rw [parts, List.length_append] at length
      rw [parts, Text.highStrays_append] at high
      exact inductionHypothesis after.length (by omega) high.2 next rfl
    cases text with
    | nil => exact .done offset
    | cons glyph rest =>
      cases ends : endsWord glyph with
      | false =>
        obtain ⟨word, after, parts, present, goes, apart⟩ := exists_word ends rest
        rw [parts, Text.highStrays_append] at high
        rw [parts, scan_word present goes apart, Text.bytes_append]
        exact .token (shape_of_word high.1 present goes apart) (behind parts present _)
      | true =>
        rcases endsWord_cases ends with rfl | rfl | rfl | ⟨c, divides, rfl⟩
        · exact .bracket rfl (@behind [.scalar '('] rest rfl (by simp) (offset + 1))
        · exact .bracket rfl (@behind [.scalar ')'] rest rfl (by simp) (offset + 1))
        · exact split_quotation high offset behind
        · obtain ⟨byte, blank, isByte, width⟩ := bytes_of_divider divides
          rw [scan_blank divides, width, Text.bytes, List.flatMap_cons, isByte]
          exact .blank blank (@behind [.scalar c] rest rfl (by simp) (offset + 1))

end Mark

/-! ## Where marks stand -/

/-- Only tokens have a token, so a mark is known once the token in it is. -/
theorem Mark.eq_token {mark : Mark} {found : Token} (isToken : mark.token? = some found) :
    mark = .token found := by
  cases mark with
  | token other => exact congrArg Mark.token (Option.some.inj isToken)
  | opening _ => cases isToken
  | closing _ => cases isToken

/-- Every token is among the marks, and what is picked out of the marks are their tokens. -/
theorem Mark.mem_tokens_iff {marks : List Mark} {found : Token} :
    found ∈ marks.filterMap Mark.token? ↔ .token found ∈ marks := by
  rw [List.mem_filterMap]
  constructor
  · rintro ⟨mark, member, isToken⟩
    rwa [eq_token isToken] at member
  · intro member
    exact ⟨.token found, member, rfl⟩

/-- A token is written with something, in each of the three ways to write one. -/
theorem Shape.length_pos {written after : List UInt8} (shape : Shape written after) :
    0 < written.length := by
  cases shape with
  | quotation => simp
  | unended => simp
  | word present => exact List.length_pos_iff.mpr present

namespace Split

variable {offset : Nat} {bytes : List UInt8} {marks : List Mark}

/-- A mark takes some of the bytes, at least one, and lies inside them. The later marks are bounded
from below by where the bytes behind an earlier one start, which gives their order. -/
theorem bounds (split : Split offset bytes marks) :
    ∀ mark ∈ marks, offset ≤ mark.start ∧ mark.start < mark.stop ∧
      mark.stop ≤ offset + bytes.length := by
  induction split with
  | done => simp
  | blank _ _ inductionHypothesis =>
    intro mark member
    have := inductionHypothesis mark member
    rw [List.length_cons]
    omega
  | bracket isBracket _ inductionHypothesis =>
    obtain ⟨_, start, stop, _⟩ := bracket?_eq_some isBracket
    refine List.forall_mem_cons.mpr ⟨?_, ?_⟩
    · rw [List.length_cons]
      omega
    · intro mark member
      have := inductionHypothesis mark member
      rw [List.length_cons]
      omega
  | token shape _ inductionHypothesis =>
    have present := shape.length_pos
    rw [Text.length_bytes] at present
    simp only [List.length_append, Text.length_bytes]
    refine List.forall_mem_cons.mpr ⟨?_, ?_⟩
    · simp only [Mark.start, Mark.stop, Token.stop]
      omega
    · intro mark member
      have := inductionHypothesis mark member
      omega

/-- Marks stand one behind the other, because each of them is behind the bytes that the earlier one
has taken. -/
theorem ordered (split : Split offset bytes marks) :
    marks.Pairwise fun earlier later => earlier.stop ≤ later.start := by
  induction split with
  | done => exact .nil
  | blank _ _ inductionHypothesis => exact inductionHypothesis
  | bracket isBracket rest inductionHypothesis =>
    refine .cons ?_ inductionHypothesis
    intro mark member
    rw [(bracket?_eq_some isBracket).2.2.1]
    exact (rest.bounds mark member).1
  | token _ rest inductionHypothesis =>
    refine .cons ?_ inductionHypothesis
    intro mark member
    exact (rest.bounds mark member).1

/-- A token stands where it says: the bytes at its offset are its own, and they are followed by what
its shape allows.

Proof: by induction on the split. A blank, a bracket or a token in front moves the place by as many
bytes as it has. -/
theorem stands (split : Split offset bytes marks) {token : Token} (member : .token token ∈ marks) :
    ∃ before after, bytes = before ++ (token.text.bytes ++ after) ∧
      token.start = offset + before.length ∧ Shape token.text.bytes after := by
  induction split with
  | done => cases member
  | @blank _ byte _ _ _ _ inductionHypothesis =>
    obtain ⟨before, after, rfl, starts, shape⟩ := inductionHypothesis member
    exact ⟨byte :: before, after, rfl, by simp; omega, shape⟩
  | @bracket _ byte mark _ _ isBracket _ inductionHypothesis =>
    have other : .token token ≠ mark := by
      rintro rfl
      cases (bracket?_eq_some isBracket).2.2.2
    have later := (List.mem_cons.mp member).resolve_left other
    obtain ⟨before, after, rfl, starts, shape⟩ := inductionHypothesis later
    exact ⟨byte :: before, after, rfl, by simp; omega, shape⟩
  | @token _ text after _ shape _ inductionHypothesis =>
    rcases List.mem_cons.mp member with isFirst | later
    · obtain rfl := Mark.token.inj isFirst
      exact ⟨[], after, rfl, rfl, shape⟩
    · obtain ⟨before, behind, rfl, starts, laterShape⟩ := inductionHypothesis later
      refine ⟨text.bytes ++ before, behind, by simp, ?_, laterShape⟩
      rw [starts, List.length_append, Text.length_bytes, Nat.add_assoc]

end Split

/-! ## What is between tokens -/

/-- Whether an offset lies in a token. -/
def Token.covers (token : Token) (offset : Nat) : Bool :=
  token.start ≤ offset && offset < token.stop

/-- The bytes that lie in no token, each with its offset, if the bytes start at `offset`. -/
def bare (tokens : List Token) (offset : Nat) (bytes : List UInt8) : List (UInt8 × Nat) :=
  (bytes.zipIdx offset).filter fun entry => !tokens.any (·.covers entry.2)

/-- The brackets of a text that lie in no token. -/
def brackets (tokens : List Token) (bytes : List UInt8) : List Mark :=
  (bare tokens 0 bytes).filterMap bracket?

/-- Whether a mark is a bracket. -/
def Mark.isBracket (mark : Mark) : Bool := mark.token?.isNone

/-- A byte in front of all tokens is bare, so it is the first of the bare bytes. -/
theorem bare_cons {tokens : List Token} {offset : Nat}
    (inFront : ∀ token ∈ tokens, offset < token.start) (byte : UInt8) (bytes : List UInt8) :
    bare tokens offset (byte :: bytes) = (byte, offset) :: bare tokens (offset + 1) bytes := by
  have uncovered : tokens.any (·.covers offset) = false := by
    rw [List.any_eq_false]
    intro token member
    have := inFront token member
    simp only [Token.covers, Bool.and_eq_true, decide_eq_true_eq]
    omega
  simp [bare, List.zipIdx_cons, uncovered]

/-- The bytes of a token are not bare, and it covers none behind it. So behind a token the bare
bytes are those of the other tokens. -/
theorem bare_token (token : Token) (tokens : List Token) (after : List UInt8) :
    bare (token :: tokens) token.start (token.text.bytes ++ after) =
      bare tokens token.stop after := by
  rw [bare, List.zipIdx_append, List.filter_append, Text.length_bytes]
  have covered : (token.text.bytes.zipIdx token.start).filter
      (fun entry => !(token :: tokens).any (·.covers entry.2)) = [] := by
    rw [List.filter_eq_nil_iff]
    intro entry member
    have least := List.le_snd_of_mem_zipIdx member
    have below := List.snd_lt_add_of_mem_zipIdx member
    rw [Text.length_bytes] at below
    simp [Token.covers, Token.stop, least, below]
  rw [covered, List.nil_append]
  refine List.filter_congr ?_
  intro entry member
  have behind : token.stop ≤ entry.2 := List.le_snd_of_mem_zipIdx member
  have passed : token.covers entry.2 = false := by
    simp only [Token.covers, Bool.and_eq_false_iff, decide_eq_false_iff_not]
    omega
  rw [List.any_cons, passed, Bool.false_or]

namespace Split

variable {offset : Nat} {bytes : List UInt8} {marks : List Mark}

/-- The tokens among marks start behind what is in front of all marks, in particular behind the byte
that has just been split off. -/
theorem token_start_le (split : Split offset bytes marks) {least : Nat} (before : least < offset) :
    ∀ token ∈ marks.filterMap Mark.token?, least < token.start := by
  intro token member
  exact Nat.lt_of_lt_of_le before (split.bounds _ (Mark.mem_tokens_iff.mp member)).1

/-- Between tokens there are blanks and brackets, and the brackets are those among the marks.

Proof: by induction on the split. A blank and a bracket are bare, as all tokens are behind them, and
a token takes all its bytes away. -/
theorem bare (split : Split offset bytes marks) :
    (∀ entry ∈ Server.bare (marks.filterMap Mark.token?) offset bytes,
      entry.1 ∈ blankBytes ∨ entry.1 ∈ bracketBytes) ∧
    (Server.bare (marks.filterMap Mark.token?) offset bytes).filterMap bracket? =
      marks.filter Mark.isBracket := by
  induction split with
  | done => exact ⟨nofun, rfl⟩
  | @blank offset byte bytes marks blank rest inductionHypothesis =>
    obtain ⟨bare, among⟩ := inductionHypothesis
    rw [bare_cons (rest.token_start_le (Nat.lt_succ_self offset)),
      List.filterMap_cons_none (bracket?_of_blank blank offset)]
    exact ⟨List.forall_mem_cons.mpr ⟨.inl blank, bare⟩, among⟩
  | @bracket offset byte mark bytes marks isBracket rest inductionHypothesis =>
    obtain ⟨bare, among⟩ := inductionHypothesis
    obtain ⟨byteIs, _, _, noToken⟩ := bracket?_eq_some isBracket
    have kept : mark.isBracket = true := by rw [Mark.isBracket, noToken, Option.isNone_none]
    rw [List.filterMap_cons_none noToken,
      bare_cons (rest.token_start_le (Nat.lt_succ_self offset)),
      List.filterMap_cons_some isBracket, List.filter_cons_of_pos kept, among]
    exact ⟨List.forall_mem_cons.mpr ⟨.inr byteIs, bare⟩, rfl⟩
  | @token offset text after marks shape rest inductionHypothesis =>
    have passed := bare_token ⟨offset, text⟩ (marks.filterMap Mark.token?) after
    have tokens : (Mark.token ⟨offset, text⟩ :: marks).filterMap Mark.token? =
        ⟨offset, text⟩ :: marks.filterMap Mark.token? := rfl
    rw [tokens, passed]
    exact inductionHypothesis

end Split

/-! ## All tokens of a text -/

/-- How tokens lie in a text: one behind the other, each at its place and written as tokens are,
with blanks and brackets between them. -/
structure Tokenized (bytes : List UInt8) (tokens : List Token) : Prop where
  present : ∀ token ∈ tokens, token.start < token.stop
  ordered : tokens.Pairwise fun earlier later => earlier.stop ≤ later.start
  inside : ∀ token ∈ tokens, token.stop ≤ bytes.length
  written : ∀ token ∈ tokens, token.text.bytes = bytes.extract token.start token.stop
  shaped : ∀ token ∈ tokens, Shape token.text.bytes (bytes.drop token.stop)
  between : ∀ entry ∈ bare tokens 0 bytes, entry.1 ∈ blankBytes ∨ entry.1 ∈ bracketBytes

/-- The tokens of split bytes lie as tokens do. That they are written in the bytes and shaped as
tokens comes from where each of them stands, and their order from that of the marks. -/
theorem Split.tokenized {bytes : List UInt8} {marks : List Mark} (split : Split 0 bytes marks) :
    Tokenized bytes (marks.filterMap Mark.token?) := by
  have place {token : Token} (member : token ∈ marks.filterMap Mark.token?) :
      ∃ before after, bytes = before ++ (token.text.bytes ++ after) ∧
        token.start = before.length ∧ token.stop = before.length + token.text.bytes.length ∧
        Shape token.text.bytes after := by
    obtain ⟨before, after, parts, start, shape⟩ := split.stands (Mark.mem_tokens_iff.mp member)
    rw [Nat.zero_add] at start
    exact ⟨before, after, parts, start, by rw [Token.stop, start, Text.length_bytes], shape⟩
  refine ⟨?_, ?_, ?_, ?_, ?_, split.bare.1⟩
  · intro token member
    exact (split.bounds _ (Mark.mem_tokens_iff.mp member)).2.1
  · refine split.ordered.filterMap _ ?_
    intro earlier later order first isFirst second isSecond
    rw [Mark.eq_token isFirst, Mark.eq_token isSecond] at order
    exact order
  · intro token member
    have := (split.bounds _ (Mark.mem_tokens_iff.mp member)).2.2
    rwa [Nat.zero_add] at this
  · intro token member
    obtain ⟨before, after, rfl, start, stop, _⟩ := place member
    rw [start, stop]
    simp
  · intro token member
    obtain ⟨before, after, rfl, _, stop, shape⟩ := place member
    rw [stop]
    simpa using shape

/-- The marks of decoded bytes split these bytes: decoding loses nothing, and all stray bytes that
it leaves are beyond ASCII, as the scan needs. -/
theorem split_ofText (bytes : List UInt8) : Split 0 bytes (Mark.ofText (Text.decode bytes)) := by
  have split := Mark.split_scan (Text.highStrays_decode bytes) 0
  rwa [Text.bytes_decode] at split

end TermLang.Server
