import TermLang.Alphabet
import TermLang.Text.Glyph

/-!
# Outlines

What can be said about a source whether or not it can be read: where its atoms and brackets
stand, and which brackets belong together. A quoted text is one token up to its closing quote,
or up to the end of the source if it never closes. Every other token is a run without blanks,
brackets and quotes. Brackets without a partner are left out, but an opening one still counts
for the depth of those inside it.
-/

namespace TermLang.Server

/-- An atom of a source, as it is written. -/
structure Token where
  /-- The byte offset at which it starts. -/
  start : Nat
  /-- What is written there. -/
  text : Text
  deriving DecidableEq, Inhabited, Repr

namespace Token

/-- The byte offset at which a token ends. -/
def stop (token : Token) : Nat :=
  token.start + token.text.width

/-- Whether a token starts with a character. -/
def startsWith (token : Token) (c : Char) : Bool :=
  token.text.head? == some (.scalar c)

/-- Whether a token is a quoted text. -/
def isQuoted (token : Token) : Bool :=
  token.startsWith '"'

/-- Whether an offset lies in a token or just behind it. -/
def touches (token : Token) (offset : Int) : Bool :=
  token.start ≤ offset && offset ≤ token.stop

end Token

/-- A bracket or a token of a source. -/
inductive Mark where
  /-- An opening bracket at an offset. -/
  | opening (offset : Nat)
  /-- A closing bracket at an offset. -/
  | closing (offset : Nat)
  /-- A token. -/
  | token (token : Token)
  deriving DecidableEq, Inhabited, Repr

namespace Mark

/-- What the scan is in the middle of: where it started, and its glyphs, the latest first. -/
inductive Pending where
  /-- Between tokens. -/
  | nothing
  /-- In a run without quotes. -/
  | word (start : Nat) (glyphs : Text)
  /-- In a quoted text. -/
  | quotation (start : Nat) (glyphs : Text)
  deriving DecidableEq, Inhabited, Repr

/-- The token that ends here, if there is one. -/
def Pending.finish : Pending → List Mark
  | .nothing => []
  | .word start glyphs | .quotation start glyphs => [.token ⟨start, glyphs.reverse⟩]

/-- What a glyph between tokens is, and what it starts. -/
def between (offset : Nat) (glyph : Glyph) : List Mark × Pending :=
  match glyph with
  | .stray _ => ([], .word offset [glyph])
  | .scalar c =>
    if c = '(' then ([.opening offset], .nothing)
    else if c = ')' then ([.closing offset], .nothing)
    else if c = '"' then ([], .quotation offset [glyph])
    else if isDivider c then ([], .nothing)
    else ([], .word offset [glyph])

/-- Whether a glyph ends a run without quotes. -/
def endsWord (glyph : Glyph) : Bool :=
  match glyph with
  | .stray _ => false
  | .scalar c => c == '(' || c == ')' || c == '"' || isDivider c

/-- What one more glyph adds to the scan. -/
def step (pending : Pending) (offset : Nat) (glyph : Glyph) : List Mark × Pending :=
  match pending with
  | .nothing => between offset glyph
  | .word start glyphs =>
    if endsWord glyph then
      let (marks, next) := between offset glyph
      (pending.finish ++ marks, next)
    else ([], .word start (glyph :: glyphs))
  | .quotation start glyphs =>
    let whole := Pending.quotation start (glyph :: glyphs)
    if glyph = .scalar '"' then (whole.finish, .nothing) else ([], whole)

/-- The marks of a text that starts at `offset`, in order. -/
def scan (pending : Pending) (offset : Nat) : Text → List Mark
  | [] => pending.finish
  | glyph :: rest =>
    let (marks, next) := step pending offset glyph
    marks ++ scan next (offset + glyph.width) rest

/-- The brackets and tokens of a text, in order. -/
def ofText (text : Text) : List Mark :=
  scan .nothing 0 text

/-- The token of a mark, if it is one. -/
def token? : Mark → Option Token
  | .token found => some found
  | _ => none

end Mark

/-- A pair of brackets. -/
structure Span where
  /-- The byte offset of the opening bracket. -/
  start : Nat
  /-- The byte offset just behind the closing bracket. -/
  stop : Nat
  /-- How many brackets are open where it starts. -/
  depth : Nat
  /-- The token right behind the opening bracket, unless a bracket comes first. -/
  head : Option Token
  deriving DecidableEq, Inhabited, Repr

namespace Span

/-- The offset of the first closing bracket with no partner among the marks, once `inner`
further brackets are closed. -/
def closing? : (inner : Nat) → List Mark → Option Nat
  | _, [] => none
  | inner, .opening _ :: rest => closing? (inner + 1) rest
  | 0, .closing offset :: _ => some offset
  | inner + 1, .closing _ :: rest => closing? inner rest
  | inner, .token _ :: rest => closing? inner rest

/-- The pairs of brackets among marks, in the order in which they open, `depth` brackets being
open already. -/
def ofMarks (depth : Nat) : List Mark → List Span
  | [] => []
  | .opening start :: rest =>
    match closing? 0 rest with
    | some offset =>
      ⟨start, offset + 1, depth, rest.head?.bind Mark.token?⟩ :: ofMarks (depth + 1) rest
    | none => ofMarks (depth + 1) rest
  | .closing _ :: rest => ofMarks (depth - 1) rest
  | .token _ :: rest => ofMarks depth rest

end Span

/-- The tokens and the pairs of brackets of a source. -/
structure Outline where
  /-- The tokens in order. -/
  tokens : List Token
  /-- The pairs of brackets in the order in which they open. -/
  spans : List Span
  deriving DecidableEq, Inhabited, Repr

namespace Outline

/-- The outline of a text. -/
def ofText (text : Text) : Outline :=
  let marks := Mark.ofText text
  ⟨marks.filterMap Mark.token?, Span.ofMarks 0 marks⟩

/-- The first token that an offset lies in or just behind. -/
def tokenAt? (outline : Outline) (offset : Int) : Option Token :=
  outline.tokens.find? (·.touches offset)

/-- The pairs of brackets that no bracket is open around. -/
def topSpans (outline : Outline) : List Span :=
  outline.spans.filter (·.depth == 0)

end Outline

end TermLang.Server
