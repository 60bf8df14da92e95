/-!
# Blank characters

The characters with the Unicode property `White_Space`, and texts trimmed of them. The
language's own blanks (space, tab, carriage return, newline) are four of these; the wider
class is what command lines and header lines are trimmed by.
-/

namespace TermLang.Text

/-- Whether a character has the Unicode property `White_Space`. -/
def isBlank (c : Char) : Bool :=
  let code := c.toNat
  (0x09 ≤ code && code ≤ 0x0D) || code == 0x20 || code == 0x85 || code == 0xA0 ||
    code == 0x1680 || (0x2000 ≤ code && code ≤ 0x200A) || code == 0x2028 || code == 0x2029 ||
    code == 0x202F || code == 0x205F || code == 0x3000

/-- Removes blank characters from both ends. -/
def trimBlank (chars : List Char) : List Char :=
  ((chars.dropWhile isBlank).reverse.dropWhile isBlank).reverse

/-- Removes every trailing character of the given class. -/
def trimEnd (drop : Char → Bool) (chars : List Char) : List Char :=
  (chars.reverse.dropWhile drop).reverse

/-- The lower-case form of a character as far as it is an ASCII letter: the ASCII capitals,
and the two characters outside ASCII whose lower case is an ASCII letter. -/
def lowerAscii (c : Char) : Char :=
  if c = '\u0130' then 'i'
  else if c = '\u212A' then 'k'
  else c.toLower

end TermLang.Text
