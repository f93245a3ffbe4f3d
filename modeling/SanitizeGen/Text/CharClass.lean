import SanitizeGen.Text.IdentRanges

/-!
# Character classes

`isBlank` is Unicode white space; `isIdentStart` and `isIdentContinue` are the characters an
identifier may start with and go on with. ASCII is decided without the tables, so that closed
instances evaluate quickly.
-/

namespace SanitizeGen.Text

/-- Whether `c` lies in one of the ranges `rs`, ends included. -/
def inRanges (rs : List (Nat × Nat)) (c : Char) : Bool :=
  rs.any fun r => r.1 ≤ c.toNat && c.toNat ≤ r.2

/-- Unicode white space. -/
def isBlank (c : Char) : Bool :=
  let n := c.toNat
  n == 0x20 || (0x09 ≤ n && n ≤ 0x0d) || n == 0x85 || n == 0xa0 || n == 0x1680 ||
    (0x2000 ≤ n && n ≤ 0x200a) || n == 0x2028 || n == 0x2029 || n == 0x202f || n == 0x205f ||
    n == 0x3000

/-- A letter `a`–`z` or `A`–`Z`. -/
def isAsciiLetter (c : Char) : Bool :=
  ('a' ≤ c && c ≤ 'z') || ('A' ≤ c && c ≤ 'Z')

/-- A digit `0`–`9`. -/
def isAsciiDigit (c : Char) : Bool :=
  '0' ≤ c && c ≤ '9'

/-- Whether an identifier may start with `c`: a letter of any script, or the underscore. -/
def isIdentStart (c : Char) : Bool :=
  isAsciiLetter c || c == '_' || (0x80 ≤ c.toNat && inRanges identStartRanges c)

/-- Whether an identifier may go on with `c`. -/
def isIdentContinue (c : Char) : Bool :=
  isIdentStart c || isAsciiDigit c || (0x80 ≤ c.toNat && inRanges identContinueOnlyRanges c)

theorem isIdentContinue_of_start {c : Char} (h : isIdentStart c = true) :
    isIdentContinue c = true := by
  simp [isIdentContinue, h]

/-- `s` without the white space at its two ends. -/
def trim (s : List Char) : List Char :=
  ((s.dropWhile isBlank).reverse.dropWhile isBlank).reverse

end SanitizeGen.Text
