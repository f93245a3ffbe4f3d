import SanitizeGen.Text.PrintRanges
import SanitizeGen.Text.CharClass

/-!
# Quoted text

How a debug print writes characters and strings: quotes and backslashes are escaped, and so is every
character that does not print or that would join the character before it.
-/

namespace SanitizeGen.Text

/-- The lower-case hexadecimal digits of `n`, without leading zeros. -/
def hexDigits (n : Nat) : List Char :=
  Nat.toDigits 16 n

/-- Whether `c` is written as it is: not a control, format, private or unassigned code point, and
no white space other than the space itself. -/
def isPrintable (c : Char) : Bool :=
  if c.toNat < 0x7f then 0x20 ≤ c.toNat else !(c.toNat == 0x7f || inRanges unprintableRanges c)

/-- Whether `c` extends the grapheme before it. -/
def isGraphemeExtend (c : Char) : Bool :=
  0x80 ≤ c.toNat && inRanges graphemeExtendRanges c

/-- The escape of a character by its code point, between braces. -/
def unicodeEscape (c : Char) : List Char :=
  '\\' :: 'u' :: '\x7b' :: hexDigits c.toNat ++ ['\x7d']

/-- `c` as it stands between the quotes `q`. -/
def escapeChar (q : Char) (c : Char) : List Char :=
  if c == '\x00' then ['\\', '0']
  else if c == '\t' then ['\\', 't']
  else if c == '\r' then ['\\', 'r']
  else if c == '\n' then ['\\', 'n']
  else if c == '\\' || c == q then ['\\', c]
  else if isGraphemeExtend c then unicodeEscape c
  else if isPrintable c then [c]
  else unicodeEscape c

/-- The string `s` between double quotes. -/
def quoteString (s : String) : String :=
  String.ofList ('"' :: (s.toList.flatMap (escapeChar '"') ++ ['"']))

/-- The character `c` between single quotes. -/
def quoteChar (c : Char) : String :=
  String.ofList ('\'' :: (escapeChar '\'' c ++ ['\'']))

/-- The string literal that stands for the text of a comment. An apostrophe stays as it is, and NUL
is written in hexadecimal before an octal digit. -/
def commentLiteral (s : List Char) : List Char :=
  '"' :: (go s ++ ['"'])
where
  go : List Char → List Char
    | [] => []
    | c :: r =>
      let octalNext := match r with
        | d :: _ => '0' ≤ d && d ≤ '7'
        | [] => false
      (if c == '\x00' then (if octalNext then ['\\', 'x', '0', '0'] else ['\\', '0'])
       else escapeChar '"' c) ++ go r

end SanitizeGen.Text
