import SanitizeGen.Text.CharClass

/-!
# The inside of quoted literals

One automaton reads the text between quotes, character by character: `step` says what a character
does and which characters of the literal's value it yields. `afterQuotation` finds the end of a
string, `afterUnit` the end of a single character, and `value` is what the text stands for.
-/

namespace SanitizeGen.Token

open Text

/-- What the escapes of a kind of literal may say. -/
structure EscapeRules where
  /-- Whether `\0` is an escape. -/
  nul : Bool
  /-- Whether a code point may be given between braces. -/
  unicode : Bool
  /-- Whether `\x` reaches beyond ASCII. -/
  wideHex : Bool
  /-- Whether characters beyond ASCII may stand unescaped. -/
  wide : Bool
  /-- Whether the value may hold the character NUL. -/
  nulValue : Bool

namespace EscapeRules

/-- Escapes of strings and characters. -/
def text : EscapeRules := ⟨true, true, false, true, true⟩

/-- Escapes of byte strings and bytes. -/
def bytes : EscapeRules := ⟨true, false, true, false, true⟩

/-- Escapes of strings that end in NUL. -/
def terminated : EscapeRules := ⟨false, true, true, true, false⟩

end EscapeRules

/-- Where the automaton stands. -/
inductive Quotation where
  /-- Between units. -/
  | plain
  /-- After a carriage return, which a line feed has to follow. -/
  | carriage
  /-- After a backslash. -/
  | escape
  /-- After `\x`. -/
  | hexHigh
  /-- After the first digit of `\x`. -/
  | hexLow (high : Nat)
  /-- After `\u`. -/
  | codeOpen
  /-- After `count` digits of a code point. -/
  | code (value count : Nat)
  /-- In the white space that a backslash at the end of a line removes. -/
  | gap
  /-- In that white space, after a carriage return. -/
  | gapCarriage
  deriving DecidableEq

/-- The value of a hexadecimal digit. -/
def hexValue (c : Char) : Option Nat :=
  if isAsciiDigit c then some (c.toNat - '0'.toNat)
  else if 'a' ≤ c && c ≤ 'f' then some (c.toNat - 'a'.toNat + 10)
  else if 'A' ≤ c && c ≤ 'F' then some (c.toNat - 'A'.toNat + 10)
  else none

namespace Quotation

/-- The character with code `n`, if the rules allow it as a value. -/
def ofCode (rules : EscapeRules) (n : Nat) : Option (Quotation × List Char) :=
  if n == 0 && !rules.nulValue then none
  else if n.isValidChar then some (plain, [Char.ofNat n])
  else none

/-- What a character does between units. -/
def plainStep (rules : EscapeRules) (c : Char) : Option (Quotation × List Char) :=
  if c == '\\' then some (escape, [])
  else if c == '\r' then some (carriage, [])
  else if c == '\x00' && !rules.nulValue then none
  else if !rules.wide && 0x80 ≤ c.toNat then none
  else some (plain, [c])

/-- The next state and the characters of the value that `c` completes. -/
def step (rules : EscapeRules) : Quotation → Char → Option (Quotation × List Char)
  | plain, c => plainStep rules c
  | carriage, c => if c == '\n' then some (plain, [c]) else none
  | escape, c =>
    match c with
    | 'n' => some (plain, ['\n'])
    | 'r' => some (plain, ['\r'])
    | 't' => some (plain, ['\t'])
    | '\\' => some (plain, ['\\'])
    | '\'' => some (plain, ['\''])
    | '"' => some (plain, ['"'])
    | '0' => if rules.nul then some (plain, ['\x00']) else none
    | 'x' => some (hexHigh, [])
    | 'u' => if rules.unicode then some (codeOpen, []) else none
    | '\n' => some (gap, [])
    | '\r' => some (gapCarriage, [])
    | _ => none
  | hexHigh, c =>
    match hexValue c with
    | some d => if rules.wideHex || d < 8 then some (hexLow d, []) else none
    | none => none
  | hexLow high, c =>
    match hexValue c with
    | some d => ofCode rules (16 * high + d)
    | none => none
  | codeOpen, c => if c == '\x7b' then some (code 0 0, []) else none
  | code value count, c =>
    match hexValue c with
    | some d => if count == 6 then none else some (code (16 * value + d) (count + 1), [])
    | none =>
      if count == 0 then none
      else if c == '_' then some (code value count, [])
      else if c == '\x7d' then ofCode rules value
      else none
  | gap, c =>
    if c == '\r' then some (gapCarriage, [])
    else if !rules.wide && 0x80 ≤ c.toNat then none
    else if isBlank c then some (gap, [])
    else plainStep rules c
  | gapCarriage, c => if c == '\n' then some (gap, []) else none

/-- Whether a quote ends the literal here. -/
def isClosable : Quotation → Bool
  | plain => true
  | gap => true
  | _ => false

/-- What follows the closing quote of a string, and the value of the string. -/
def close (rules : EscapeRules) : Quotation → List Char → Option (List Char × List Char)
  | _, [] => none
  | q, c :: r =>
    if c == '"' && q.isClosable then some ([], r)
    else match step rules q c with
      | some (q', out) => (close rules q' r).map fun (value, rest) => (out ++ value, rest)
      | none => none

/-- What follows one escape. White space cannot be escaped here. -/
def closeEscape (rules : EscapeRules) : Quotation → List Char → Option (List Char)
  | _, [] => none
  | q, c :: r =>
    match step rules q c with
    | some (plain, _) => some r
    | some (gap, _) => none
    | some (gapCarriage, _) => none
    | some (q', _) => closeEscape rules q' r
    | none => none

end Quotation

/-- What follows a string whose opening quote has been read. -/
def afterQuotation (rules : EscapeRules) (s : List Char) : Option (List Char) :=
  (Quotation.close rules .plain s).map (·.2)

/-- What follows a single character or byte and its closing apostrophe. -/
def afterUnit (rules : EscapeRules) (s : List Char) : Option (List Char) :=
  let rest := match s with
    | '\\' :: r => Quotation.closeEscape rules .escape r
    | c :: r => if !rules.wide && 0x80 ≤ c.toNat then none else some r
    | [] => none
  match rest with
  | some ('\'' :: r) => some r
  | _ => none

end SanitizeGen.Token
