import SanitizeGen.Token.Basic
import SanitizeGen.Token.Quotation

/-!
# Literals

`Literal.take?` reads the literal at the head of a text; `Literal.stringValue` is the text a string
literal stands for.
-/

namespace SanitizeGen

open Text Token

namespace Literal

/-- The text without the identifier at its head: a literal may end in a suffix. -/
def dropSuffix (s : List Char) : List Char :=
  match s with
  | c :: r => if isIdentStart c then r.dropWhile isIdentContinue else s
  | [] => s

/-- What stands for the content of a raw string of some kind: whether non-ASCII characters and NUL
may occur. -/
structure RawRules where
  wide : Bool
  nul : Bool

/-- What follows the closing quote and hashes of a raw string. -/
def closeRaw (rules : RawRules) (hashes : List Char) : List Char → Option (List Char)
  | [] => none
  | '"' :: r => if hashes.isPrefixOf r then some (r.drop hashes.length) else closeRaw rules hashes r
  | '\r' :: '\n' :: r => closeRaw rules hashes r
  | c :: r =>
    if c == '\r' || (c == '\x00' && !rules.nul) || (0x80 ≤ c.toNat && !rules.wide) then none
    else closeRaw rules hashes r

/-- What follows a raw string, after the letters in front of its hashes. At most 255 hashes. -/
def afterRaw (rules : RawRules) (s : List Char) : Option (List Char) :=
  let hashes := s.takeWhile (· == '#')
  if 255 < hashes.length then none
  else match s.drop hashes.length with
    | '"' :: r => closeRaw rules hashes r
    | _ => none

/-- What follows the digits of an exponent, of which there has to be one. -/
def afterExponent (sign value : Bool) : List Char → Option (List Char)
  | [] => if value then some [] else none
  | c :: r =>
    if c == '+' || c == '-' then
      if value then some (c :: r) else if sign then none else afterExponent true value r
    else if isAsciiDigit c then afterExponent sign true r
    else if c == '_' then afterExponent sign value r
    else if value then some (c :: r) else none

/-- The text without the decimal digits and underscores at its head. -/
def dropDigits (s : List Char) : List Char :=
  s.dropWhile fun c => isAsciiDigit c || c == '_'

/-- What follows the digits of a number with a point or an exponent. A point that starts a range, a
field or a method is none of it. -/
def afterFloatDigits (s : List Char) : Option (List Char) :=
  if (s.head?.map isAsciiDigit).getD false then
    match dropDigits s with
    | '.' :: r =>
      if (r.head?.map fun c => c == '.' || isIdentStart c).getD false then none
      else
        let rest := dropDigits r
        match rest with
        | e :: t =>
          if e == 'e' || e == 'E' then some ((afterExponent false false t).getD rest)
          else some rest
        | [] => some rest
    | e :: t => if e == 'e' || e == 'E' then afterExponent false false t else none
    | [] => none
  else none

/-- What follows the digits of an integer. `empty` says that none has been read. -/
def afterIntegerDigits (base : Nat) (empty : Bool) : List Char → Option (List Char)
  | [] => if empty then none else some []
  | c :: r =>
    if c == '_' then
      if empty && base == 10 then none else afterIntegerDigits base empty r
    else match hexValue c with
      | some d =>
        if d < base then afterIntegerDigits base false r
        else if isAsciiDigit c then none
        else if empty then none else some (c :: r)
      | none => if empty then none else some (c :: r)

/-- What follows an integer without its suffix. -/
def afterInteger : List Char → Option (List Char)
  | '0' :: 'x' :: r => afterIntegerDigits 16 true r
  | '0' :: 'o' :: r => afterIntegerDigits 8 true r
  | '0' :: 'b' :: r => afterIntegerDigits 2 true r
  | s => afterIntegerDigits 10 true s

/-- The rest after a number's suffix, unless letters go on. -/
def endNumber (s : List Char) : Option (List Char) :=
  let rest := dropSuffix s
  if (rest.head?.map isIdentContinue).getD false then none else some rest

/-- What follows a literal of each kind, in the order in which the kinds are tried. -/
def candidates (s : List Char) : List (LiteralKind × Option (List Char)) :=
  [(.string, match s with
      | '"' :: r => (afterQuotation .text r).map dropSuffix
      | 'r' :: r => (afterRaw ⟨true, true⟩ r).map dropSuffix
      | _ => none),
   (.byteString, match s with
      | 'b' :: '"' :: r => (afterQuotation .bytes r).map dropSuffix
      | 'b' :: 'r' :: r => (afterRaw ⟨false, true⟩ r).map dropSuffix
      | _ => none),
   (.cString, match s with
      | 'c' :: '"' :: r => (afterQuotation .terminated r).map dropSuffix
      | 'c' :: 'r' :: r => (afterRaw ⟨true, false⟩ r).map dropSuffix
      | _ => none),
   (.byte, match s with
      | 'b' :: '\'' :: r => (afterUnit .bytes r).map dropSuffix
      | _ => none),
   (.char, match s with
      | '\'' :: r => (afterUnit .text r).map dropSuffix
      | _ => none),
   (.float, (afterFloatDigits s).bind endNumber),
   (.integer, (afterInteger s).bind endNumber)]

/-- The literal at the head of a text and what follows it. -/
def take? (s : List Char) : Option (Literal × List Char) :=
  (candidates s).findSome? fun (kind, rest?) =>
    rest?.map fun rest => (⟨kind, s.take (s.length - rest.length)⟩, rest)

/-- The text that a string literal stands for. -/
def stringValue (l : Literal) : Option (List Char) :=
  match l.kind, l.text with
  | .string, '"' :: r => (Quotation.close .text .plain r).map (·.1)
  | .string, 'r' :: r =>
    let hashes := r.takeWhile (· == '#')
    let body := r.drop (hashes.length + 1)
    (closeRaw ⟨true, true⟩ hashes body).map fun rest =>
      body.take (body.length - rest.length - hashes.length - 1)
  | _, _ => none

end Literal

end SanitizeGen
