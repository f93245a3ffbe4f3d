import SanitizeGen.Text.CharClass

/-!
# White space and comments between tokens

`skipTrivia` drops everything that separates tokens without being one: white space, line comments
and nested block comments. Documentation comments are not trivia, since they stand for attributes.
-/

namespace SanitizeGen.Token

open Text

/-- White space between tokens: the left-to-right and right-to-left marks count too. -/
def isSeparator (c : Char) : Bool :=
  isBlank c || c == '\u200e' || c == '\u200f'

/-- The text after the end of a block comment, of which `depth + 1` levels are open. -/
def closeComment : Nat → List Char → Option (List Char)
  | depth, '/' :: '*' :: r => closeComment (depth + 1) r
  | 0, '*' :: '/' :: r => some r
  | depth + 1, '*' :: '/' :: r => closeComment depth r
  | depth, _ :: r => closeComment depth r
  | _, [] => none

/-- Whether a text starts with documentation for what follows or for what surrounds it. -/
def startsDoc : List Char → Bool
  | '/' :: '/' :: '!' :: _ => true
  | '/' :: '/' :: '/' :: '/' :: _ => false
  | '/' :: '/' :: '/' :: _ => true
  | '/' :: '*' :: '!' :: _ => true
  | '/' :: '*' :: '*' :: '*' :: _ => false
  | '/' :: '*' :: '*' :: '/' :: _ => false
  | '/' :: '*' :: '*' :: _ => true
  | _ => false

/-- One piece of trivia at the head of the text: a separator or a comment that is no documentation.
A block comment without an end is no trivia. -/
def dropTrivium : List Char → Option (List Char)
  | [] => none
  | c :: r =>
    if isSeparator c then some r
    else if startsDoc (c :: r) then none
    else match c, r with
      | '/', '/' :: r => some (r.dropWhile (· != '\n'))
      | '/', '*' :: r => closeComment 0 r
      | _, _ => none

/-- The text without the trivia at its head. -/
def skipTrivia (s : List Char) : List Char :=
  go s.length s
where
  go : Nat → List Char → List Char
    | 0, s => s
    | fuel + 1, s =>
      match dropTrivium s with
      | some r => go fuel r
      | none => s

end SanitizeGen.Token
