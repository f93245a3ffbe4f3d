/-!
# Text separated by double colons

`splitPath` cuts a text at every `::`, left to right, and `lastOfPath` is the part after the last
one. Both work on any text, also where colons come in odd numbers.
-/

namespace SanitizeGen.Text

/-- The parts of a text between its double colons, from the left. -/
def splitPath : List Char → List (List Char)
  | ':' :: ':' :: r => [] :: splitPath r
  | c :: r =>
    match splitPath r with
    | p :: ps => (c :: p) :: ps
    | [] => [[c]]
  | [] => [[]]

/-- What follows the last double colon, if there is one. -/
def afterLastColons : List Char → Option (List Char)
  | [] => none
  | c :: r =>
    match afterLastColons r with
    | some t => some t
    | none =>
      match c, r with
      | ':', ':' :: t => some t
      | _, _ => none

/-- The last part of a path; the whole text if it has no double colon. -/
def lastOfPath (s : List Char) : List Char :=
  (afterLastColons s).getD s

/-- The text without a leading `r#`. -/
def dropRaw : List Char → List Char
  | 'r' :: '#' :: t => t
  | s => s

end SanitizeGen.Text
