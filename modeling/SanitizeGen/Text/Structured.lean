import SanitizeGen.Text.Quoted

/-!
# Structured values as text

A `Structured` value is what a developer sees of a value: its parts and their names. It is written
on one line by `Structured.compact`, or with one part a line by `Structured.indented`.
-/

namespace SanitizeGen.Text

/-- A value as its parts. -/
inductive Structured where
  /-- A value without parts, by its text. -/
  | atom (text : String)
  | record (name : String) (fields : List (String × Structured))
  | tuple (name : String) (parts : List Structured)
  | list (items : List Structured)

namespace Structured

/-- A string, quoted. -/
def ofString (s : String) : Structured := atom (quoteString s)

/-- A value that may be absent. -/
def ofOption : Option Structured → Structured
  | none => atom "None"
  | some x => tuple "Some" [x]

/-! ### One line -/

mutual

/-- The value on one line. -/
def compact : Structured → String
  | atom text => text
  | record name [] => name
  | record name (f :: fs) =>
    name ++ " \x7b " ++ f.1 ++ ": " ++ f.2.compact ++ compactFields fs ++ " \x7d"
  | tuple name [] => name
  | tuple name (x :: xs) => name ++ "(" ++ x.compact ++ compactItems xs ++ ")"
  | list [] => "[]"
  | list (x :: xs) => "[" ++ x.compact ++ compactItems xs ++ "]"

/-- The fields after the first. -/
def compactFields : List (String × Structured) → String
  | [] => ""
  | f :: fs => ", " ++ f.1 ++ ": " ++ f.2.compact ++ compactFields fs

/-- The parts after the first. -/
def compactItems : List Structured → String
  | [] => ""
  | x :: xs => ", " ++ x.compact ++ compactItems xs

end

/-! ### One part a line -/

mutual

/-- The value with its parts on lines of their own; `margin` stands before every line but the
first. -/
def indentedAt (margin : String) : Structured → String
  | atom text => text
  | record name [] => name
  | record name (f :: fs) =>
    name ++ " \x7b\n" ++ indentedFields (margin ++ "    ") (f :: fs) ++ margin ++ "\x7d"
  | tuple name [] => name
  | tuple name (x :: xs) =>
    name ++ "(\n" ++ indentedItems (margin ++ "    ") (x :: xs) ++ margin ++ ")"
  | list [] => "[]"
  | list (x :: xs) => "[\n" ++ indentedItems (margin ++ "    ") (x :: xs) ++ margin ++ "]"

/-- Each field on its line, with a comma. -/
def indentedFields (margin : String) : List (String × Structured) → String
  | [] => ""
  | f :: fs =>
    margin ++ f.1 ++ ": " ++ indentedAt margin f.2 ++ ",\n" ++ indentedFields margin fs

/-- Each part on its line, with a comma. -/
def indentedItems (margin : String) : List Structured → String
  | [] => ""
  | x :: xs => margin ++ indentedAt margin x ++ ",\n" ++ indentedItems margin xs

end

/-- The value with one part a line. -/
def indented (x : Structured) : String := indentedAt "" x

end Structured

end SanitizeGen.Text
