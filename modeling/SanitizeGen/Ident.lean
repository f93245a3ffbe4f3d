import SanitizeGen.Token.Trivia

/-!
# Identifiers

An `Ident` is a name and whether it is written with the raw mark `r#`. `Ident.parse?` reads a text
that holds one identifier and nothing else, and refuses reserved words that are not raw.
-/

namespace SanitizeGen

open Text Token

/-- The words that only stand for an identifier when they are raw. -/
def reservedWords : List String :=
  ["_", "abstract", "as", "async", "await", "become", "box", "break", "const", "continue", "crate",
   "do", "dyn", "else", "enum", "extern", "false", "final", "fn", "for", "if", "impl", "in", "let",
   "loop", "macro", "match", "mod", "move", "mut", "override", "priv", "pub", "ref", "return",
   "Self", "self", "static", "struct", "super", "trait", "true", "try", "type", "typeof", "unsafe",
   "unsized", "use", "virtual", "where", "while", "yield"]

/-- The words that cannot be raw. -/
def unrawableWords : List String :=
  ["_", "super", "self", "Self", "crate"]

/-- Whether `cs` has the letters of an identifier. -/
def isIdentText : List Char → Bool
  | [] => false
  | c :: r => isIdentStart c && r.all isIdentContinue

/-- A word of the source: the letters of an identifier, raw or not. Reserved words count, the ones
that cannot be raw only without the mark. -/
structure Ident where
  raw : Bool
  /-- The letters, without the raw mark. -/
  name : String
  isIdentText_name : isIdentText name.toList = true := by decide
  rawable : raw = true → name ∉ unrawableWords := by decide
  deriving DecidableEq

namespace Ident

/-- The word with these letters, without the mark. -/
def plain (name : String) (h : isIdentText name.toList = true := by decide) : Ident :=
  ⟨false, name, h, nofun⟩

/-- The identifier as it is written. -/
def text (i : Ident) : String :=
  if i.raw then "r#" ++ i.name else i.name

/-- Whether the word is a keyword, so that it names nothing. -/
def isReserved (i : Ident) : Bool :=
  !i.raw && reservedWords.contains i.name

/-- The identifier with these letters, if they are one. -/
def ofName? (raw : Bool) (cs : List Char) : Option Ident :=
  if h : isIdentText (String.ofList cs).toList = true ∧
      (raw = true → String.ofList cs ∉ unrawableWords) then
    some ⟨raw, String.ofList cs, h.1, h.2⟩
  else none

/-- The identifier at the head of a text, as long as possible, and what follows it. -/
def take? (s : List Char) : Option (Ident × List Char) :=
  match s with
  | 'r' :: '#' :: r => (ofName? true (r.takeWhile isIdentContinue)).map
      fun i => (i, r.dropWhile isIdentContinue)
  | s => (ofName? false (s.takeWhile isIdentContinue)).map
      fun i => (i, s.dropWhile isIdentContinue)

/-- The text without a byte order mark. -/
def dropMark : List Char → List Char
  | '\ufeff' :: r => r
  | s => s

/-- The identifier that is the only token of a text, unless it is a reserved word. -/
def parse? (s : List Char) : Option Ident :=
  match take? (skipTrivia (dropMark s)) with
  | some (i, r) => if (skipTrivia r).isEmpty && !i.isReserved then some i else none
  | none => none

end Ident

end SanitizeGen
