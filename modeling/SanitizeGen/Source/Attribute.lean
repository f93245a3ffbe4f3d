import SanitizeGen.Source.TypeExpr

/-!
# Attributes

An attribute holds a `Meta`: a path alone, a path with a list between delimiters, or a path with a
value. `SimplePath.isWord` is the test for a path of one plain word.
-/

namespace SanitizeGen

/-- A path without arguments. Its segments may be reserved words. -/
structure SimplePath where
  leading : Bool
  segments : List Ident
  deriving DecidableEq

namespace SimplePath

/-- Whether the path is the single word `w`. -/
def isWord (p : SimplePath) (w : String) : Bool :=
  !p.leading && p.segments.map Ident.text == [w]

/-- The word that the path consists of, if it has no other part. -/
def word? (p : SimplePath) : Option Ident :=
  match p.leading, p.segments with
  | false, [i] => some i
  | _, _ => none

/-- The tokens of the path. -/
def tokens (p : SimplePath) : Tokens :=
  (if p.leading then Tokens.op "::" else []) ++ joinSegments (p.segments.map Tokens.word)

end SimplePath

/-- What an attribute says. -/
inductive Meta where
  | path (p : SimplePath)
  | list (p : SimplePath) (d : Delimiter) (args : Tokens)
  | nameValue (p : SimplePath) (value : Tokens)

namespace Meta

/-- The path that names the attribute. -/
def name : Meta → SimplePath
  | path p => p
  | list p _ _ => p
  | nameValue p _ => p

/-- The number of tokens of the attribute's list, with its delimiters. -/
def size : Meta → Nat
  | path _ => 0
  | list _ _ args => TokenTree.sizeAll args + 2
  | nameValue _ _ => 0

/-- The tokens of the attribute's content. -/
def tokens : Meta → Tokens
  | path p => p.tokens
  | list p d args => p.tokens ++ Tokens.group d args
  | nameValue p value => p.tokens ++ Tokens.op "=" ++ value

end Meta

/-- An attribute; an inner one stands inside the item it belongs to. -/
structure Attribute where
  inner : Bool
  content : Meta

namespace Attribute

/-- Whether the attribute is named by the word `w`. -/
def isNamed (a : Attribute) (w : String) : Bool := a.content.name.isWord w

/-- The tokens of an attribute. -/
def tokens (a : Attribute) : Tokens :=
  Tokens.op "#" ++ (if a.inner then Tokens.op "!" else []) ++
    Tokens.group .bracket a.content.tokens

end Attribute

end SanitizeGen
