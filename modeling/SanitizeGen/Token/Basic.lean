import SanitizeGen.Ident

/-!
# Tokens

A source text is a list of token trees: single tokens, and groups of trees between delimiters.
-/

namespace SanitizeGen

/-- What encloses a group. -/
inductive Delimiter where
  | paren
  | bracket
  | brace
  deriving DecidableEq

/-- What a literal is written as. -/
inductive LiteralKind where
  | string
  | byteString
  | cString
  | byte
  | char
  | integer
  | float
  deriving DecidableEq

/-- A literal with its text, which includes the suffix. -/
structure Literal where
  kind : LiteralKind
  text : List Char
  deriving DecidableEq

/-- A single token. -/
inductive Token where
  | word (i : Ident)
  | lifetime (i : Ident)
  /-- A punctuation character; `joint` says that another one follows without a space. -/
  | punct (c : Char) (joint : Bool)
  | literal (l : Literal)
  deriving DecidableEq

/-- A token, or a group of trees between delimiters. -/
inductive TokenTree where
  | leaf (t : Token)
  | group (d : Delimiter) (ts : List TokenTree)

namespace TokenTree

mutual

/-- The number of tokens of a tree, each delimiter counted. -/
def size : TokenTree → Nat
  | leaf _ => 1
  | group _ ts => sizeAll ts + 2

/-- The number of tokens of a list of trees. -/
def sizeAll : List TokenTree → Nat
  | [] => 0
  | t :: ts => size t + sizeAll ts

end

theorem sizeAll_le_of_suffix {ts us : List TokenTree} (h : ts <:+ us) :
    sizeAll ts ≤ sizeAll us := by
  obtain ⟨before, rfl⟩ := h
  induction before with
  | nil => exact Nat.le_refl _
  | cons t before ih =>
    rw [List.cons_append, sizeAll]
    omega

/-- The tree of a word that is not raw. -/
def ofIdent (i : Ident) : TokenTree := leaf (.word i)

/-- The trees of an operator: its characters stand together. -/
def ofOperator : List Char → List TokenTree
  | [] => []
  | [c] => [leaf (.punct c false)]
  | c :: d :: r => leaf (.punct c true) :: ofOperator (d :: r)

end TokenTree

end SanitizeGen
