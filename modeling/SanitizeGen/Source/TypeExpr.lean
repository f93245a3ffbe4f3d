import SanitizeGen.Token.Text

/-!
# Types and paths

A `TypeExpr` is a type as the source writes it, `TypeExpr.tokens` its tokens. What no other module
looks into, such as the parameters of a function pointer, is kept as tokens only.
-/

namespace SanitizeGen

/-- Token trees as they are printed. -/
abbrev Tokens := List TokenTree

namespace Tokens

/-- The tokens of an operator. -/
def op (s : String) : Tokens := TokenTree.ofOperator s.toList

/-- A token of one word. -/
def word (i : Ident) : Tokens := [.leaf (.word i)]

/-- A lifetime. -/
def lifetime (i : Ident) : Tokens := [.leaf (.lifetime i)]

/-- Tokens between delimiters. -/
def group (d : Delimiter) (ts : Tokens) : Tokens := [.group d ts]

/-- A comma, if there is one. -/
def comma (present : Bool) : Tokens := if present then op "," else []

end Tokens

/-- Something in a list with commas, and whether a comma follows it. -/
structure Listed (α : Type) where
  item : α
  comma : Bool

mutual

/-- A type. -/
inductive TypeExpr where
  /-- A path such as `a::B<T>`. -/
  | path (leading : Bool) (segments : List Segment)
  /-- A path into a type such as `<T as A>::B`. `base` is the path behind `as`, empty without
  one. -/
  | qualified (self : TypeExpr) (leading : Bool) (base rest : List Segment)
  | reference (lifetime : Option Ident) (isMut : Bool) (target : TypeExpr)
  | pointer (isMut : Bool) (target : TypeExpr)
  | slice (element : TypeExpr)
  | array (element : TypeExpr) (length : List TokenTree)
  | paren (inner : TypeExpr)
  | tuple (elements : List TypeExpr) (trailing : Bool)
  /-- A type of another form: a function pointer, `impl` and `dyn` types, a macro call, `!`, `_`. -/
  | other (tokens : List TokenTree)

/-- One segment of a path. -/
inductive Segment where
  | bare (name : Ident)
  /-- A segment with arguments in angle brackets; `turbofish` says that `::` stands before them. -/
  | angled (name : Ident) (turbofish : Bool) (args : List Argument)

/-- An argument in angle brackets, and whether a comma follows it. -/
inductive Argument where
  | type (t : TypeExpr) (comma : Bool)
  | lifetime (name : Ident) (comma : Bool)
  /-- A constant, or a binding or bound of an associated type. -/
  | other (tokens : List TokenTree) (comma : Bool)

end

namespace Segment

/-- The name of a segment. -/
def name : Segment → Ident
  | bare n => n
  | angled n _ _ => n

/-- Whether the segment is a name alone. -/
def isBare : Segment → Bool
  | bare _ => true
  | angled _ _ _ => false

end Segment

namespace Argument

/-- Arguments that stand for `args` in print: lifetimes come first, each argument keeps the comma
written after it, and one is added where neighbours would lack it. -/
def arrange (args : List (Bool × Tokens × Bool)) : Tokens :=
  let lifetimes := args.filter (·.1)
  let others := args.filter (!·.1)
  let separated := (lifetimes.getLast?.map (·.2.2)).getD true
  lifetimes.flatMap (fun (_, ts, comma) => ts ++ Tokens.comma comma) ++ go separated others
where
  go : Bool → List (Bool × Tokens × Bool) → Tokens
    | _, [] => []
    | separated, (_, ts, comma) :: r =>
      Tokens.comma (!separated) ++ ts ++ Tokens.comma comma ++ go comma r

end Argument

/-- Segments with double colons between them. -/
def joinSegments : List Tokens → Tokens
  | [] => []
  | [s] => s
  | s :: t :: r => s ++ Tokens.op "::" ++ joinSegments (t :: r)

/-- Tokens of a list with commas between, and one at the end if `trailing`. -/
def joinCommas (trailing : Bool) : List Tokens → Tokens
  | [] => []
  | [t] => t ++ Tokens.comma trailing
  | t :: u :: r => t ++ Tokens.op "," ++ joinCommas trailing (u :: r)

/-- A word that is part of the language. -/
def Tokens.keyword (name : String) (h : isIdentText name.toList = true := by decide) : Tokens :=
  Tokens.word (.plain name h)

def Tokens.constKeyword : Tokens := Tokens.keyword "const"

mutual

/-- The tokens of a type. -/
def TypeExpr.tokens : TypeExpr → Tokens
  | .path leading segments =>
    (if leading then Tokens.op "::" else []) ++ joinSegments (Segment.tokensAll segments)
  | .qualified self leading base rest =>
    Tokens.op "<" ++ self.tokens ++
      (if base.isEmpty then []
       else Tokens.keyword "as" ++ (if leading then Tokens.op "::" else []) ++
         joinSegments (Segment.tokensAll base)) ++
      Tokens.op ">" ++ Tokens.op "::" ++ joinSegments (Segment.tokensAll rest)
  | .reference lifetime isMut target =>
    Tokens.op "&" ++ (lifetime.map Tokens.lifetime).getD [] ++
      (if isMut then Tokens.keyword "mut" else []) ++ target.tokens
  | .pointer isMut target =>
    Tokens.op "*" ++ (if isMut then Tokens.keyword "mut" else Tokens.constKeyword) ++
      target.tokens
  | .slice element => Tokens.group .bracket element.tokens
  | .array element length => Tokens.group .bracket (element.tokens ++ Tokens.op ";" ++ length)
  | .paren inner => Tokens.group .paren inner.tokens
  | .tuple elements trailing =>
    Tokens.group .paren (joinCommas trailing (TypeExpr.tokensAll elements))
  | .other ts => ts

/-- The tokens of each of some types. -/
def TypeExpr.tokensAll : List TypeExpr → List Tokens
  | [] => []
  | t :: ts => t.tokens :: TypeExpr.tokensAll ts

/-- The tokens of a segment. -/
def Segment.tokens : Segment → Tokens
  | .bare name => Tokens.word name
  | .angled name turbofish args =>
    Tokens.word name ++ (if turbofish then Tokens.op "::" else []) ++
      Tokens.op "<" ++ Argument.arrange (Argument.tokensAll args) ++ Tokens.op ">"

/-- The tokens of each segment of a path. -/
def Segment.tokensAll : List Segment → List Tokens
  | [] => []
  | s :: ss => s.tokens :: Segment.tokensAll ss

/-- The tokens of an argument: whether it is a lifetime, how it is written, and whether a comma
follows. -/
def Argument.tokens : Argument → Bool × Tokens × Bool
  | .type t comma => (false, t.tokens, comma)
  | .lifetime name comma => (true, Tokens.lifetime name, comma)
  | .other ts comma => (false, ts, comma)

/-- The tokens of each argument. -/
def Argument.tokensAll : List Argument → List (Bool × Tokens × Bool)
  | [] => []
  | a :: as => a.tokens :: Argument.tokensAll as

end

/-- A type as text. -/
def TypeExpr.text (t : TypeExpr) : String := TokenTree.textOf t.tokens

end SanitizeGen
