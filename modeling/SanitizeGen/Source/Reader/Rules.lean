import SanitizeGen.Source.Reader.Basic

/-!
# The rules of the grammar and their recursion

`Rules` holds the rules that others call recursively. Each rule is a function of such a record, so
that none is recursive by itself; `Source.Reader.Grammar` ties the knot. Attributes are read here,
since every other rule allows them somewhere.
-/

namespace SanitizeGen

/-- What of an expression decides how it may go on. -/
inductive Shape where
  /-- A range, which cannot be an operand on the left. -/
  | range
  /-- A comparison, which cannot be compared again. -/
  | comparison
  /-- An expression that ends a statement or match arm without a separator. -/
  | block
  /-- A macro call with braces. -/
  | bracedMacro
  | other
  deriving DecidableEq

/-- An expression as it is printed. -/
structure Expr where
  tokens : Tokens
  shape : Shape := .other

namespace Expr

/-- Whether the expression ends with a brace. -/
def endsInBrace (e : Expr) : Bool :=
  match e.tokens.getLast? with
  | some (.group .brace _) => true
  | _ => false

end Expr

/-- The rules that are read recursively. -/
structure Rules where
  /-- A type. The argument says whether bounds may be added with a plus sign. -/
  type : Bool → Reader TypeExpr
  /-- A segment of a path in a type or bound. -/
  segment : Reader Segment
  /-- An operand. The argument says whether a struct expression may stand here. -/
  unary : Bool → Reader Expr
  /-- What follows an operand, with operators of at least the given precedence. -/
  binary : Bool → Nat → Expr → Reader Expr
  /-- An expression at the head of a statement or match arm. -/
  leading : Reader Expr
  /-- A pattern without alternatives. -/
  pattern : Reader Tokens
  /-- The statements of a block. -/
  statements : Reader Tokens
  item : Reader Item
  /-- A tree of imports. The argument says whether double colons may start its paths. -/
  imports : Bool → Reader Unit

namespace Rules

open Reader

/-- Rules that read nothing. -/
def none : Rules where
  type _ := failure
  segment := failure
  unary _ := failure
  binary _ _ _ := failure
  leading := failure
  pattern := failure
  statements := failure
  item := failure
  imports _ := failure

variable (g : Rules)

/-- An expression. -/
def expr (allowStruct : Bool := true) : Reader Expr := do
  let left ← g.unary allowStruct
  g.binary allowStruct 0 left

/-- An expression as tokens. -/
def exprTokens : Reader Tokens := do return (← g.expr).tokens

/-- A path without arguments. A reserved word that starts a path may stand anywhere in it. -/
def simplePath : Reader SimplePath := do
  let leading ← op? "::"
  let more ← iterate (fun (segments, more) => do
    let ts ← rest
    if !more then return Option.none
    else if ts.startsIdent || ts.startsWordIn ["super", "self", "Self", "crate"] then
      let i ← anyWord
      if ← sees (·.startsOp "::") then
        let _ ← op "::"
        return some (i :: segments, true)
      else return some (i :: segments, false)
    else return Option.none) (([] : List Ident), true)
  check (!more.2)
  return ⟨!leading.isEmpty, more.1.reverse⟩

/-- The value of an attribute, after an equals sign. -/
def metaValue : Reader Tokens := do
  let _ ← op "="
  let value ← rest
  if value.startsLiteral && value.length ≤ (if value.startsOp "-" then 2 else 1) then literal
  else
    check (!(value.startsOp "#" && (value.skip 1).startsGroup .bracket))
    g.exprTokens

/-- What follows the path of an attribute. -/
def metaAfter (p : SimplePath) : Reader Meta := do
  let ts ← rest
  match ts with
  | .group d args :: _ => skip 1; return .list p d args
  | _ =>
    if ts.startsOpOnly "=" ["==", "=>"] then return .nameValue p (← g.metaValue)
    else return .path p

/-- The content of an attribute. -/
def attrContent : Reader Meta := do
  if ← sees (·.startsWord "unsafe") then g.metaAfter ⟨false, [← anyWord]⟩
  else g.metaAfter (← simplePath)

theorem size_le_of_metaAfter {p : SimplePath} {ts r : Tokens} {m : Meta}
    (h : (g.metaAfter p).run ts = some (m, r)) : m.size ≤ TokenTree.sizeAll ts := by
  obtain ⟨_, _, hts, h⟩ := run_bind_eq_some.1 h
  cases hts
  split at h
  · obtain ⟨_, _, -, h⟩ := run_bind_eq_some.1 h
    cases h
    rw [Meta.size, TokenTree.sizeAll, TokenTree.size]
    omega
  · split at h
    · obtain ⟨_, _, -, h⟩ := run_bind_eq_some.1 h
      cases h
      exact Nat.zero_le _
    · cases h
      exact Nat.zero_le _

theorem size_le_of_attrContent {ts r : Tokens} {m : Meta}
    (h : g.attrContent.run ts = some (m, r)) : m.size ≤ TokenTree.sizeAll ts := by
  obtain ⟨b, s, hs, h⟩ := run_bind_eq_some.1 h
  cases hs
  -- either way a path is read first
  have hpath : ∃ p s, s <:+ ts ∧ (g.metaAfter p).run s = some (m, r) := by
    split at h
    · obtain ⟨i, s, hi, h⟩ := run_bind_eq_some.1 h
      exact ⟨_, s, anyWord.isSuffix hi, h⟩
    · obtain ⟨p, s, hp, h⟩ := run_bind_eq_some.1 h
      exact ⟨p, s, simplePath.isSuffix hp, h⟩
  obtain ⟨p, s, hs, h⟩ := hpath
  exact Nat.le_trans (g.size_le_of_metaAfter h) (TokenTree.sizeAll_le_of_suffix hs)

/-- The attributes in front of something. -/
def outerAttrs : Reader (List Attribute) :=
  manyWhile (·.startsOp "#") do
    let _ ← op "#"
    return ⟨false, ← inGroup .bracket g.attrContent⟩

/-- The attributes at the start of a body. -/
def innerAttrs : Reader (List Attribute) :=
  manyWhile (fun ts => ts.startsOp "#" && (ts.skip 1).startsOp "!") do
    let _ ← op "#"
    let _ ← op "!"
    return ⟨true, ← inGroup .bracket g.attrContent⟩

/-- The attributes in front of something, as tokens. -/
def outerAttrTokens : Reader Tokens := do return (← g.outerAttrs).flatMap Attribute.tokens

/-- A block between braces. -/
def block : Reader Tokens := group .brace g.statements

/-- A block between braces that may start with attributes. -/
def body : Reader Tokens := group .brace do
  let attrs ← g.innerAttrs
  return attrs.flatMap Attribute.tokens ++ (← g.statements)

/-- Who may use an item. -/
def visibility : Reader Tokens := do
  if ← sees (·.startsWord "pub") then
    let pub ← word "pub"
    match ← rest with
    | .group .paren content :: _ =>
      if Tokens.startsWordIn content ["crate", "self", "super"] && content.length == 1 then
        skip 1
        return pub ++ Tokens.group .paren content
      else if Tokens.startsWord content "in" then
        let p ← inGroup .paren (do let i ← word "in"; return i ++ (← simplePath).tokens)
        return pub ++ Tokens.group .paren p
      else return pub
    | _ => return pub
  else return []

end Rules

end SanitizeGen
