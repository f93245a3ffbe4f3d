import SanitizeGen.Source.Reader.Pattern

/-!
# Reading expressions and statements

Binary operators bind by `binaryOps`; the precedence of a range, of a cast and of an assignment
stands beside it.
-/

namespace SanitizeGen.Rules

open Reader

variable (g : Rules)

/-! ### Precedence -/

/-- Assignments, and operators that assign. -/
def assignPrec : Nat := 1

/-- Ranges. -/
def rangePrec : Nat := 2

/-- Comparisons. -/
def comparePrec : Nat := 6

/-- Casts. -/
def castPrec : Nat := 13

/-- The binary operators in the order in which they are looked for, each with its precedence. -/
def binaryOps : List (String × Nat) :=
  [("+=", 1), ("-=", 1), ("*=", 1), ("/=", 1), ("%=", 1), ("^=", 1), ("&=", 1), ("|=", 1),
   ("<<=", 1), (">>=", 1), ("&&", 4), ("||", 3), ("<<", 10), (">>", 10), ("==", 6), ("<=", 6),
   ("!=", 6), (">=", 6), ("+", 11), ("-", 11), ("*", 12), ("/", 12), ("%", 12), ("^", 8),
   ("&", 9), ("|", 7), ("<", 6), (">", 6)]

/-- The binary operator that follows. -/
def binaryOp? (ts : Tokens) : Option (String × Nat) :=
  binaryOps.find? fun (s, _) => ts.startsOp s

/-- The precedence of what follows; 0 if no operator does. -/
def nextPrec (ts : Tokens) : Nat :=
  match binaryOp? ts with
  | some (_, p) => p
  | Option.none =>
    if ts.startsOpOnly "=" ["=>"] then assignPrec
    else if ts.startsOp ".." then rangePrec
    else if ts.startsWord "as" then castPrec
    else 0

/-! ### Operators -/

/-- The operand on the right of an operator of precedence `p`. -/
def rightOperand (allowStruct : Bool) (p : Nat) : Reader Expr := do
  let first ← g.unary allowStruct
  let (e, _) ← iterate (fun (e, done) => do
    if done then return Option.none
    let before ← rest
    let next := nextPrec before
    if next > p || (next == p && p == assignPrec) then
      let e ← g.binary allowStruct next e
      return some (e, (← rest).length == before.length)
    else return Option.none) (first, false)
  return e

/-- Whether a range has no end, seen from what follows its dots. -/
def endsRange (allowStruct : Bool) (ts : Tokens) : Bool :=
  ts.isEmpty || ts.startsOp "," || ts.startsOp ";" || ts.startsOpOnly "." [".."] ||
    ts.startsOp "?" || ts.startsOp "=>" || (!allowStruct && ts.startsGroup .brace) ||
    ["=", "+", "/", "%", "^", ">", "<=", "!=", "-=", "*=", "&=", "|=", "<<="].any ts.startsOp ||
    ts.startsWord "as"

/-- The dots of a range and its end. -/
def rangeEnd (allowStruct : Bool) : Reader Tokens := do
  let (dots, closed) ← rangeLimits
  if !closed && endsRange allowStruct (← rest) then return dots
  else return dots ++ (← g.rightOperand allowStruct rangePrec).tokens

/-- Whether something follows that cannot follow a cast. -/
def blocksCast (ts : Tokens) : Bool :=
  ts.startsOpOnly "." [".."] || ts.startsOp "?" || ts.startsGroup .bracket || ts.startsGroup .paren

/-- What follows the operand `left`, with operators of at least the precedence `base`. -/
def binaryRule (allowStruct : Bool) (base : Nat) (left : Expr) : Reader Expr :=
  iterate (fun left => do
    let ts ← rest
    if left.shape = .range then return Option.none
    match binaryOp? ts with
    | some (s, p) =>
      if p < base then return Option.none
      check (!(p == comparePrec && left.shape = .comparison))
      let sign ← op s
      let right ← g.rightOperand allowStruct p
      return some ⟨left.tokens ++ sign ++ right.tokens,
        if p == comparePrec then .comparison else .other⟩
    | Option.none =>
      if base ≤ assignPrec && ts.startsOpOnly "=" ["=>"] then
        let sign ← op "="
        let right ← g.rightOperand allowStruct assignPrec
        return some ⟨left.tokens ++ sign ++ right.tokens, .other⟩
      else if base ≤ rangePrec && ts.startsOp ".." then
        return some ⟨left.tokens ++ (← g.rangeEnd allowStruct), .range⟩
      else if base ≤ castPrec && ts.startsWord "as" then
        let cast ← word "as"
        let t ← g.type false
        check (!blocksCast (← rest))
        return some ⟨left.tokens ++ cast ++ t.tokens, .other⟩
      else return Option.none) left

/-! ### Calls, fields and indices -/

/-- Fields given by the parts of a number with a point, such as the end of `x.0.1`. Whether a point
ends the number is told too. -/
def pointedFields (l : Literal) : Reader (Tokens × Bool) := do
  let dotted := l.text.getLast? == some '.'
  let body := if dotted then l.text.dropLast else l.text
  let first := body.takeWhile (· != '.')
  let second := (body.dropWhile (· != '.')).drop 1
  let parts := if body.contains '.' then [first, second] else [first]
  check (parts.all fun p => !p.isEmpty && p.all Text.isAsciiDigit)
  let number (p : List Char) : Tokens := [.leaf (.literal ⟨.integer, p⟩)]
  let fields := match parts with
    | [a, b] => number a ++ Tokens.op "." ++ number b
    | _ => number first
  return (fields ++ if dotted then Tokens.op "." else [], dotted)

/-- What follows the point of a field or method: a field, a call, or `await`. -/
def afterPoint : Reader Tokens := do
  if ← sees (·.startsWord "await") then word "await"
  else
    let (name, named) ← member
    let turbofish ←
      if named && (← sees (·.startsOp "::")) then do
        let sep ← op "::"
        pure (sep ++ Tokens.op "<" ++ Argument.arrange (Argument.tokensAll (← g.arguments)) ++
          Tokens.op ">")
      else pure []
    if named && (!turbofish.isEmpty || (← sees (·.startsGroup .paren))) then
      return name ++ turbofish ++ (← group .paren (commaList g.exprTokens))
    else return name

/-- What follows the operand `e` directly: calls, fields, indices and question marks. -/
def trailers (e : Expr) : Reader Expr :=
  iterate (fun e => do
    let ts ← rest
    if ts.startsGroup .paren then
      return some ⟨e.tokens ++ (← group .paren (commaList g.exprTokens)), .other⟩
    else if ts.startsOpOnly "." [".."] && e.shape != .range then
      let dot ← op "."
      match ← rest with
      | .leaf (.literal l) :: _ =>
        if l.kind = .float then
          skip 1
          let (fields, dotted) ← pointedFields l
          if dotted then return some ⟨e.tokens ++ dot ++ fields ++ (← g.afterPoint), .other⟩
          else return some ⟨e.tokens ++ dot ++ fields, .other⟩
        else return some ⟨e.tokens ++ dot ++ (← g.afterPoint), .other⟩
      | _ => return some ⟨e.tokens ++ dot ++ (← g.afterPoint), .other⟩
    else if ts.startsGroup .bracket then
      return some ⟨e.tokens ++ (← group .bracket g.exprTokens), .other⟩
    else if ts.startsOp "?" && e.shape != .range then
      return some ⟨e.tokens ++ (← op "?"), .other⟩
    else return Option.none) e

/-! ### Atoms -/

/-- A condition, which ends in front of a brace. -/
def condition : Reader Tokens := do return (← g.expr false).tokens

/-- A chain of conditions with their blocks. -/
def conditional : Reader Tokens := do
  let (found, _) ← iterate (fun (found, done) => do
    if done then return Option.none
    let start ← word "if"
    let here := found ++ start ++ (← g.condition) ++ (← g.block)
    if ← sees (·.startsWord "else") then
      let other ← word "else"
      if ← sees (·.startsWord "if") then return some (here ++ other, false)
      else return some (here ++ other ++ (← g.block), true)
    else return some (here, true)) (([] : Tokens), false)
  return found

/-- An arm of a match, and whether the next one needs no comma in front. -/
def matchArm : Reader Tokens := do
  let attrs ← g.outerAttrTokens
  let pat ← g.alternatives
  let guarded ←
    if ← sees (·.startsWord "if") then do pure ((← word "if") ++ (← g.exprTokens)) else pure []
  let arrow ← op "=>"
  let e ← g.leading
  let comma ←
    if e.shape != .block && !(← atEnd) then op "," else op? ","
  return attrs ++ pat ++ guarded ++ arrow ++ e.tokens ++ comma

/-- A match. -/
def matching : Reader Tokens := do
  return (← word "match") ++ (← g.condition) ++ (← group .brace do
    let attrs ← g.innerAttrs
    let arms ← manyWhile (!·.isEmpty) g.matchArm
    return attrs.flatMap Attribute.tokens ++ arms.flatten)

/-- A loop. -/
def loop : Reader Tokens := do
  let ts ← rest
  if ts.startsWord "while" then return (← word "while") ++ (← g.condition) ++ (← g.body)
  else if ts.startsWord "for" then
    return (← word "for") ++ (← g.alternatives) ++ (← word "in") ++ (← g.condition) ++ (← g.body)
  else return (← word "loop") ++ (← g.body)

/-- A loop or a block behind a label. -/
def labelled : Reader Tokens := do
  let label := Tokens.lifetime (← lifetime)
  let colon ← op ":"
  if ← sees (·.startsGroup .brace) then return label ++ colon ++ (← g.body)
  else return label ++ colon ++ (← g.loop)

/-- Whether generic parameters follow, and not a path through a type. -/
def startsGenerics (ts : Tokens) : Bool :=
  let second := ts.skip 1
  let third := ts.skip 2
  ts.startsOp "<" &&
    (second.startsOp ">" || second.startsOp "#" ||
      ((second.startsLifetime || second.startsIdent) &&
        (third.startsOp ">" || third.startsOp "," || third.startsOpOnly ":" ["::"] ||
          third.startsOp "=")) ||
      second.startsWord "const")

/-- A parameter of a closure. -/
def closureParam : Reader Tokens := do
  let attrs ← g.outerAttrTokens
  let p ← g.pattern
  if ← sees (·.startsOp ":") then return attrs ++ p ++ (← op ":") ++ (← g.type true).tokens
  else return attrs ++ p

/-- A closure. -/
def closure (allowStruct : Bool) : Reader Tokens := do
  let before := (← g.binder?) ++ (← word? "const") ++ (← word? "static") ++ (← word? "async") ++
    (← word? "move")
  let left ← op "|"
  let params ← separated (·.startsOp "|") g.closureParam (op ",")
  let right ← op "|"
  let start := before ++ left ++ params.flatMap (fun (ts, sep) => ts ++ sep.getD []) ++ right
  if ← sees (·.startsOp "->") then
    return start ++ (← op "->") ++ (← g.type true).tokens ++ (← g.block)
  else return start ++ (← g.expr allowStruct).tokens

/-- A field of a struct expression. -/
def fieldValue : Reader Tokens := do
  let attrs ← g.outerAttrTokens
  let (name, named) ← member
  if !named || (← sees (·.startsOp ":")) then
    return attrs ++ name ++ (← op ":") ++ (← g.exprTokens)
  else return attrs ++ name

/-- The fields of a struct expression; dots stand in front of what gives the others. -/
def fieldValues : Reader Tokens := do
  let (found, _) ← iterate (fun (found, done) => do
    if done || (← atEnd) then return Option.none
    if ← sees (·.startsOp "..") then
      let dots ← op ".."
      if ← atEnd then return some (found ++ dots, true)
      else return some (found ++ dots ++ (← g.exprTokens), true)
    let f ← g.fieldValue
    if ← atEnd then return some (found ++ f, true)
    else return some (found ++ f ++ (← op ","), false)) (([] : Tokens), false)
  return found

/-- An expression that starts with a path. -/
def pathExpr (allowStruct : Bool) : Reader Expr := do
  let t ← g.typePath true
  let ts ← rest
  if ts.startsOpOnly "!" ["!="] && isMacroName t then
    let call ← macroCall
    return ⟨t.tokens ++ call,
      if (call.skip 1).startsGroup .brace then .bracedMacro else .other⟩
  else if allowStruct && ts.startsGroup .brace then
    return ⟨t.tokens ++ (← group .brace g.fieldValues), .other⟩
  else return ⟨t.tokens, .other⟩

/-- An array by its elements, or by one element and a length. -/
def arrayContent : Reader Tokens := do
  if ← atEnd then return []
  let first ← g.exprTokens
  if ← sees (·.startsOp ";") then return first ++ (← op ";") ++ (← g.exprTokens)
  else if ← atEnd then return first
  else return first ++ (← op ",") ++ (← commaList g.exprTokens)

/-- Whether an expression can follow. -/
def startsExpr (ts : Tokens) : Bool :=
  ts.startsAnyWord || ts.startsGroup .paren || ts.startsGroup .bracket || ts.startsGroup .brace ||
    ts.startsLiteral || ts.startsOpOnly "!" ["!="] || ts.startsOpOnly "-" ["-=", "->"] ||
    ts.startsOpOnly "*" ["*="] || ts.startsOpOnly "|" ["|="] || ts.startsOpOnly "&" ["&="] ||
    ts.startsOp ".." || ts.startsOpOnly "<" ["<=", "<<="] || ts.startsOp "::" ||
    ts.startsLifetime || ts.startsOp "#"

/-- The value of a jump, if it has one. -/
def jumpValue (allowStruct : Bool) : Reader Tokens := do
  let ts ← rest
  if startsExpr ts && (allowStruct || !ts.startsGroup .brace) then
    return (← g.expr allowStruct).tokens
  else return []

/-- A condition that binds a pattern. -/
def letCondition (allowStruct : Bool) : Reader Tokens := do
  let start := (← word "let") ++ (← g.alternatives) ++ (← op "=")
  let first ← g.unary allowStruct
  return start ++ (← g.binary allowStruct comparePrec first).tokens

/-- The keywords that start an expression which ends a statement. -/
def startsBlock (ts : Tokens) : Bool :=
  ts.startsWordIn ["if", "while", "loop", "match", "unsafe"] ||
    (ts.startsWord "for" && !startsGenerics (ts.skip 1)) ||
    (ts.startsWordIn ["try", "const"] && (ts.skip 1).startsGroup .brace) ||
    ts.startsGroup .brace || ts.startsLifetime

/-- An expression that ends a statement. -/
def blockExpr : Reader Tokens := do
  let ts ← rest
  if ts.startsWord "if" then g.conditional
  else if ts.startsWordIn ["while", "for", "loop"] then g.loop
  else if ts.startsWord "match" then g.matching
  else if ts.startsLifetime then g.labelled
  else if ts.startsWord "try" then return (← word "try") ++ (← g.block)
  else if ts.startsWordIn ["unsafe", "const"] then return Tokens.word (← anyWord) ++ (← g.body)
  else g.body

/-- An operand without signs in front and without calls behind. -/
def atom (allowStruct : Bool) : Reader Expr := do
  let ts ← rest
  let next := ts.skip 1
  if ts.startsLiteral then return ⟨← literal, .other⟩
  else if ts.startsWord "async" && (next.startsGroup .brace ||
      (next.startsWord "move" && (ts.skip 2).startsGroup .brace)) then
    return ⟨(← word "async") ++ (← word? "move") ++ (← g.block), .other⟩
  else if ts.startsOp "|" || ts.startsWord "move" ||
      (ts.startsWord "for" && startsGenerics next) ||
      (ts.startsWord "const" && !next.startsGroup .brace) || ts.startsWord "static" ||
      (ts.startsWord "async" && (next.startsOp "|" || next.startsWord "move")) then
    return ⟨← g.closure allowStruct, .other⟩
  else if startsBlock ts then return ⟨← g.blockExpr, .block⟩
  else if ts.startsWord "builtin" && next.startsOp "#" then
    return ⟨Tokens.word (← anyWord) ++ (← op "#") ++ Tokens.word (← ident) ++
      (← group .paren remaining), .other⟩
  else if ts.startsIdent || ts.startsOp "::" || ts.startsOp "<" ||
      ts.startsWordIn ["self", "Self", "super", "crate"] ||
      (ts.startsWord "try" && (next.startsOp "!" || next.startsOp "::")) then g.pathExpr allowStruct
  else if ts.startsGroup .paren then return ⟨← group .paren (commaList g.exprTokens), .other⟩
  else if ts.startsWord "break" then
    let start ← word "break"
    let label ← lifetime?
    check (label.isEmpty || !(← sees (·.startsOp ":")))
    return ⟨start ++ label ++ (← g.jumpValue allowStruct), .other⟩
  else if ts.startsWord "continue" then return ⟨(← word "continue") ++ (← lifetime?), .other⟩
  else if ts.startsWord "return" then
    let start ← word "return"
    if startsExpr (← rest) then return ⟨start ++ (← g.expr allowStruct).tokens, .other⟩
    else return ⟨start, .other⟩
  else if ts.startsWord "become" then return ⟨(← word "become") ++ (← g.exprTokens), .other⟩
  else if ts.startsGroup .bracket then return ⟨← group .bracket g.arrayContent, .other⟩
  else if ts.startsWord "let" then return ⟨← g.letCondition allowStruct, .other⟩
  else if ts.startsWord "yield" then
    return ⟨(← word "yield") ++ (← g.jumpValue true), .other⟩
  else if ts.startsOp ".." then return ⟨← g.rangeEnd allowStruct, .range⟩
  else if ts.startsWord "_" then return ⟨← word "_", .other⟩
  else failure

/-- An operand with the signs in front of it. -/
def unaryRule (allowStruct : Bool) : Reader Expr := do
  let attrs ← g.outerAttrTokens
  let ts ← rest
  if ts.startsOp "&" then
    let amp ← op "&"
    let next ← rest
    if next.startsWord "raw" && (next.skip 1).startsWordIn ["mut", "const"] then
      let raw := Tokens.word (← anyWord) ++ Tokens.word (← anyWord)
      return ⟨attrs ++ amp ++ raw ++ (← g.unary allowStruct).tokens, .other⟩
    else return ⟨attrs ++ amp ++ (← word? "mut") ++ (← g.unary allowStruct).tokens, .other⟩
  else if ts.startsOp "*" || ts.startsOp "!" || ts.startsOp "-" then
    let sign ← if ts.startsOp "*" then op "*" else if ts.startsOp "!" then op "!" else op "-"
    return ⟨attrs ++ sign ++ (← g.unary allowStruct).tokens, .other⟩
  else
    let e ← g.trailers (← g.atom allowStruct)
    check (attrs.isEmpty || e.shape != .range)
    return ⟨attrs ++ e.tokens, e.shape⟩

/-- An expression at the head of a statement or match arm: one that ends with a block goes on only
with a point or a question mark. -/
def leadingRule : Reader Expr := do
  let attrs ← g.outerAttrTokens
  if startsBlock (← rest) then
    let first ← g.blockExpr
    let ts ← rest
    if ts.startsOpOnly "." [".."] || ts.startsOp "?" then
      let e ← g.trailers ⟨first, .block⟩
      let e ← g.binary true 0 e
      return ⟨attrs ++ e.tokens, e.shape⟩
    else return ⟨attrs ++ first, .block⟩
  else
    let first ← g.unary true
    let e ← if first.shape = .block then pure first else g.binary true 0 first
    return ⟨attrs ++ e.tokens, e.shape⟩

/-! ### Statements -/

/-- Whether an item follows, and not an expression. -/
def startsItem (ts : Tokens) : Bool :=
  let second := ts.skip 1
  let third := ts.skip 2
  ts.startsWordIn ["pub", "extern", "use", "fn", "mod", "type", "struct", "enum", "trait", "impl",
      "macro"] ||
    (ts.startsWord "crate" && !second.startsOp "::") ||
    (ts.startsWord "static" && (second.startsWord "mut" ||
      (second.startsIdent &&
        !(second.startsWord "async" && (third.startsWord "move" || third.startsOp "|"))))) ||
    (ts.startsWord "const" &&
      !(second.startsGroup .brace || second.startsWord "static" ||
        (second.startsWord "async" && !third.startsWordIn ["unsafe", "extern", "fn"]) ||
        second.startsWord "move" || second.startsOp "|")) ||
    (ts.startsWord "unsafe" && !second.startsGroup .brace) ||
    (ts.startsWord "async" && second.startsWordIn ["unsafe", "extern", "fn"]) ||
    (ts.startsWord "union" && second.startsIdent) ||
    (ts.startsWord "auto" && second.startsWord "trait") ||
    (ts.startsWord "default" && second.startsWordIn ["unsafe", "impl"])

/-- What a macro call at the head of a statement is. -/
inductive StatementMacro where
  /-- The definition of a name, which is an item. -/
  | item
  /-- A call with braces, which is a statement by itself. -/
  | statement (path : Tokens)
  | neither

/-- What kind of macro call starts the statement, if any. -/
def statementMacro : Reader StatementMacro := lookAhead do
  let p ← simplePath
  let ts ← rest
  let next := ts.skip 1
  let third := ts.skip 2
  if !ts.startsOp "!" then return .neither
  else if next.startsIdent || next.startsWord "try" then return .item
  else if next.startsGroup .brace && !(third.startsOpOnly "." [".."] || third.startsOp "?") then
    return .statement p.tokens
  else return .neither

/-- The rest of a binding statement. -/
def localBinding : Reader Tokens := do
  let start := (← word "let") ++ (← g.pattern)
  let typed ←
    if ← sees (·.startsOp ":") then do pure ((← op ":") ++ (← g.type true).tokens) else pure []
  let init ←
    if ← sees (·.startsOp "=") then do
      let eq ← op "="
      let e ← g.expr
      if !e.endsInBrace && (← sees (·.startsWord "else")) then
        pure (eq ++ e.tokens ++ (← word "else") ++ (← g.block))
      else pure (eq ++ e.tokens)
    else pure []
  return start ++ typed ++ init ++ (← op ";")

/-- Whether an item follows, behind its attributes. -/
def itemFollows : Reader Bool := lookAhead do
  let _ ← g.outerAttrs
  match ← statementMacro <|> pure .neither with
  | .item => return true
  | .statement _ => return false
  | .neither => sees startsItem

/-- A statement, and whether another one needs a semicolon in front of it. -/
def statement : Reader (Tokens × Bool) := do
  if ← g.itemFollows then return (← consumed g.item, false)
  let attrs ← g.outerAttrTokens
  match ← statementMacro <|> pure .neither with
  | .statement path =>
    let _ ← simplePath
    return (attrs ++ path ++ (← macroCall) ++ (← op? ";"), false)
  | _ =>
    if ← sees (·.startsWord "let") then return (attrs ++ (← g.localBinding), false)
    let e ← g.leading
    let semi ← op? ";"
    return (attrs ++ e.tokens ++ semi,
      semi.isEmpty && !(e.shape = .block || e.shape = .bracedMacro))

/-- The statements of a block. -/
def statementsRule : Reader Tokens := do
  let (found, _) ← iterate (fun (found, done) => do
    if done then return Option.none
    let semis ← manyWhile (·.startsOp ";") (op ";")
    let here := found ++ semis.flatten
    if ← atEnd then return some (here, true)
    let (s, unfinished) ← g.statement
    if ← atEnd then return some (here ++ s, true)
    check (!unfinished)
    return some (here ++ s, false)) (([] : Tokens), false)
  return found

end SanitizeGen.Rules
