import SanitizeGen.Source.Reader.Rules

/-!
# Reading paths, types, bounds and generic parameters
-/

namespace SanitizeGen.Rules

open Reader

variable (g : Rules)

/-- A constant that stands for a generic parameter. -/
def constArgument : Reader Tokens := do
  let ts ← rest
  if ts.startsLiteral then literal
  else if ts.startsIdent then return Tokens.word (← ident)
  else if ts.startsGroup .brace then g.body
  else failure

/-- Lifetimes that a type or bound is generic over. -/
def binder : Reader Tokens := do
  let start := (← word "for") ++ (← op "<")
  let found ← separated (·.startsOp ">")
    (do return (← g.outerAttrTokens) ++ Tokens.lifetime (← lifetime)) (op ",")
  return start ++ found.flatMap (fun (ts, sep) => ts ++ sep.getD []) ++ (← op ">")

/-- A binder if there is one. -/
def binder? : Reader Tokens := do
  if ← sees (·.startsWord "for") then g.binder else return []

/-- Tokens of elements with separators between them; it ends where `stop` holds in front of an
element, or where no separator follows one. -/
def chain (stop : Tokens → Bool) (p : Reader Tokens) (sep : String) : Reader Tokens := do
  let (found, _) ← iterate (fun (found, done) => do
    if done || (← sees stop) then return Option.none
    let a ← p
    if ← sees (·.startsOp sep) then return some (found ++ a ++ (← op sep), false)
    else return some (found ++ a, true)) ([], false)
  return found

/-- The result of a function. -/
def returnType (plus : Bool) : Reader Tokens := do
  if ← sees (·.startsOp "->") then return (← op "->") ++ (← g.type plus).tokens else return []

/-- Which generic parameters a type captures. -/
def captures : Reader Tokens := do
  let start := (← word "use") ++ (← op "<")
  let found ← separated (·.startsOp ">")
    (do
      let ts ← rest
      if ts.startsLifetime then return Tokens.lifetime (← lifetime)
      else if ts.startsIdent || ts.startsWord "Self" then return Tokens.word (← anyWord)
      else failure)
    (op ",")
  return start ++ found.flatMap (fun (ts, sep) => ts ++ sep.getD []) ++ (← op ">")

/-- The trait of a bound, with its modifiers. -/
def traitBound (allowConst : Bool) : Reader Tokens := do
  let before ← g.binder?
  let ts ← rest
  let constness ←
    if ts.startsGroup .bracket then group .bracket (word "const") else word? "const"
  check (constness.isEmpty || allowConst)
  let maybe ← op? "?"
  check (before.isEmpty || maybe.isEmpty)
  let leading ← op? "::"
  let first ← g.segment
  let more ← manyWhile (fun ts => ts.startsOp "::" && !(ts.skip 2).startsGroup .paren)
    (do let _ ← op "::"; g.segment)
  let segments := first :: more
  let ts ← rest
  let called := ((segments.getLast?.map Segment.isBare).getD false) &&
    (ts.startsGroup .paren || (ts.startsOp "::" && (ts.skip 2).startsGroup .paren))
  let inputs ←
    if called then do
      let _ ← op? "::"
      let ins ← group .paren (commaList do return (← g.type true).tokens)
      pure (ins ++ (← g.returnType false))
    else pure []
  return before ++ constness ++ maybe ++ leading ++ joinSegments (segments.map Segment.tokens) ++
    inputs

/-- A bound, and whether it names a trait. -/
def bound (allowCaptures allowConst : Bool) :
    Reader (Tokens × Bool) := do
  let ts ← rest
  if ts.startsLifetime then return (Tokens.lifetime (← lifetime), false)
  else if ts.startsWord "use" then
    check allowCaptures
    return (← captures, false)
  else if ts.startsGroup .paren then
    return (← group .paren (g.traitBound allowConst), true)
  else return (← g.traitBound allowConst, true)

/-- Bounds with plus signs between them, and whether one names a trait. -/
def bounds (plus allowCaptures allowConst : Bool) :
    Reader (Tokens × Bool) := do
  let (found, isTrait, _) ← iterate (fun (found, isTrait, done) => do
    if done then return Option.none
    let (ts, t) ← g.bound allowCaptures allowConst
    if plus && (← sees (·.startsOp "+")) then
      let sep ← op "+"
      let next ← rest
      let goesOn := next.startsAnyWord || next.startsOp "::" || next.startsOp "?" ||
        next.startsLifetime || next.startsGroup .paren ||
        (allowConst && (next.startsGroup .bracket || next.startsWord "const"))
      return some (found ++ ts ++ sep, isTrait || t, !goesOn)
    else return some (found ++ ts, isTrait || t, true)) ([], false, false)
  return (found, isTrait)

/-- An argument between angle brackets; the comma after it is still to be told. -/
def argument : Reader (Bool → Argument) := do
  let ts ← rest
  if ts.startsLifetime && !(ts.skip 1).startsOp "+" then return .lifetime (← lifetime)
  else if ts.startsLiteral || ts.startsGroup .brace then return .other (← g.constArgument)
  else
    let t ← g.type true
    match t with
    | .path false [s] =>
      if ← sees (·.startsOp "=") then
        let eq ← op "="
        let ts ← rest
        if ts.startsLiteral || ts.startsGroup .brace then
          return .other (s.tokens ++ eq ++ (← g.constArgument))
        else return .other (s.tokens ++ eq ++ (← g.type true).tokens)
      else if ← sees (·.startsOp ":") then
        let colon ← op ":"
        let bs ← chain (fun ts => ts.startsOp "," || ts.startsOp ">")
          (do return (← g.bound false true).1) "+"
        return .other (s.tokens ++ colon ++ bs)
      else return .type t
    | _ => return .type t

/-- The arguments between angle brackets, each with the comma after it. -/
def arguments : Reader (List Argument) := do
  let _ ← op "<"
  let found ← separated (·.startsOp ">") g.argument (op ",")
  let _ ← op ">"
  return found.map fun (arg, sep) => arg sep.isSome

/-- A segment of a path; in an expression its arguments need double colons in front. -/
def pathSegment (exprStyle : Bool) : Reader Segment := do
  let ts ← rest
  if ts.startsWordIn ["super", "self", "crate", "try"] then return .bare (← anyWord)
  else
    let name ← if ts.startsWord "Self" then anyWord else ident
    let ts ← rest
    if (!exprStyle && ts.startsOpOnly "<" ["<="]) ||
        (ts.startsOp "::" && (ts.skip 2).startsOp "<") then
      let turbofish ← op? "::"
      return .angled name (!turbofish.isEmpty) (← g.arguments)
    else return .bare name

/-- A path, whether double colons start it, and its segments. Parentheses after double colons do
not belong to it. -/
def path (exprStyle : Bool) : Reader (Bool × List Segment) := do
  let leading ← op? "::"
  let first ← g.pathSegment exprStyle
  let more ← manyWhile (fun ts => ts.startsOp "::" && !(ts.skip 2).startsGroup .paren)
    (do let _ ← op "::"; g.pathSegment exprStyle)
  return (!leading.isEmpty, first :: more)

/-- A path that may go through a type. -/
def typePath (exprStyle : Bool) : Reader TypeExpr := do
  if ← sees (·.startsOp "<") then
    let _ ← op "<"
    let self ← g.type true
    let (leading, base) ←
      if ← sees (·.startsWord "as") then do
        let _ ← anyWord
        g.path false
      else pure (false, [])
    let _ ← op ">"
    let _ ← op "::"
    let first ← g.pathSegment exprStyle
    let more ← manyWhile (·.startsOp "::") (do let _ ← op "::"; g.pathSegment exprStyle)
    return .qualified self leading base (first :: more)
  else
    let (leading, segments) ← g.path exprStyle
    return .path leading segments

/-- Whether a path has no arguments, so that it may name a macro. -/
def isMacroName : TypeExpr → Bool
  | .path _ segments => segments.all Segment.isBare
  | _ => false

/-- The exclamation mark and the argument of a macro call. -/
def macroCall : Reader Tokens := do return (← op "!") ++ (← anyGroup)

/-- The binding system of a function. -/
def binding : Reader Tokens := do
  if ← sees (·.startsWord "extern") then
    let ext ← word "extern"
    if ← sees (·.startsString) then return ext ++ (← literal) else return ext
  else return []

/-- A parameter of a function pointer; the first one may be a receiver. -/
def pointerParam (first : Bool) : Reader Tokens := do
  let ts ← rest
  if first && ts.startsWord "mut" && (ts.skip 1).startsWord "self" then
    let m ← word "mut"
    let self ← word "self"
    if ← sees (·.startsOpOnly ":" ["::"]) then
      return m ++ self ++ (← op ":") ++ (← g.type true).tokens
    else return m ++ self
  else if (ts.startsIdent || ts.startsWord "_" || (first && ts.startsWord "self")) &&
      (ts.skip 1).startsOpOnly ":" ["::"] then
    return Tokens.word (← anyWord) ++ (← op ":") ++ (← g.type true).tokens
  else return (← g.type true).tokens

/-- The parameters of a function pointer; dots at the end stand for any further ones. -/
def pointerParams : Reader Tokens := do
  let (found, _, _) ← iterate (fun (found, first, done) => do
    if done || (← atEnd) then return Option.none
    let attrs ← g.outerAttrTokens
    let ts ← rest
    let named := (ts.startsIdent || ts.startsWord "_") && (ts.skip 1).startsOp ":"
    if ts.startsOp "..." || (named && (ts.skip 2).startsOp "...") then
      let name ← if named then do pure (Tokens.word (← anyWord) ++ (← op ":")) else pure []
      return some (found ++ attrs ++ name ++ (← op "...") ++ (← op? ","), false, true)
    else
      let p ← g.pointerParam first
      if ← atEnd then return some (found ++ attrs ++ p, false, true)
      else return some (found ++ attrs ++ p ++ (← op ","), false, false)) ([], true, false)
  return found

/-- A function pointer after its binder. -/
def functionPointer : Reader Tokens := do
  return (← word? "unsafe") ++ (← binding) ++ (← word "fn") ++ (← group .paren g.pointerParams) ++
    (← g.returnType false)

/-- What stands between parentheses where a type is read. -/
inductive ParenType where
  | whole (t : TypeExpr)
  | optional (bound : Tokens)
  | single (t : TypeExpr)

/-- The content of parentheses where a type is read. -/
def parenType : Reader ParenType := do
  let ts ← rest
  if ts.isEmpty then return .whole (.tuple [] false)
  else if ts.startsLifetime then
    let (bs, isTrait) ← g.bounds true false false
    check isTrait
    return .whole (.paren (.other bs))
  else if ts.startsOp "?" then return .optional (← g.traitBound false)
  else
    let first ← g.type true
    if ← sees (·.startsOp ",") then
      let _ ← op ","
      let more ← separated List.isEmpty (g.type true) (op ",")
      let trailing := (more.getLast?.map (·.2.isSome)).getD true
      return .whole (.tuple (first :: more.map (·.1)) trailing)
    else return .single first

/-- Bounds that a plus sign adds to what has been read. -/
def moreBounds (found : Tokens) : Reader Tokens :=
  iterate (fun found => do
    if ← sees (·.startsOp "+") then
      let sep ← op "+"
      return some (found ++ sep ++ (← g.bound false false).1)
    else return Option.none) found

/-- A type that starts with parentheses. -/
def typeInParens (plus : Bool) : Reader TypeExpr := do
  match ← inGroup .paren g.parenType with
  | .whole t => return t
  | .optional b => return .other (← g.moreBounds (Tokens.group .paren b))
  | .single t =>
    match t with
    | .path _ _ =>
      if plus && (← sees (·.startsOp "+")) then
        return .other (← g.moreBounds (Tokens.group .paren t.tokens))
      else return .paren t
    | _ => return .paren t

/-- A type that starts with a path, after the binder `before`. -/
def typeFromPath (before : Tokens) (plus : Bool) : Reader TypeExpr := do
  let t ← g.typePath false
  match t with
  | .path _ _ =>
    let ts ← rest
    if ts.startsOpOnly "!" ["!="] && isMacroName t then return .other (t.tokens ++ (← macroCall))
    else if !before.isEmpty || (plus && ts.startsOp "+") then
      let start := before ++ t.tokens
      if plus && ts.startsOp "+" then
        let sep ← op "+"
        let next ← rest
        if next.startsAnyWord || next.startsOp "::" || next.startsOp "?" ||
            next.startsLifetime || next.startsGroup .paren then
          return .other (start ++ sep ++ (← g.bounds true false false).1)
        else return .other (start ++ sep)
      else return .other start
    else return t
  | _ => return t

/-- A type. `plus` says whether bounds may be added to a trait. -/
def typeRule (plus : Bool) : Reader TypeExpr := do
  let before ← g.binder?
  let ts ← rest
  let function := ts.startsWordIn ["fn", "unsafe", "extern"]
  let named := ts.startsIdent || ts.startsWordIn ["super", "self", "Self", "crate"]
  if !before.isEmpty then check (function || named)
  if ts.startsGroup .paren then g.typeInParens plus
  else if function then return .other (before ++ (← g.functionPointer))
  else if named || ts.startsOp "::" || ts.startsOp "<" then g.typeFromPath before plus
  else if ts.startsWord "dyn" then
    let dyn ← word "dyn"
    let star ← op? "*"
    let (bs, isTrait) ← g.bounds plus false false
    check isTrait
    return .other (dyn ++ star ++ bs)
  else if ts.startsGroup .bracket then
    inGroup .bracket do
      let element ← g.type true
      if ← sees (·.startsOp ";") then
        let _ ← op ";"
        return .array element (← g.exprTokens)
      else return .slice element
  else if ts.startsOp "*" then
    let _ ← op "*"
    let isMut ← sees (·.startsWord "mut")
    let _ ← if isMut then word "mut" else word "const"
    return .pointer isMut (← g.type false)
  else if ts.startsOp "&" then
    let _ ← op "&"
    let lt ← if ← sees (·.startsLifetime) then do pure (some (← lifetime)) else pure Option.none
    let isMut := !(← word? "mut").isEmpty
    return .reference lt isMut (← g.type false)
  else if ts.startsOpOnly "!" ["!="] then return .other (← op "!")
  else if ts.startsWord "impl" then
    let start ← word "impl"
    let (bs, isTrait) ← g.bounds plus true true
    check isTrait
    return .other (start ++ bs)
  else if ts.startsWord "_" then return .other (← word "_")
  else if ts.startsLifetime then
    let (bs, isTrait) ← g.bounds true false false
    check isTrait
    return .other bs
  else failure

/-- The bounds of a type parameter. -/
def paramBounds (stop : Tokens → Bool) : Reader Tokens :=
  chain stop (do return (← g.bound false true).1) "+"

/-- A generic parameter. -/
def genericParam : Reader GenericParam := do
  let attrs ← g.outerAttrs
  let ts ← rest
  if ts.startsLifetime then
    let name ← lifetime
    if ← sees (·.startsOp ":") then
      let _ ← op ":"
      return .lifetime attrs name (← chain (fun ts => ts.startsOp "," || ts.startsOp ">")
        (do return Tokens.lifetime (← lifetime)) "+")
    else return .lifetime attrs name []
  else if ts.startsIdent then
    let name ← ident
    let bs ←
      if ← sees (·.startsOp ":") then do
        let _ ← op ":"
        g.paramBounds fun ts => ts.startsOp "," || ts.startsOp ">" || ts.startsOp "="
      else pure []
    if ← sees (·.startsOp "=") then
      let _ ← op "="
      let _ ← g.type true
    return .type attrs name bs
  else if ts.startsWord "const" then
    let _ ← anyWord
    let name ← ident
    let _ ← op ":"
    let t ← g.type true
    if ← sees (·.startsOp "=") then
      let _ ← op "="
      let _ ← g.constArgument
    return .const attrs name t
  else
    check (ts.startsWord "_")
    return .type attrs (← anyWord) []

/-- Generic parameters between angle brackets, if there are any. -/
def genericParams : Reader (List (Listed GenericParam)) := do
  if ← sees (·.startsOp "<") then
    let _ ← op "<"
    let found ← separated (·.startsOp ">") g.genericParam (op ",")
    let _ ← op ">"
    return found.map fun (p, sep) => ⟨p, sep.isSome⟩
  else return []

/-- Where the bounds of a predicate, and the predicates, end. -/
def endsPredicate (ts : Tokens) : Bool :=
  ts.isEmpty || ts.startsGroup .brace || ts.startsOp "," || ts.startsOp ";" ||
    ts.startsOpOnly ":" ["::"] || ts.startsOp "="

/-- A predicate of a where clause. -/
def predicate : Reader Tokens := do
  let ts ← rest
  if ts.startsLifetime && (ts.skip 1).startsOp ":" then
    let name := Tokens.lifetime (← lifetime)
    let colon ← op ":"
    return name ++ colon ++
      (← chain (fun ts => endsPredicate ts || ts.startsOp ":")
        (do return Tokens.lifetime (← lifetime)) "+")
  else
    let before ← g.binder?
    let t ← g.type true
    let colon ← op ":"
    return before ++ t.tokens ++ colon ++ (← g.paramBounds endsPredicate)

/-- The predicates of a where clause, if there is one. -/
def whereClause : Reader (List Tokens) := do
  if ← sees (·.startsWord "where") then
    let _ ← anyWord
    let (found, _) ← iterate (fun (found, done) => do
      if done || endsPredicate (← rest) then return Option.none
      let p ← g.predicate
      if ← sees (·.startsOp ",") then
        let _ ← op ","
        return some (p :: found, false)
      else return some (p :: found, true)) (([] : List Tokens), false)
    return found.reverse
  else return []

end SanitizeGen.Rules
