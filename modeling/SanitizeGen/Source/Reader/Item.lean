import SanitizeGen.Source.Reader.Expr

/-!
# Reading items

Modules, structs, enums and unions become items of their own kind. All others are read for their
form alone.
-/

namespace SanitizeGen.Rules

open Reader

variable (g : Rules)

/-! ### Structs, enums and unions -/

/-- A field with a name. An underscore may name a nested struct or union. -/
def namedField : Reader (Ident × Field) := do
  let attrs ← g.outerAttrs
  let _ ← visibility
  let unnamed ← sees (·.startsWord "_")
  let name ← if unnamed then anyWord else ident
  let _ ← op ":"
  let ts ← rest
  if unnamed && (ts.startsWord "struct" ||
      (ts.startsWord "union" && (ts.skip 1).startsGroup .brace)) then
    return (name, ⟨attrs, .other (← consumed do
      let _ ← anyWord
      inGroup .brace (separated List.isEmpty nestedField (op ",")))⟩)
  else return (name, ⟨attrs, ← g.type true⟩)
where
  /-- A field of a nested struct, which nests no further. -/
  nestedField : Reader Unit := do
    let _ ← g.outerAttrs
    let _ ← visibility
    let _ ← ident
    let _ ← op ":"
    let _ ← g.type true

/-- A field without a name. -/
def tupleField : Reader Field := do
  let attrs ← g.outerAttrs
  let _ ← visibility
  return ⟨attrs, ← g.type true⟩

/-- Fields between braces. -/
def namedFields : Reader (List (Ident × Field)) :=
  inGroup .brace do return (← separated List.isEmpty g.namedField (op ",")).map (·.1)

/-- Fields between parentheses. -/
def tupleFields : Reader (List Field) :=
  inGroup .paren do return (← separated List.isEmpty g.tupleField (op ",")).map (·.1)

/-- What follows the generic parameters of a struct: its fields, and its where clause in front of
braces or behind parentheses. -/
def structRest : Reader (List Tokens × Fields) := do
  if ← sees (·.startsGroup .paren) then
    let fields ← g.tupleFields
    let preds ← g.whereClause
    let _ ← op ";"
    return (preds, .tuple fields)
  else
    let preds ← g.whereClause
    if ← sees (·.startsGroup .brace) then return (preds, .named (← g.namedFields))
    else
      let _ ← op ";"
      return (preds, .unit)

/-- A variant of an enum. -/
def variant : Reader Unit := do
  let _ ← g.outerAttrs
  let _ ← visibility
  let _ ← ident
  let ts ← rest
  if ts.startsGroup .brace then let _ ← g.namedFields
  else if ts.startsGroup .paren then let _ ← g.tupleFields
  if ← sees (·.startsOp "=") then
    let _ ← op "="
    let _ ← g.exprTokens

/-- A struct, an enum or a union after its attributes and visibility. -/
def dataRest (attrs : List Attribute) : Reader DataItem := do
  let ts ← rest
  check (ts.startsWordIn ["struct", "enum", "union"])
  let _ ← anyWord
  let name ← ident
  let params ← g.genericParams
  if ts.startsWord "struct" then
    let (preds, fields) ← g.structRest
    return ⟨attrs, name, ⟨params, preds⟩, .struct fields⟩
  else if ts.startsWord "enum" then
    let preds ← g.whereClause
    let _ ← inGroup .brace (separated List.isEmpty g.variant (op ","))
    return ⟨attrs, name, ⟨params, preds⟩, .enum⟩
  else
    let preds ← g.whereClause
    let _ ← g.namedFields
    return ⟨attrs, name, ⟨params, preds⟩, .union⟩

/-- A struct, an enum or a union. -/
def dataItem : Reader DataItem := do
  let attrs ← g.outerAttrs
  let _ ← visibility
  g.dataRest attrs

/-! ### Functions -/

/-- Whether the head of a function follows; `safe` says whether the word `safe` may stand in it. -/
def startsFunction (safe : Bool) (ts : Tokens) : Bool :=
  let p : Reader Bool := do
    let _ ← word? "const"
    let _ ← word? "async"
    if safe && (← sees (·.startsWord "safe")) then let _ ← anyWord
    else let _ ← word? "unsafe"
    let _ ← binding
    sees (·.startsWord "fn")
  match p.run ts with
  | some (b, _) => b
  | Option.none => false

/-- The receiver of a method. -/
def receiver : Reader Unit := do
  let reference := !(← op? "&").isEmpty
  if reference then let _ ← lifetime?
  let _ ← word? "mut"
  let _ ← word "self"
  if !reference && (← sees (·.startsOp ":")) then
    let _ ← op ":"
    let _ ← g.type true

/-- A parameter of a function: whether it is a receiver, and whether it stands for any further
ones. -/
def param : Reader (Bool × Bool) :=
  (do g.receiver; return (true, false)) <|> typed
where
  typed : Reader (Bool × Bool) := do
    let ts ← rest
    if ts.startsIdent && (ts.skip 1).startsOp "<" then
      let _ ← g.type true
      return (false, false)
    else
      let _ ← g.pattern
      let _ ← op ":"
      if ← sees (·.startsOp "...") then
        let _ ← op "..."
        return (false, true)
      else
        let _ ← g.type true
        return (false, false)

/-- The parameters of a function. Only the first one may be a receiver, and dots end the list. -/
def params : Reader Unit := do
  let _ ← iterate (fun (first, done) => do
    if done || (← atEnd) then return Option.none
    let _ ← g.outerAttrs
    if ← sees (·.startsOp "...") then
      let _ ← op "..."
      if !(← atEnd) then let _ ← op ","
      return some (false, true)
    else
      let (isReceiver, isLast) ← g.param
      check (first || !isReceiver)
      if ← atEnd then return some (false, true)
      else
        let _ ← op ","
        return some (false, isLast)) (true, false)

/-- The head of a function. -/
def signature (safe : Bool) : Reader Unit := do
  let _ ← word? "const"
  let _ ← word? "async"
  if safe && (← sees (·.startsWord "safe")) then let _ ← anyWord
  else let _ ← word? "unsafe"
  let _ ← binding
  let _ ← word "fn"
  let _ ← ident
  let _ ← g.genericParams
  inGroup .paren g.params
  let _ ← g.returnType true
  let _ ← g.whereClause

/-- A function with its body, or a semicolon in its place. -/
def function (safe : Bool) : Reader Unit := do
  g.signature safe
  if ← sees (·.startsOp ";") then let _ ← op ";"
  else let _ ← g.body

/-! ### Constants, statics and types -/

/-- A constant after the word `const`. -/
def constRest : Reader Unit := do
  let ts ← rest
  if ts.startsWord "_" then let _ ← anyWord else let _ ← ident
  let _ ← g.genericParams
  let _ ← op ":"
  let _ ← g.type true
  if ← sees (·.startsOp "=") then
    let _ ← op "="
    let _ ← g.exprTokens
  let _ ← g.whereClause
  let _ ← op ";"

/-- A static after the word `static`; without a type only if it has a value and `untyped` holds. -/
def staticRest (untyped : Bool) : Reader Unit := do
  let _ ← word? "mut"
  let _ ← ident
  if !(untyped && (← sees (·.startsOp "="))) then
    let _ ← op ":"
    let _ ← g.type true
  if ← sees (·.startsOp "=") then
    let _ ← op "="
    let _ ← g.exprTokens
  let _ ← op ";"

/-- Bounds after a colon, up to what `stop` says. -/
def colonBounds (stop : Tokens → Bool) : Reader Unit := do
  if ← sees (·.startsOp ":") then
    let _ ← op ":"
    let _ ← separated stop (g.bound false true) (op "+")

/-- A type item. The where clause stands before the definition if `clauseBefore`, behind it if
`clauseAfter`. -/
def typeItem (clauseBefore clauseAfter : Bool) : Reader Unit := do
  let _ ← word "type"
  let _ ← ident
  let _ ← g.genericParams
  g.colonBounds fun ts => ts.startsWord "where" || ts.startsOp "=" || ts.startsOp ";"
  let before := clauseBefore && (← sees (·.startsWord "where"))
  if before then let _ ← g.whereClause
  if ← sees (·.startsOp "=") then
    let _ ← op "="
    let _ ← g.type true
  if clauseAfter && !before then let _ ← g.whereClause
  let _ ← op ";"

/-! ### Macros and imports -/

/-- A macro call that is an item; only braces do without a semicolon. -/
def macroItem (named : Bool) : Reader Unit := do
  let _ ← simplePath
  let _ ← op "!"
  if named && ((← sees (·.startsIdent)) || (← sees (·.startsWord "try"))) then let _ ← anyWord
  let braces ← sees (·.startsGroup .brace)
  let _ ← anyGroup
  if !braces then let _ ← op ";"

/-- Whether a macro call can start. -/
def startsMacro (ts : Tokens) : Bool :=
  ts.startsIdent || ts.startsWordIn ["self", "super", "crate"] || ts.startsOp "::"

/-- A tree of imports; `fromRoot` says whether double colons may start its paths. -/
def importsRule (fromRoot : Bool) : Reader Unit := do
  let ts ← rest
  if ts.startsIdent || ts.startsWordIn ["self", "super", "crate", "try"] then
    let _ ← anyWord
    if ← sees (·.startsOp "::") then
      let _ ← op "::"
      g.imports false
    else if ← sees (·.startsWord "as") then
      let _ ← anyWord
      if ← sees (·.startsWord "_") then let _ ← anyWord else let _ ← ident
  else if ts.startsOp "*" then let _ ← op "*"
  else
    let _ ← inGroup .brace (separated List.isEmpty (do
      let fromHere := fromRoot && (← sees (·.startsOp "::"))
      if fromHere then let _ ← op "::"
      g.imports (fromRoot && !fromHere)) (op ","))

/-- An import after its visibility. -/
def importItem : Reader Unit := do
  let _ ← word "use"
  let leading ← op? "::"
  g.imports leading.isEmpty
  let _ ← op ";"

/-! ### Traits, implementations and foreign items -/

/-- An item of a trait. -/
def traitEntry : Reader Unit := do
  let _ ← g.outerAttrs
  let vis ← visibility
  let isDefault ← word? "default"
  let ts ← rest
  if startsFunction false ts then g.function false
  else if ts.startsWord "const" then
    let _ ← anyWord
    g.constRest
  else if ts.startsWord "type" then g.typeItem false true
  else
    check (vis.isEmpty && isDefault.isEmpty && startsMacro ts)
    macroItem false

/-- An item of an implementation. -/
def implEntry : Reader Unit := do
  let _ ← g.outerAttrs
  let vis ← visibility
  let ts ← rest
  let isDefault ←
    if ts.startsWord "default" && !(ts.skip 1).startsOp "!" then word "default" else pure []
  let ts ← rest
  if startsFunction false ts then g.function false
  else if ts.startsWord "const" then
    let _ ← anyWord
    g.constRest
  else if ts.startsWord "type" then g.typeItem false true
  else
    check (vis.isEmpty && isDefault.isEmpty && startsMacro ts)
    macroItem false

/-- An item of a foreign block. -/
def foreignEntry : Reader Unit := do
  let _ ← g.outerAttrs
  let vis ← visibility
  let ts ← rest
  if startsFunction true ts then g.function true
  else if ts.startsWord "static" ||
      (ts.startsWordIn ["unsafe", "safe"] && (ts.skip 1).startsWord "static") then
    if !ts.startsWord "static" then let _ ← anyWord
    let _ ← word "static"
    g.staticRest false
  else if ts.startsWord "type" then g.typeItem true true
  else
    check (vis.isEmpty && startsMacro ts)
    macroItem false

/-- A body of entries between braces, which may start with attributes. -/
def entries (entry : Reader Unit) : Reader Unit :=
  inGroup .brace do
    let _ ← g.innerAttrs
    let _ ← manyWhile (!·.isEmpty) entry

/-- A trait after its visibility, or a name for some bounds. -/
def traitItem : Reader Unit := do
  let marked := (← word? "unsafe") ++ (← word? "auto")
  let _ ← word "trait"
  let _ ← ident
  let _ ← g.genericParams
  if marked.isEmpty && (← sees (·.startsOp "=")) then
    let _ ← op "="
    let _ ← separated (fun ts => ts.startsWord "where" || ts.startsOp ";") (g.bound false true)
      (op "+")
    let _ ← g.whereClause
    let _ ← op ";"
  else
    g.colonBounds fun ts => ts.startsWord "where" || ts.startsGroup .brace
    let _ ← g.whereClause
    g.entries g.traitEntry

/-- An implementation after its visibility. Only one of a trait can be negative. -/
def implItem : Reader Unit := do
  let _ ← word? "default"
  let _ ← word? "unsafe"
  let _ ← word "impl"
  if startsGenerics (← rest) then let _ ← g.genericParams
  let ts ← rest
  if ts.startsWord "const" || (ts.startsOp "?" && (ts.skip 1).startsWord "const") then
    let _ ← op? "?"
    let _ ← word "const"
  let ts ← rest
  let negative := ts.startsOp "!" && !(ts.skip 1).startsGroup .brace
  if negative then let _ ← op "!"
  let _ ← g.type true
  if ← sees (·.startsWord "for") then
    let _ ← anyWord
    let _ ← g.type true
  else check (!negative)
  let _ ← g.whereClause
  g.entries g.implEntry

/-- What starts with the word `extern` and is no function: a crate or a block. -/
def externItem : Reader Unit := do
  let ts ← rest
  if (ts.skip 1).startsWord "crate" then
    let _ ← word "extern"
    let _ ← word "crate"
    if ← sees (·.startsWord "self") then let _ ← anyWord else let _ ← ident
    if ← sees (·.startsWord "as") then
      let _ ← anyWord
      if ← sees (·.startsWord "_") then let _ ← anyWord else let _ ← ident
    let _ ← op ";"
  else
    let _ ← binding
    g.entries g.foreignEntry

/-- The definition of a macro by the word `macro`. -/
def macroDefinition : Reader Unit := do
  let _ ← word "macro"
  let _ ← ident
  if ← sees (·.startsGroup .paren) then let _ ← anyGroup
  check (← sees (·.startsGroup .brace))
  let _ ← anyGroup

/-! ### Items -/

/-- A module after its visibility. The attributes inside its braces follow those in front. -/
def moduleItem (attrs : List Attribute) : Reader Item := do
  let _ ← word? "unsafe"
  let _ ← word "mod"
  let name ← if ← sees (·.startsWord "try") then anyWord else ident
  if ← sees (·.startsOp ";") then
    let _ ← op ";"
    return .fileModule attrs name
  else
    let (more, items) ← inGroup .brace do
      let more ← g.innerAttrs
      let items ← manyWhile (!·.isEmpty) g.item
      return (more, items)
    return .inlineModule (attrs ++ more) name items

/-- An item. -/
def itemRule : Reader Item := do
  let attrs ← g.outerAttrs
  let vis ← visibility
  let ts ← rest
  let next := ts.skip 1
  let other (p : Reader Unit) : Reader Item := do
    p
    return .other
  if startsFunction false ts then other (g.function false)
  else if ts.startsWord "extern" then other g.externItem
  else if ts.startsWord "use" then other g.importItem
  else if ts.startsWord "static" then other (do let _ ← anyWord; g.staticRest true)
  else if ts.startsWord "const" then other (do let _ ← anyWord; g.constRest)
  else if ts.startsWord "unsafe" then
    if next.startsWord "trait" || (next.startsWord "auto" && (ts.skip 2).startsWord "trait") then
      other g.traitItem
    else if next.startsWord "impl" then other g.implItem
    else if next.startsWord "extern" then other (do let _ ← anyWord; g.externItem)
    else
      check (next.startsWord "mod")
      g.moduleItem attrs
  else if ts.startsWord "mod" then g.moduleItem attrs
  else if ts.startsWord "type" then other (g.typeItem true false)
  else if ts.startsWordIn ["struct", "enum"] ||
      (ts.startsWord "union" && next.startsIdent) then return .data (← g.dataRest attrs)
  else if ts.startsWord "trait" || (ts.startsWord "auto" && next.startsWord "trait") then
    other g.traitItem
  else if ts.startsWord "impl" || (ts.startsWord "default" && !next.startsOp "!") then
    other g.implItem
  else if ts.startsWord "macro" then other macroDefinition
  else
    check (vis.isEmpty && startsMacro ts)
    other (macroItem true)

/-- A whole file: its attributes, then its items. -/
def file : Reader SourceFile := do
  let attrs ← g.innerAttrs
  return ⟨attrs, ← manyWhile (!·.isEmpty) g.item⟩

end SanitizeGen.Rules
