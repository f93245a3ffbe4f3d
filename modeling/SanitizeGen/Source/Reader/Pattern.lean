import SanitizeGen.Source.Reader.Type

/-!
# Reading patterns
-/

namespace SanitizeGen.Rules

open Reader

variable (g : Rules)

/-- Whether an alternative follows. -/
def startsAlternative (ts : Tokens) : Bool := ts.startsOpOnly "|" ["||", "|="]

/-- A pattern with its alternatives. -/
def alternatives : Reader Tokens := do
  let start ← op? "|"
  let first ← g.pattern
  let more ← manyWhile startsAlternative (do return (← op "|") ++ (← g.pattern))
  return start ++ first ++ more.flatten

/-- The dots of a range, where three dots count. -/
def rangeDots : Reader Tokens := do
  let ts ← rest
  if ts.startsOp "..=" then op "..=" else if ts.startsOp "..." then op "..." else op ".."

/-- The dots of a range, and whether its end belongs to it. -/
def rangeLimits : Reader (Tokens × Bool) := do
  let ts ← rest
  if ts.startsOp "..=" then return (← op "..=", true)
  else
    check (!ts.startsOp "...")
    return (← op "..", false)

/-- The bound of a range, unless the pattern ends here. -/
def patternBound : Reader (Option Tokens) := do
  let ts ← rest
  if ts.isEmpty || ts.startsOp "|" || ts.startsOp "=" || ts.startsOpOnly ":" ["::"] ||
      ts.startsOp "," || ts.startsOp ";" || ts.startsWord "if" then return Option.none
  else if ts.startsLiteral then return some (← literal)
  else if ts.startsIdent || ts.startsOp "::" || ts.startsOp "<" ||
      ts.startsWordIn ["self", "Self", "super", "crate"] then
    return some (← g.typePath true).tokens
  else if ts.startsWord "const" then return some ((← word "const") ++ (← g.body))
  else failure

/-- A range after its start. -/
def rangeAfter (start : Tokens) : Reader Tokens := do
  let ts ← rest
  let dots ← rangeDots
  match ← g.patternBound with
  | some last => return start ++ dots ++ last
  | Option.none =>
    check (!ts.startsOp "..=" && !ts.startsOp "...")
    return start ++ dots

/-- A name or a number of a field. -/
def member : Reader (Tokens × Bool) := do
  let ts ← rest
  if ts.startsIdent then return (Tokens.word (← ident), true)
  else
    match ts with
    | .leaf (.literal l) :: _ =>
      check (l.kind = .integer && l.text.all Text.isAsciiDigit)
      return (← literal, false)
    | _ => failure

/-- A field of a struct pattern. -/
def fieldPattern : Reader Tokens := do
  let mods := (← word? "box") ++ (← word? "ref") ++ (← word? "mut")
  let (name, named) ← if mods.isEmpty then member else do pure (Tokens.word (← ident), true)
  if (mods.isEmpty && (← sees (·.startsOp ":"))) || !named then
    return name ++ (← op ":") ++ (← g.alternatives)
  else return mods ++ name

/-- The fields of a struct pattern. Dots stand for the fields that are left out. -/
def fieldPatterns : Reader Tokens := do
  let (found, _) ← iterate (fun (found, done) => do
    if done || (← atEnd) then return Option.none
    let attrs ← g.outerAttrTokens
    if ← sees (·.startsOp "..") then return some (found ++ attrs ++ (← op ".."), true)
    let p ← g.fieldPattern
    if ← atEnd then return some (found ++ attrs ++ p, true)
    else return some (found ++ attrs ++ p ++ (← op ","), false)) ([], false)
  return found

/-- A pattern that starts with a path. -/
def pathPattern : Reader Tokens := do
  let t ← g.typePath true
  let ts ← rest
  if ts.startsOpOnly "!" ["!="] && isMacroName t then return t.tokens ++ (← macroCall)
  else if ts.startsGroup .brace then return t.tokens ++ (← group .brace g.fieldPatterns)
  else if ts.startsGroup .paren then
    return t.tokens ++ (← group .paren (commaList g.alternatives))
  else if ts.startsOp ".." then g.rangeAfter t.tokens
  else return t.tokens

/-- The elements of a slice pattern. A range that lacks an end needs parentheses there. -/
def sliceElement : Reader Tokens := do
  let p ← g.alternatives
  let openStart := p.startsOp ".." && p.length > 2
  let openEnd := match p.reverse with
    | .leaf (.punct '.' _) :: .leaf (.punct '.' _) :: .leaf (.punct _ _) :: _ => false
    | .leaf (.punct '.' _) :: .leaf (.punct '.' _) :: _ :: _ => true
    | _ => false
  check (!openStart && !openEnd)
  return p

/-- A pattern without alternatives. -/
def patternRule : Reader Tokens := do
  let ts ← rest
  let next := ts.skip 1
  if (ts.startsIdent && (next.startsOp "::" || next.startsOp "!" || next.startsGroup .brace ||
        next.startsGroup .paren || next.startsOp "..")) ||
      (ts.startsWord "self" && next.startsOp "::") || ts.startsOp "::" || ts.startsOp "<" ||
      ts.startsWordIn ["Self", "super", "crate"] then g.pathPattern
  else if ts.startsWord "_" then word "_"
  else if ts.startsWord "box" then return (← word "box") ++ (← g.pattern)
  else if ts.startsOp "-" || ts.startsLiteral || ts.startsWord "const" then
    match ← g.patternBound with
    | some start => if ← sees (·.startsOp "..") then g.rangeAfter start else return start
    | Option.none => failure
  else if ts.startsWordIn ["ref", "mut", "self"] || ts.startsIdent then
    let mods := (← word? "ref") ++ (← word? "mut")
    let name ← if ← sees (·.startsWord "self") then anyWord else ident
    if ← sees (·.startsOp "@") then
      return mods ++ Tokens.word name ++ (← op "@") ++ (← g.pattern)
    else return mods ++ Tokens.word name
  else if ts.startsOp "&" then return (← op "&") ++ (← word? "mut") ++ (← g.pattern)
  else if ts.startsGroup .paren then group .paren (commaList g.alternatives)
  else if ts.startsGroup .bracket then group .bracket (commaList g.sliceElement)
  else if ts.startsOpOnly ".." ["..."] then
    let (dots, closed) ← rangeLimits
    match ← g.patternBound with
    | some last => return dots ++ last
    | Option.none =>
      check (!closed)
      return dots
  else failure

end SanitizeGen.Rules
