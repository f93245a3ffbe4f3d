import SanitizeGen.Source.Reader.Basic
import SanitizeGen.Source.Attribute

/-!
# Options in attributes

The list of an attribute holds options: names with commas between them, each with what its handler
reads after it. `readOptions` threads a state through the handler, from left to right, and stops at
the first error.
-/

namespace SanitizeGen

/-- What is wrong with the form of a list of options. -/
inductive OptionError where
  /-- The list ends where a name is expected. -/
  | noName
  /-- A literal stands where a name is expected. -/
  | literal
  /-- Something else stands where a name is expected. -/
  | notName
  /-- No word follows double colons. -/
  | noSegment (atEnd : Bool)
  /-- Something follows an option without a comma. -/
  | noComma
  /-- No equals sign follows an option that has a value. -/
  | noEquals
  /-- The value is neither `true` nor `false`. -/
  | notBool (atEnd : Bool)
  deriving DecidableEq

namespace OptionError

/-- A message that tells that the list has ended too soon. -/
def endMessage (atEnd : Bool) (message : String) : String :=
  (if atEnd then "unexpected end of input, " else "") ++ message

/-- The text of the error. -/
def message : OptionError → String
  | noName => endMessage true "expected nested attribute"
  | literal => "unexpected literal in nested attribute, expected ident"
  | notName => "unexpected token in nested attribute, expected ident"
  | noSegment atEnd => endMessage atEnd "expected ident"
  | noComma => "expected `,`"
  | noEquals => "expected `=`"
  | notBool atEnd => endMessage atEnd "expected boolean literal"

end OptionError

namespace Tokens

/-- The segments after the first one of an option's name. -/
def moreSegments : Tokens → Except OptionError (List Ident × Tokens)
  | .leaf (.punct ':' true) :: .leaf (.punct ':' _) :: r =>
    match r with
    | .leaf (.word i) :: r =>
      match moreSegments r with
      | .ok (is, r) => .ok (i :: is, r)
      | .error e => .error e
    | _ => .error (.noSegment r.isEmpty)
  | ts => .ok ([], ts)

/-- The name of the option at the front, and what follows it. Reserved words are names here. -/
def optionName (ts : Tokens) : Except OptionError (SimplePath × Tokens) :=
  let leading := ts.startsOp "::"
  let ts := if leading then ts.skip 2 else ts
  match ts with
  | [] => .error .noName
  | .leaf (.word i) :: r =>
    match moreSegments r with
    | .ok (is, r) => .ok (⟨leading, i :: is⟩, r)
    | .error e => .error e
  | _ => if ts.startsLiteral then .error .literal else .error .notName

/-- The flag after an equals sign, and what follows it. -/
def flagValue (ts : Tokens) : Except OptionError (Bool × Tokens) :=
  if ts.startsOp "=" then
    let ts := ts.skip 1
    if ts.startsWord "true" then .ok (true, ts.skip 1)
    else if ts.startsWord "false" then .ok (false, ts.skip 1)
    else .error (.notBool ts.isEmpty)
  else .error .noEquals

end Tokens

variable {σ ε : Type}

/-- The state after all options of a list. `handle` gets an option's name and what follows it. -/
def readOptions (form : OptionError → ε)
    (handle : σ → SimplePath → Tokens → Except ε (σ × Tokens)) (s : σ) (ts : Tokens) :
    Except ε σ :=
  if ts.isEmpty then .ok s else go ts.length s ts
where
  /-- The options from here on, one for each step. -/
  go : Nat → σ → Tokens → Except ε σ
    | 0, _, _ => .error (form .noName)
    | fuel + 1, s, ts =>
      match ts.optionName with
      | .error e => .error (form e)
      | .ok (name, r) =>
        match handle s name r with
        | .error e => .error e
        | .ok (s, []) => .ok s
        | .ok (s, r) =>
          if r.startsOp "," then
            if (r.skip 1).isEmpty then .ok s else go fuel s (r.skip 1)
          else .error (form .noComma)

end SanitizeGen
