/-!
# Generation modes

What a generated function reveals: the fields of a value in `Mode.debug`, its identity alone in
`Mode.release`.
-/

namespace SanitizeGen

/-- What the generated functions print. -/
inductive Mode where
  /-- Field values, such as `Account(id = 7)`. -/
  | debug
  /-- The type's name and the value's identity, such as `Account@1a2b`. -/
  | release
  deriving DecidableEq

namespace Mode

/-- The mode that a marker's `debug` flag asks for. -/
def ofFlag : Bool → Mode
  | true => debug
  | false => release

/-- Whether fields are printed. -/
def isDebug : Mode → Bool
  | debug => true
  | release => false

/-- The mode's name, which also marks the generated files. -/
def name : Mode → String
  | debug => "Debug"
  | release => "Release"

/-- The mode of a build profile. -/
def ofProfile? (profile : String) : Option Mode :=
  if profile = "debug" then some debug
  else if profile = "release" then some release
  else none

/-- A capital letter of ASCII made small. -/
def lower (c : Char) : Char :=
  if 'A' ≤ c && c ≤ 'Z' then Char.ofNat (c.toNat + 32) else c

/-- The mode that a word names, capital letters of ASCII or not. -/
def parse? (word : String) : Option Mode :=
  ofProfile? (String.ofList (word.toList.map lower))

/-- What is said about a word that names no mode. -/
def unknownMessage (word : String) : String :=
  "unknown generation mode `" ++ word ++ "`; expected `debug` or `release`"

theorem isDebug_ofFlag (b : Bool) : (ofFlag b).isDebug = b := by cases b <;> rfl

end Mode

/-- What a release build says about a value without a generated function. -/
def notGeneratedMessage : String :=
  "No function generated! Make sure to annotate with @Sanitize"

end SanitizeGen
