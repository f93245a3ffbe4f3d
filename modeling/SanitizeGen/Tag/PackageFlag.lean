import SanitizeGen.Tag.Options

/-!
# Flags of package markers

`#[package_id(debug = true)]` says in which mode the package is generated. `packageFlag` reads it
where code is generated, `checkedPackageFlag` where the marker is compiled.
-/

namespace SanitizeGen

/-- What is wrong with the attributes of a package marker. -/
inductive FlagError where
  | form (e : OptionError)
  /-- The attribute is bare. -/
  | noArguments
  /-- The attribute has a value in place of options. -/
  | noParentheses
  /-- The option is not `debug`. -/
  | unknown
  /-- The option is not `debug`; it is told which one it is, if it is a single word. -/
  | unknownWord (word : Option String)
  | repeated
  /-- There is no flag. -/
  | missing
  /-- The compiler finds no flag. -/
  | required
  deriving DecidableEq

namespace FlagError

/-- The text of the error. -/
def message : FlagError → String
  | form e => e.message
  | noArguments => "expected attribute arguments in parentheses: #[package_id(...)]"
  | noParentheses => "expected parentheses: #[package_id(...)]"
  | unknown => "unknown package_id option; expected `debug`"
  | unknownWord word => "unknown package_id option `" ++ word.getD "?" ++ "`; expected `debug`"
  | repeated => "`debug` specified more than once"
  | missing => "expected #[package_id(debug = true)] or #[package_id(debug = false)]"
  | required => "`PackageId` requires #[package_id(debug = true)] or #[package_id(debug = false)]"

end FlagError

/-- The name of the attribute that holds the flag. -/
def flagAttribute : String := "package_id"

/-- One option of a marker. A flag replaces the one before. -/
def flagOption (_ : Option Bool) (name : SimplePath) (rest : Tokens) :
    Except FlagError (Option Bool × Tokens) :=
  if name.isWord "debug" then
    match rest.flagValue with
    | .ok (flag, rest) => .ok (some flag, rest)
    | .error e => .error (.form e)
  else .error .unknown

/-- The last flag in the attributes of a marker, if any. -/
def lastFlag : Option Bool → List Attribute → Except FlagError (Option Bool)
  | found, [] => .ok found
  | found, a :: as =>
    if a.isNamed flagAttribute then
      match a.content with
      | .path _ => .error .noArguments
      | .nameValue _ _ => .error .noParentheses
      | .list _ _ args =>
        match readOptions .form flagOption found args with
        | .ok found => lastFlag found as
        | .error e => .error e
    else lastFlag found as

/-- The flag of a package marker with these attributes. -/
def packageFlag (attrs : List Attribute) : Except FlagError Bool :=
  match lastFlag none attrs with
  | .ok (some flag) => .ok flag
  | .ok none => .error .missing
  | .error e => .error e

/-- One option of a marker. There may be one flag only. -/
def checkedFlagOption (found : Option Bool) (name : SimplePath) (rest : Tokens) :
    Except FlagError (Option Bool × Tokens) :=
  if name.isWord "debug" then
    if found.isSome then .error .repeated
    else match rest.flagValue with
      | .ok (flag, rest) => .ok (some flag, rest)
      | .error e => .error (.form e)
  else .error (.unknownWord (name.word?.map Ident.text))

/-- The only flag in the attributes of a marker, if any. -/
def onlyFlag : Option Bool → List Attribute → Except FlagError (Option Bool)
  | found, [] => .ok found
  | found, a :: as =>
    if a.isNamed flagAttribute then
      match a.content with
      | .list _ _ args =>
        match readOptions .form checkedFlagOption found args with
        | .ok found => onlyFlag found as
        | .error e => .error e
      | _ => .error .missing
    else onlyFlag found as

/-- The flag of a package marker with these attributes, as the compiler is told. -/
def checkedPackageFlag (attrs : List Attribute) : Except FlagError Bool :=
  match onlyFlag none attrs with
  | .ok (some flag) => .ok flag
  | .ok none => .error .required
  | .error e => .error e

end SanitizeGen
