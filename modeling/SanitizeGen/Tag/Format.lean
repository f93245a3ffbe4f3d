import SanitizeGen.Tag.Options
import SanitizeGen.Target

/-!
# Formats of fields

A field is printed for display unless `#[mrclean(debug)]` says otherwise. `formatOf` reads the
attributes of a field where code is generated, `checkedFormat` where the struct is compiled; the
second one refuses more.
-/

namespace SanitizeGen

/-- What is wrong with the format attributes of a field. -/
inductive FormatError where
  | form (e : OptionError)
  /-- The attribute names no format. -/
  | missing
  /-- The attribute has a value. -/
  | nameValue
  /-- The option is no format. -/
  | unknown
  /-- The option is no format; it is told which one it is, if it is a single word. -/
  | unknownWord (word : Option String)
  | repeated
  deriving DecidableEq

namespace FormatError

/-- The text of the error. -/
def message : FormatError → String
  | form e => e.message
  | missing => "expected a format: #[mrclean(debug)] or #[mrclean(display)]"
  | nameValue => "name-value syntax is not supported for #[mrclean]"
  | unknown => "unknown field option; expected `debug` or `display`"
  | unknownWord word =>
    "unknown field option `" ++ word.getD "?" ++ "`; expected `debug` or `display`"
  | repeated => "multiple #[mrclean] attributes specified on the same field"

end FormatError

/-- The format that an option names. -/
def FieldFormat.ofOption? (name : SimplePath) : Option FieldFormat :=
  if name.isWord "debug" then some .debug
  else if name.isWord "display" then some .display
  else none

/-- The name of the attribute that gives a field its format. -/
def formatAttribute : String := "mrclean"

/-- One option of a format attribute: `unknown` is the error for one that is no format. -/
def formatOption (unknown : SimplePath → FormatError) (found : Option FieldFormat)
    (name : SimplePath) (rest : Tokens) : Except FormatError (Option FieldFormat × Tokens) :=
  match FieldFormat.ofOption? name with
  | none => .error (unknown name)
  | some format => if found.isSome then .error .repeated else .ok (some format, rest)

/-- The format that the attributes of a field name, if any: at most one option in all of them. -/
def namedFormat : Option FieldFormat → List Attribute → Except FormatError (Option FieldFormat)
  | found, [] => .ok found
  | found, a :: as =>
    if a.isNamed formatAttribute then
      match a.content with
      | .list _ _ args =>
        match readOptions .form (formatOption fun _ => .unknown) found args with
        | .ok found => namedFormat found as
        | .error e => .error e
      | _ => .error .missing
    else namedFormat found as

/-- How a field with these attributes is printed. -/
def formatOf (attrs : List Attribute) : Except FormatError FieldFormat :=
  (namedFormat none attrs).map (·.getD .display)

/-- The format that the attributes of a field name, if any: at most one attribute, with exactly one
option. -/
def checkedNamedFormat : Option FieldFormat → List Attribute →
    Except FormatError (Option FieldFormat)
  | found, [] => .ok found
  | found, a :: as =>
    if a.isNamed formatAttribute then
      match a.content with
      | .path _ => .error .missing
      | .nameValue _ _ => .error .nameValue
      | .list _ _ args =>
        match readOptions .form
            (formatOption fun name => .unknownWord (name.word?.map Ident.text)) none args with
        | .error e => .error e
        | .ok none => .error .missing
        | .ok (some format) =>
          if found.isSome then .error .repeated else checkedNamedFormat (some format) as
    else checkedNamedFormat found as

/-- How a field with these attributes is printed, as the compiler is told. -/
def checkedFormat (attrs : List Attribute) : Except FormatError FieldFormat :=
  (checkedNamedFormat none attrs).map (·.getD .display)

end SanitizeGen
