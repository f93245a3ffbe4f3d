import SanitizeGen.Source.Reader.Grammar
import SanitizeGen.Tag.Format

/-!
# Derived traits

`derivedNames` are the traits that an item derives, by their last names. `checkSanitize` is what the
compiler checks of an item that derives `Sanitize`.
-/

namespace SanitizeGen

/-- The names that one attribute derives; none if its list is malformed. -/
def Attribute.derivedNames (a : Attribute) : List String :=
  if a.isNamed "derive" then
    match a.content with
    | .list _ _ args => ((Tokens.pathNames? args).getD []).map Ident.text
    | _ => []
  else []

/-- The last name of each trait that an item with these attributes derives. -/
def derivedNames (attrs : List Attribute) : List String := attrs.flatMap Attribute.derivedNames

/-- Whether an item with these attributes derives `name`. -/
def derives (attrs : List Attribute) (name : String) : Bool := (derivedNames attrs).contains name

/-- Why an item cannot derive `Sanitize`. -/
inductive SanitizeError where
  /-- The item itself has a bare format attribute. -/
  | bareOnItem
  /-- The item itself has a format attribute with options. -/
  | optionsOnItem
  | notStruct
  | field (e : FormatError)
  deriving DecidableEq

namespace SanitizeError

/-- The text of the error. -/
def message : SanitizeError → String
  | bareOnItem => "#[mrclean] belongs on fields; the derive alone tags the struct"
  | optionsOnItem => "#[mrclean(...)] options are only supported on fields"
  | notStruct => "`Sanitize` can only be derived for structs"
  | field e => e.message

end SanitizeError

/-- Checks the formats of all fields, up to the first error. -/
def checkFields : List Field → Except FormatError Unit
  | [] => .ok ()
  | f :: fs =>
    match checkedFormat f.attrs with
    | .ok _ => checkFields fs
    | .error e => .error e

/-- Checks an item that derives `Sanitize`: its own attributes, its kind, then its fields. -/
def checkSanitize (d : DataItem) : Except SanitizeError Unit :=
  match d.attrs.find? (·.isNamed formatAttribute) with
  | some a =>
    match a.content with
    | .path _ => .error .bareOnItem
    | _ => .error .optionsOnItem
  | none =>
    match d.kind with
    | .struct fields => (checkFields fields.toList).mapError .field
    | _ => .error .notStruct

end SanitizeGen
