import SanitizeGen.Text.Segments

/-!
# Targets

A `Target` is a struct for which a function is generated: its path in the crate, its fields in
declaration order, and its generic parameters as text.
-/

namespace SanitizeGen

/-- How a field value is printed. -/
inductive FieldFormat where
  | display
  | debug
  deriving DecidableEq

namespace FieldFormat

/-- What stands for the value in a format text. -/
def placeholder : FieldFormat → String
  | display => "\x7b\x7d"
  | debug => "\x7b:?\x7d"

/-- The trait that prints the value. -/
def traitPath : FieldFormat → String
  | display => "::core::fmt::Display"
  | debug => "::core::fmt::Debug"

end FieldFormat

/-- A field that is printed. -/
structure TargetField where
  /-- How the field is called in the printed text. -/
  label : String
  /-- How the field is reached in code: its name, perhaps raw, or its index. -/
  accessor : String
  format : FieldFormat
  /-- The field's type, if it depends on a type parameter. -/
  genericType : Option String
  deriving DecidableEq

namespace TargetField

/-- A field that is reached by its label and printed for display. -/
def ofLabel (label : String) : TargetField := ⟨label, label, .display, none⟩

end TargetField

/-- The generic parameters of a target as text. -/
structure TargetGenerics where
  /-- The parameters with their bounds, angle brackets included. -/
  params : String := ""
  /-- The parameters as arguments, angle brackets included. -/
  args : String := ""
  /-- The predicates of the where clause. -/
  predicates : List String := []
  deriving DecidableEq

/-- A struct for which a function is generated. -/
structure Target where
  /-- The path from the root of the crate. -/
  path : String
  fields : List TargetField
  generics : TargetGenerics := {}
  deriving DecidableEq

namespace Target

/-- The name of the struct: the last part of its path, without a raw mark. -/
def typeName (t : Target) : String :=
  String.ofList (Text.dropRaw (Text.lastOfPath t.path.toList))

/-- The path of the struct from within the crate. -/
def receiver (t : Target) : String := "crate::" ++ t.path

/-- Whether the struct has generic parameters. -/
def isGeneric (t : Target) : Bool := !t.generics.params.isEmpty

end Target

end SanitizeGen
