import SanitizeGen.Mode
import SanitizeGen.Target

/-!
# The text of generated files

Every function here depends on its arguments alone. `runtime` is the path under which generated code
reaches the runtime crate.
-/

namespace SanitizeGen.Template

/-- The first line of the root file. -/
def rootHeader : String :=
  "// This is the root function that generated functions will overload"

/-- What warns readers of a generated file. -/
def notice : String := "// @generated by mrclean-build. Do not edit."

/-- The format text of a debug body: each label with the placeholder of its field. -/
def fieldPattern (fields : List TargetField) : String :=
  ", ".intercalate (fields.map fun f => f.label ++ " = " ++ f.format.placeholder)

/-- The arguments of a debug body: each field as the struct's own code reaches it. -/
def fieldArguments (fields : List TargetField) : String :=
  String.join (fields.map fun f => ", self." ++ f.accessor)

/-- The expression that a generated function returns. -/
def body (t : Target) (mode : Mode) (runtime : String) : String :=
  match mode with
  | .release =>
    "::std::format!(\"" ++ t.typeName ++ "@\x7b:x\x7d\", " ++ runtime ++ "::identity_hash(self))"
  | .debug =>
    if t.fields.isEmpty then "::std::string::String::from(\"" ++ t.typeName ++ "()\")"
    else "::std::format!(\"" ++ t.typeName ++ "(" ++ fieldPattern t.fields ++ ")\"" ++
      fieldArguments t.fields ++ ")"

/-- The bound that printing a field asks of the type parameters. -/
def fieldBound (f : TargetField) : Option String :=
  f.genericType.map fun type => type ++ ": " ++ f.format.traitPath

/-- The predicates of a generated implementation: those of the struct, then in debug mode the bounds
of its fields. -/
def predicates (t : Target) (mode : Mode) : List String :=
  t.generics.predicates ++ if mode.isDebug then t.fields.filterMap fieldBound else []

/-- What stands between the type and the brace of an implementation. -/
def whereClause (preds : List String) : String :=
  if preds.isEmpty then " " else "\nwhere\n    " ++ ",\n    ".intercalate preds ++ ",\n"

/-- The implementation that holds a target's generated function. -/
def function (t : Target) (mode : Mode) (runtime : String) : String :=
  "impl" ++ t.generics.params ++ " " ++ t.receiver ++ t.generics.args ++
    whereClause (predicates t mode) ++ "\x7b\n    #[inline]\n    #[allow(dead_code)]\n" ++
    "    pub(crate) fn sanitized_to_string(&self) -> ::std::string::String \x7b\n        " ++
    body t mode runtime ++ "\n    \x7d\n\x7d\n"

/-- The line of the registration function for one target. -/
def registrationLine (t : Target) : String :=
  if t.isGeneric then
    "    // " ++ t.receiver ++ " is generic; register each instantiation explicitly.\n"
  else
    "    table.register::<" ++ t.receiver ++ ">(" ++ t.receiver ++ "::sanitized_to_string);\n"

/-- The function that registers every target without generic parameters. -/
def registration (ts : List Target) (runtime : String) : String :=
  "#[allow(dead_code)]\npub(crate) fn register_sanitizations(table: &mut " ++ runtime ++
    "::SanitizerTable) \x7b\n" ++ String.join (ts.map registrationLine) ++
    (if ts.all Target.isGeneric then "    let _ = table;\n" else "") ++ "\x7d\n"

/-- The file with the functions of all targets. -/
def sanitizations (ts : List Target) (mode : Mode) (runtime : String) : String :=
  "// " ++ mode.name ++ "\n" ++ notice ++ "\n" ++
    String.join (ts.map fun t => "\n" ++ function t mode runtime) ++ "\n" ++
    registration ts runtime

/-- The bound of the root function's type parameter. -/
def rootBound : Mode → String
  | .debug => "?Sized + ::core::fmt::Debug"
  | .release => "?Sized"

/-- The expression that the root function returns. -/
def rootBody : Mode → String
  | .debug => "::std::format!(\"\x7b:?\x7d\", self)"
  | .release => "::core::panic!(\"" ++ notGeneratedMessage ++ "\")"

/-- The file with the function that stands in for the ones that are not generated. -/
def rootFile (mode : Mode) : String :=
  rootHeader ++ "\n// " ++ mode.name ++ "\n" ++ notice ++
    "\n\n#[allow(dead_code)]\npub(crate) trait SanitizedToString \x7b\n" ++
    "    fn sanitized_to_string(&self) -> ::std::string::String;\n\x7d\n\nimpl<T: " ++
    rootBound mode ++ "> SanitizedToString for T \x7b\n" ++
    "    fn sanitized_to_string(&self) -> ::std::string::String \x7b\n        " ++
    rootBody mode ++ "\n    \x7d\n\x7d\n"

end SanitizeGen.Template
