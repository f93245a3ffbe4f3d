import SanitizeGen.Mode
import SanitizeGen.Target
import SanitizeGen.Text.Quoted

/-!
# What a generated function returns

`Target.rendered` gives the text that a target's generated function returns, from the identity of a
value and the texts of its fields.
-/

namespace SanitizeGen

/-- The texts of one field's value. -/
structure FieldText where
  display : String
  debug : String
  deriving DecidableEq

namespace FieldText

/-- The text that a format chooses. -/
def inFormat (x : FieldText) : FieldFormat → String
  | .display => x.display
  | .debug => x.debug

end FieldText

namespace Target

/-- Each label with the text of its field. -/
def labelled (t : Target) (texts : List FieldText) : List String :=
  List.zipWith (fun f x => f.label ++ " = " ++ x.inFormat f.format) t.fields texts

/-- The text of a value: the name and the fields in debug mode, the name and the identity in
release mode. -/
def rendered (t : Target) (mode : Mode) (identity : Nat) (texts : List FieldText) : String :=
  match mode with
  | .debug => t.typeName ++ "(" ++ ", ".intercalate (t.labelled texts) ++ ")"
  | .release => t.typeName ++ "@" ++ String.ofList (Text.hexDigits identity)

end Target

end SanitizeGen
