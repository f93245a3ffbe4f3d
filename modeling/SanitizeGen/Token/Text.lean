import SanitizeGen.Token.Basic

/-!
# The text of token trees

`TokenTree.textOf` writes one space between neighbours, none after punctuation that is joint with
what follows, none inside parentheses and brackets, and one on either side inside braces.
-/

namespace SanitizeGen

/-- A token as it is written. -/
def Token.text : Token → String
  | .word i => i.text
  | .lifetime i => "'" ++ i.text
  | .punct c _ => String.singleton c
  | .literal l => String.ofList l.text

namespace TokenTree

/-- Whether the next tree follows without a space. -/
def isJoint : TokenTree → Bool
  | leaf (.punct _ joint) => joint
  | _ => false

mutual

/-- The text of one tree. -/
def text : TokenTree → String
  | leaf t => t.text
  | group .paren ts => "(" ++ textOf ts ++ ")"
  | group .bracket ts => "[" ++ textOf ts ++ "]"
  | group .brace ts => if ts.isEmpty then "\x7b \x7d" else "\x7b " ++ textOf ts ++ " \x7d"

/-- The text of a list of trees. -/
def textOf : List TokenTree → String
  | [] => ""
  | [t] => text t
  | t :: u :: ts => text t ++ (if t.isJoint then "" else " ") ++ textOf (u :: ts)

end

end TokenTree

end SanitizeGen
