import SanitizeGen.Namespace
import SanitizeGen.Tag.Format
import SanitizeGen.Source.Item

/-!
# From tagged items to targets

`Tagged.resolve` turns a tagged struct into a `Target`: the labels, accessors and formats of its
fields, the types that depend on type parameters, and its generic parameters as text.
-/

namespace SanitizeGen

/-- An item of the sources that derives `Sanitize`. -/
structure Tagged where
  ns : Namespace
  item : DataItem
  /-- The file that the item was read from. -/
  file : FilePath

/-- Why a tagged item is no target. -/
inductive ResolveError where
  | isEnum (path : String)
  | isUnion (path : String)
  /-- The attributes of a field are malformed. -/
  | badAttribute (path : String) (message : String)
  deriving DecidableEq

namespace ResolveError

/-- The text of the error. -/
def message : ResolveError → String
  | isEnum path => "`" ++ path ++ "` is an enum; only structs can be sanitized"
  | isUnion path => "`" ++ path ++ "` is a union; only structs can be sanitized"
  | badAttribute path message => "invalid #[mrclean] attribute on `" ++ path ++ "`: " ++ message

end ResolveError

/-! ### Types that depend on type parameters -/

mutual

/-- Whether a type names one of the type parameters `params`. What stands in the arguments of
`PhantomData` does not count, since no value of it is stored. -/
def TypeExpr.mentions (params : List String) : TypeExpr → Bool
  | .path _ segments =>
    Segment.anyMentions params (segments.length == 1) segments ||
      (1 < segments.length && match segments with
        | s :: _ => params.contains s.name.text
        | [] => false)
  | .qualified self _ base rest =>
    self.mentions params ||
      Segment.anyMentions params (base.length + rest.length == 1) base ||
      Segment.anyMentions params (base.length + rest.length == 1) rest
  | .reference _ _ target => target.mentions params
  | .pointer _ target => target.mentions params
  | .slice element => element.mentions params
  | .array element _ => element.mentions params
  | .paren inner => inner.mentions params
  | .tuple elements _ => TypeExpr.anyMentions params elements
  | .other _ => false

/-- Whether one of some types names a type parameter. -/
def TypeExpr.anyMentions (params : List String) : List TypeExpr → Bool
  | [] => false
  | t :: ts => t.mentions params || TypeExpr.anyMentions params ts

/-- Whether a segment names a type parameter in its arguments, or by itself if it is the whole
path. -/
def Segment.mentions (params : List String) (alone : Bool) : Segment → Bool
  | .bare name => name.text != "PhantomData" && alone && params.contains name.text
  | .angled name _ args =>
    name.text != "PhantomData" &&
      ((alone && params.contains name.text) || Argument.anyMentions params args)

/-- Whether one of some segments names a type parameter. -/
def Segment.anyMentions (params : List String) (alone : Bool) : List Segment → Bool
  | [] => false
  | s :: ss => s.mentions params alone || Segment.anyMentions params alone ss

/-- Whether an argument is a type that names a type parameter. -/
def Argument.mentions (params : List String) : Argument → Bool
  | .type t _ => t.mentions params
  | _ => false

/-- Whether one of some arguments names a type parameter. -/
def Argument.anyMentions (params : List String) : List Argument → Bool
  | [] => false
  | a :: as => a.mentions params || Argument.anyMentions params as

end

/-! ### Generic parameters as text -/

namespace GenericParam

/-- Whether the parameter is a lifetime. -/
def isLifetime : GenericParam → Bool
  | lifetime _ _ _ => true
  | _ => false

/-- A name with its bounds, if it has any. -/
def bounded (name bounds : Tokens) : Tokens :=
  if bounds.isEmpty then name else name ++ Tokens.op ":" ++ bounds

/-- The parameter as it is declared, without a default. -/
def declaration : GenericParam → Tokens
  | lifetime attrs name bounds =>
    attrs.flatMap Attribute.tokens ++ bounded (Tokens.lifetime name) bounds
  | type attrs name bounds => attrs.flatMap Attribute.tokens ++ bounded (Tokens.word name) bounds
  | const attrs name t =>
    attrs.flatMap Attribute.tokens ++ Tokens.constKeyword ++ Tokens.word name ++
      Tokens.op ":" ++ t.tokens

/-- The parameter as an argument. -/
def argument : GenericParam → Tokens
  | lifetime _ name _ => Tokens.lifetime name
  | type _ name _ => Tokens.word name
  | const _ name _ => Tokens.word name

end GenericParam

namespace Generics

/-- The names of the type parameters. -/
def typeParams (g : Generics) : List String :=
  g.params.filterMap fun p =>
    match p.item with
    | .type _ name _ => some name.text
    | _ => none

/-- All parameters between angle brackets, each printed by `print`. Lifetimes come first, each
parameter keeps the comma written after it, and one is added in between if lifetimes end without. -/
def bracketed (g : Generics) (print : GenericParam → Tokens) : Tokens :=
  let lifetimes := g.params.filter (·.item.isLifetime)
  let others := g.params.filter (!·.item.isLifetime)
  let listed (p : Listed GenericParam) : Tokens := print p.item ++ Tokens.comma p.comma
  let separated := (lifetimes.getLast?.map Listed.comma).getD true
  Tokens.op "<" ++ lifetimes.flatMap listed ++ Tokens.comma (!separated && !others.isEmpty) ++
    others.flatMap listed ++ Tokens.op ">"

/-- The parameters as text; nothing at all without parameters. -/
def target (g : Generics) : TargetGenerics :=
  if g.params.isEmpty then {}
  else ⟨TokenTree.textOf (g.bracketed GenericParam.declaration),
    TokenTree.textOf (g.bracketed GenericParam.argument), g.predicates.map TokenTree.textOf⟩

end Generics

/-! ### Fields -/

/-- A field as it is printed. -/
def Field.target (f : Field) (params : List String) (label accessor : String) :
    Except FormatError TargetField :=
  (formatOf f.attrs).map fun format =>
    ⟨label, accessor, format, if f.type.mentions params then some f.type.text else none⟩

namespace Fields

/-- Each field with its label and its accessor: names, or indices. -/
def labelled : Fields → List (String × String × Field)
  | named fields => fields.map fun (name, f) => (name.name, name.text, f)
  | tuple fields => fields.zipIdx.map fun (f, i) => (toString i, toString i, f)
  | unit => []

/-- All fields as they are printed, or the first error. -/
def targets (params : List String) :
    List (String × String × Field) → Except FormatError (List TargetField)
  | [] => .ok []
  | (label, accessor, f) :: r =>
    match f.target params label accessor with
    | .error e => .error e
    | .ok t =>
      match targets params r with
      | .ok ts => .ok (t :: ts)
      | .error e => .error e

end Fields

namespace Tagged

/-- The path of the item from the root of the crate. -/
def path (t : Tagged) : String := t.ns.qualify t.item.name.text

/-- The target that a tagged item is. Only structs are targets. -/
def resolve (t : Tagged) : Except ResolveError Target :=
  match t.item.kind with
  | .enum => .error (.isEnum t.path)
  | .union => .error (.isUnion t.path)
  | .struct fields =>
    match Fields.targets t.item.generics.typeParams fields.labelled with
    | .ok fs => .ok ⟨t.path, fs, t.item.generics.target⟩
    | .error e => .error (.badAttribute t.path e.message)

end Tagged

end SanitizeGen
