import SanitizeGen.Source.Attribute

/-!
# Items

The item tree of a source file: modules, and the structs, enums and unions that attributes can tag.
All other items are kept as `Item.other`, since nothing inside them is looked at.
-/

namespace SanitizeGen

/-- A generic parameter. Defaults are not kept. -/
inductive GenericParam where
  | lifetime (attrs : List Attribute) (name : Ident) (bounds : Tokens)
  | type (attrs : List Attribute) (name : Ident) (bounds : Tokens)
  | const (attrs : List Attribute) (name : Ident) (type : TypeExpr)

/-- The generic parameters of an item in source order, and its where clause. -/
structure Generics where
  params : List (Listed GenericParam) := []
  /-- The predicates of the where clause, in order. -/
  predicates : List Tokens := []

/-- A stored field. -/
structure Field where
  attrs : List Attribute
  type : TypeExpr

/-- The fields of a struct. -/
inductive Fields where
  | named (fields : List (Ident × Field))
  | tuple (fields : List Field)
  | unit

/-- The fields in declaration order, without their names. -/
def Fields.toList : Fields → List Field
  | named fields => fields.map (·.2)
  | tuple fields => fields
  | unit => []

/-- What a tagged item is. -/
inductive DataKind where
  | struct (fields : Fields)
  | enum
  | union

/-- A struct, an enum or a union. -/
structure DataItem where
  attrs : List Attribute
  name : Ident
  generics : Generics
  kind : DataKind

/-- An item of a source file. -/
inductive Item where
  | data (d : DataItem)
  /-- A module with its items between braces. -/
  | inlineModule (attrs : List Attribute) (name : Ident) (items : List Item)
  /-- A module whose items are in a file of their own. -/
  | fileModule (attrs : List Attribute) (name : Ident)
  | other

/-- Induction on the items inside a module between braces. -/
theorem Item.induction {P : Item → Prop} (data : ∀ d, P (.data d))
    (inlineModule : ∀ attrs name items, (∀ i ∈ items, P i) → P (.inlineModule attrs name items))
    (fileModule : ∀ attrs name, P (.fileModule attrs name)) (other : P .other) (i : Item) : P i :=
  match i with
  | .data d => data d
  | .inlineModule attrs name items =>
    inlineModule attrs name items fun i _ => induction data inlineModule fileModule other i
  | .fileModule attrs name => fileModule attrs name
  | .other => other

/-- What a source file holds. -/
structure SourceFile where
  /-- The attributes at its top, which are for the module that the file is. -/
  attrs : List Attribute
  items : List Item

end SanitizeGen
