import SanitizeGen.Ident
import SanitizeGen.Text.Segments
import SanitizeGen.Files.FilePath

/-!
# Namespaces

A namespace is a path of module names from the root of a crate. `Namespace.parse` reads one from
text, `Namespace.text` prints it, and `Namespace.dirIn` is where its generated files go.
-/

namespace SanitizeGen

open Text

/-- The path of a module, from the root of its crate. -/
structure Namespace where
  segments : List Ident
  deriving DecidableEq

/-- A text that is no namespace: the whole text, and the first part of it that names no module. -/
structure NamespaceError where
  text : String
  segment : String
  deriving DecidableEq

namespace Namespace

/-- The root of the crate. -/
def root : Namespace := ⟨[]⟩

/-- Whether the namespace is the root of the crate. -/
def isRoot (ns : Namespace) : Bool := ns.segments.isEmpty

/-- The module `name` inside `ns`. -/
def child (ns : Namespace) (name : Ident) : Namespace := ⟨ns.segments ++ [name]⟩

/-- A path without the word `crate` at its front, alone or before double colons. -/
def dropCrate (s : List Char) : List Char :=
  match s with
  | 'c' :: 'r' :: 'a' :: 't' :: 'e' :: r =>
    match r with
    | [] => []
    | ':' :: ':' :: t => t
    | _ => s
  | _ => s

/-- The module names that some texts are, or the first text that is none. -/
def names : List (List Char) → Except (List Char) (List Ident)
  | [] => .ok []
  | p :: ps =>
    match Ident.parse? (trim p) with
    | none => .error p
    | some i =>
      match names ps with
      | .ok is => .ok (i :: is)
      | .error e => .error e

/-- Reads a path of module names between double colons. The word `crate` in front is optional, and
nothing is the root. -/
def parse (text : String) : Except NamespaceError Namespace :=
  match dropCrate (trim text.toList) with
  | [] => .ok root
  | path =>
    match names (splitPath path) with
    | .ok is => .ok ⟨is⟩
    | .error segment => .error ⟨text, String.ofList segment⟩

/-- The namespace as text; the root is `crate`. -/
def text (ns : Namespace) : String :=
  if ns.isRoot then "crate" else "::".intercalate (ns.segments.map Ident.text)

/-- The path of an item from the root of the crate. -/
def qualify (ns : Namespace) (item : String) : String :=
  if ns.isRoot then item else ns.text ++ "::" ++ item

/-- Where the generated files of the namespace go under `base`. -/
def dirIn (ns : Namespace) (base : FilePath) : FilePath :=
  ns.segments.foldl (fun dir i => dir.child i.name) base

/-- The namespace as users give it where they include its generated files. -/
def includePath (ns : Namespace) : String :=
  "/".intercalate (ns.segments.map Ident.name)

end Namespace

namespace NamespaceError

/-- What is wrong with the text. -/
def message (e : NamespaceError) : String :=
  "invalid namespace `" ++ e.text ++ "`: `" ++ e.segment ++ "` is not a module name"

end NamespaceError

end SanitizeGen
