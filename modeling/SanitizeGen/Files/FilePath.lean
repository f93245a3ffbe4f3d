/-!
# File paths

A `FilePath` is the text of a path. `pieces` are what stands between its slashes; `join`, `parent`
and `withExtension` work on the text, so that a path is printed as it was put together.
-/

namespace SanitizeGen

/-- A path by its text. -/
structure FilePath where
  text : String
  deriving DecidableEq

namespace FilePath

/-- The parts of a text between slashes. There is always one. -/
def splitSlash : List Char → List (List Char)
  | [] => [[]]
  | '/' :: r => [] :: splitSlash r
  | c :: r =>
    match splitSlash r with
    | p :: ps => (c :: p) :: ps
    | [] => [[c]]

/-- Parts with slashes between them. -/
def joinSlash : List (List Char) → List Char
  | [] => []
  | [p] => p
  | p :: q :: ps => p ++ '/' :: joinSlash (q :: ps)

/-- The parts of the path between its slashes. -/
def pieces (p : FilePath) : List (List Char) := splitSlash p.text.toList

/-- Whether the path starts at the root of all files. -/
def isAbsolute (p : FilePath) : Bool := p.text.toList.head? == some '/'

/-- `p` continued by `q`; `q` alone if it is absolute. -/
def join (p q : FilePath) : FilePath :=
  if q.isAbsolute then q
  else if p.text.isEmpty || p.text.toList.getLast? == some '/' then ⟨p.text ++ q.text⟩
  else ⟨p.text ++ "/" ++ q.text⟩

/-- `p` continued by the name `name`. -/
def child (p : FilePath) (name : String) : FilePath := p.join ⟨name⟩

/-- Whether a part adds nothing: it is empty, or a single dot that does not start the path. -/
def isVoid (first : Bool) (piece : List Char) : Bool :=
  piece.isEmpty || (piece == ['.'] && !first)

/-- The parts, last one first, without the void parts at their front. -/
def dropVoid : List (List Char) → List (List Char)
  | [] => []
  | p :: ps => if isVoid ps.isEmpty p then dropVoid ps else p :: ps

/-- The path without its last component; nothing if it has none. -/
def parent (p : FilePath) : Option FilePath :=
  match dropVoid p.pieces.reverse with
  | [] => none
  | _ :: before =>
    let kept := dropVoid before
    if kept.isEmpty && p.isAbsolute then some ⟨"/"⟩
    else some ⟨String.ofList (joinSlash kept.reverse)⟩

/-- The directory that holds the file; the empty path if the path has no component. -/
def directory (p : FilePath) : FilePath := p.parent.getD ⟨""⟩

/-- The name without what follows its last dot. A name that starts with its only dot is whole. -/
def stem (name : List Char) : List Char :=
  if name == ['.', '.'] then name
  else match (name.reverse.dropWhile (· != '.')).drop 1 with
    | [] => name
    | before => before.reverse

/-- The path with `ext` in place of what follows the last dot of its name. -/
def withExtension (p : FilePath) (ext : String) : FilePath :=
  match dropVoid p.pieces.reverse with
  | [] => p
  | name :: before =>
    if name == ['.', '.'] || name == ['.'] then p
    else ⟨String.ofList (joinSlash ((stem name ++ '.' :: ext.toList) :: before).reverse)⟩

end FilePath

end SanitizeGen
