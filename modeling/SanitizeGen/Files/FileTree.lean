import SanitizeGen.Files.FilePath

/-!
# File trees

A `FileTree` maps locations to directories and regular files. Relative paths start at its working
directory. `locate` finds the location of a path, `get?` what is there; every operation is stated in
terms of the two, and one that fails says so and leaves what it has done.
-/

namespace SanitizeGen

/-- What a regular file holds: text, or bytes that are no text. -/
inductive Contents where
  | text (s : String)
  | binary (bytes : List UInt8)
  deriving DecidableEq

namespace Contents

/-- The contents that some bytes are. -/
def ofBytes (bytes : List UInt8) : Contents :=
  match String.fromUTF8? ⟨bytes.toArray⟩ with
  | some s => text s
  | none => binary bytes

/-- The text of a file, if it is one. -/
def text? : Contents → Option String
  | text s => some s
  | binary _ => none

end Contents

/-- What a location holds. -/
inductive Entry where
  | directory
  | file (c : Contents)
  deriving DecidableEq

/-- The names that lead from the top of a tree to a place in it. -/
abbrev Location := List String

/-- Directories and regular files by location. The top is a directory. -/
structure FileTree where
  /-- The directory that relative paths start at. -/
  working : Location
  entries : List (Location × Entry)

/-- Why a path leads nowhere. -/
inductive PathError where
  /-- A directory on the way is missing. -/
  | missing
  /-- Something on the way is no directory, or a name is not allowed. -/
  | blocked
  deriving DecidableEq

namespace FileTree

/-- The most bytes that a name may have. -/
def nameLimit : Nat := 255

/-- What is at a location. -/
def get? (t : FileTree) (l : Location) : Option Entry :=
  if l.isEmpty then some .directory else t.entries.lookup l

/-- The tree with `e` at the location `l`. -/
def set (t : FileTree) (l : Location) (e : Entry) : FileTree :=
  if t.entries.any (·.1 == l) then
    { t with entries := t.entries.map fun p => if p.1 == l then (l, e) else p }
  else { t with entries := t.entries ++ [(l, e)] }

/-- The tree without the location `l`. -/
def erase (t : FileTree) (l : Location) : FileTree :=
  { t with entries := t.entries.filter (·.1 != l) }

/-! ### Locations of paths -/

/-- The location that some parts of a path lead to from `l`. Each part is looked for in a directory,
and the last one need not exist. -/
def walk (t : FileTree) : Location → List (List Char) → Except PathError Location
  | l, [] => .ok l
  | l, p :: ps =>
    match t.get? l with
    | none => .error .missing
    | some (.file _) => .error .blocked
    | some .directory =>
      if p.isEmpty || p == ['.'] then walk t l ps
      else if p == ['.', '.'] then walk t l.dropLast ps
      else if nameLimit < (String.ofList p).utf8ByteSize || p.contains '\x00' then .error .blocked
      else walk t (l ++ [String.ofList p]) ps

/-- Where a path starts: at the top if it is absolute, else at the working directory. -/
def start (t : FileTree) (p : FilePath) : Location := if p.isAbsolute then [] else t.working

/-- The location of a path. The empty path has none. -/
def locate (t : FileTree) (p : FilePath) : Except PathError Location :=
  if p.text.isEmpty then .error .missing else t.walk (t.start p) p.pieces

/-- What a path leads to. -/
def entry? (t : FileTree) (p : FilePath) : Option Entry :=
  match t.locate p with
  | .ok l => t.get? l
  | .error _ => none

/-- Whether a path leads to a regular file. -/
def isFile (t : FileTree) (p : FilePath) : Bool :=
  match t.entry? p with
  | some (.file _) => true
  | _ => false

/-- Whether a path leads to a directory. -/
def isDirectory (t : FileTree) (p : FilePath) : Bool := t.entry? p = some .directory

/-- The text of the file that a path leads to. -/
def readText (t : FileTree) (p : FilePath) : Option String :=
  match t.entry? p with
  | some (.file c) => c.text?
  | _ => none

/-! ### Changes -/

/-- Writes a file. Its directory has to exist, and no directory may be in its place. -/
def write (t : FileTree) (p : FilePath) (c : Contents) : Option FileTree :=
  match t.locate p with
  | .error _ => none
  | .ok l => if t.get? l = some .directory then none else some (t.set l (.file c))

/-- Makes one directory where nothing is. A slash at the end of the path does not matter. A path
with a null character is refused before any directory on the way is looked for. -/
def makeDirectory (t : FileTree) (p : FilePath) : Except PathError FileTree :=
  if p.text.isEmpty then .error .missing
  else if p.text.toList.contains '\x00' then .error .blocked
  else
    match t.walk (t.start p) (p.pieces.reverse.dropWhile List.isEmpty).reverse with
    | .error e => .error e
    | .ok l => if (t.get? l).isSome then .error .blocked else .ok (t.set l .directory)

/-- A path, the directory that holds it, and so on. -/
def ancestors (p : FilePath) : List FilePath :=
  go p.text.length p
where
  go : Nat → FilePath → List FilePath
    | 0, p => [p]
    | fuel + 1, p =>
      match p.parent with
      | some q => p :: go fuel q
      | none => [p]

/-- Makes the first of some directories; if its own is missing, that one is made first, which is the
next in the list. Says whether the first one is there in the end. -/
def makeFirst (t : FileTree) : List FilePath → FileTree × Bool
  | [] => (t, false)
  | p :: up =>
    if p.text.isEmpty then (t, true)
    else match t.makeDirectory p with
      | .ok t => (t, true)
      | .error .blocked => (t, t.isDirectory p)
      | .error .missing =>
        match t.makeFirst up with
        | (t, false) => (t, false)
        | (t, true) =>
          match t.makeDirectory p with
          | .ok t => (t, true)
          | .error _ => (t, t.isDirectory p)

/-- Makes a directory with all that lead to it, as far as they are missing. Says whether it is there
in the end. -/
def makeDirectories (t : FileTree) (p : FilePath) : FileTree × Bool :=
  t.makeFirst (ancestors p)

/-- Removes a regular file. -/
def removeFile (t : FileTree) (p : FilePath) : Option FileTree :=
  match t.locate p with
  | .error _ => none
  | .ok l =>
    match t.get? l with
    | some (.file _) => some (t.erase l)
    | _ => none

/-- Whether something is inside the directory at `l`. -/
def hasChildren (t : FileTree) (l : Location) : Bool :=
  t.entries.any fun p => l.isPrefixOf p.1 && p.1 != l

/-- Removes a file, or a directory with all it holds. -/
def removeAll (t : FileTree) (p : FilePath) : Option FileTree :=
  match t.locate p with
  | .error _ => none
  | .ok l =>
    if l.isEmpty || (t.get? l).isNone then none
    else some { t with entries := t.entries.filter fun p => !l.isPrefixOf p.1 }

/-- Moves what is at `a` to `b`. A file takes the place of a file, and a directory that of an empty
directory. -/
def rename (t : FileTree) (a b : FilePath) : Option FileTree :=
  match t.locate a, t.locate b with
  | .ok l, .ok m =>
    match t.get? l, t.get? m with
    | some (.file c), none => some ((t.erase l).set m (.file c))
    | some (.file c), some (.file _) => some (if l = m then t else (t.erase l).set m (.file c))
    | some (.file _), some .directory => none
    | some .directory, some (.file _) => none
    | some .directory, there =>
      if l = m then some t
      else if l.isPrefixOf m || m.isEmpty || (there.isSome && t.hasChildren m) then none
      else some { t with
        entries := (t.entries.filter fun p => p.1 != m).map fun p =>
          if l.isPrefixOf p.1 then (m ++ p.1.drop l.length, p.2) else p }
    | none, _ => none
  | _, _ => none

end FileTree

end SanitizeGen
