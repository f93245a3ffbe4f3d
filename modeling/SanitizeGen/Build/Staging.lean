import SanitizeGen.Artifact
import SanitizeGen.Error
import SanitizeGen.Files.FileTree

/-!
# Writing generated files

A file is first staged: its contents are written beside the final path. `Staged.commit` then moves
them into place, and `Staged.drop` removes them. A file that already has the contents is left alone.
-/

namespace SanitizeGen

/-- A generated file on its way to its place. -/
structure Staged where
  /-- Where the contents wait; nothing if the file has them already. -/
  staging : Option FilePath
  /-- Where the file belongs. -/
  path : FilePath
  deriving DecidableEq

namespace Artifact

/-- The path at which the contents of a file wait. -/
def stagingPath (path : FilePath) : FilePath := path.withExtension "rs.tmp"

/-- Writes the contents of a file beside its path under `outDir`, and makes its directory. -/
def stage (a : Artifact) (outDir : FilePath) (tree : FileTree) : FileTree × Except Error Staged :=
  let path := a.pathIn outDir
  let (made, ok) := match path.parent with
    | some dir => tree.makeDirectories dir
    | none => (tree, true)
  if !ok then (made, .error (.file .makeDirectory path.directory))
  else if made.readText path = some a.contents then (made, .ok ⟨none, path⟩)
  else match made.write (stagingPath path) (.text a.contents) with
    | some written => (written, .ok ⟨some (stagingPath path), path⟩)
    | none => (made, .error (.file .write (stagingPath path)))

end Artifact

namespace Staged

/-- Removes contents that wait. -/
def drop (s : Staged) (tree : FileTree) : FileTree :=
  match s.staging with
  | some p => (tree.removeFile p).getD tree
  | none => tree

/-- Moves contents that wait into place. If that fails they are removed. -/
def commit (s : Staged) (tree : FileTree) : FileTree × Except Error FilePath :=
  match s.staging with
  | none => (tree, .ok s.path)
  | some p =>
    match tree.rename p s.path with
    | some moved => (moved, .ok s.path)
    | none => (s.drop tree, .error (.file .rename p))

end Staged

namespace Artifact

/-- Writes a file under `outDir`. -/
def writeTo (a : Artifact) (outDir : FilePath) (tree : FileTree) :
    FileTree × Except Error FilePath :=
  match a.stage outDir tree with
  | (tree, .ok s) => s.commit tree
  | (tree, .error e) => (tree, .error e)

end Artifact

end SanitizeGen
