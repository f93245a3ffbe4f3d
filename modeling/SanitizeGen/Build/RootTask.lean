import SanitizeGen.Build.Staging

/-!
# The root file by itself

`RootTask.run` writes the root file of one namespace, whatever the sources hold. All its settings
are required.
-/

namespace SanitizeGen

/-- The settings of a run that writes a root file only. -/
structure RootTask where
  outDir : Option FilePath := none
  package : Option String := none
  isDebug : Option Bool := none

namespace RootTask

/-- Where the file goes and what it is; or what is missing. -/
def artifact (t : RootTask) : Except Error (FilePath × Artifact) :=
  match t.outDir, t.package, t.isDebug with
  | none, _, _ => .error (.missingConfig .outDir)
  | _, none, _ => .error (.missingConfig .package)
  | _, _, none => .error (.missingConfig .debugFlag)
  | some outDir, some package, some isDebug =>
    match Namespace.parse package with
    | .ok ns => .ok (outDir, .root ns (Mode.ofFlag isDebug))
    | .error e => .error (.invalidNamespace e)

/-- Writes the file. Nothing is written if a setting is missing or malformed. -/
def run (t : RootTask) (tree : FileTree) : FileTree × Except Error FilePath :=
  match t.artifact with
  | .ok (outDir, a) => a.writeTo outDir tree
  | .error e => (tree, .error e)

end RootTask

end SanitizeGen
