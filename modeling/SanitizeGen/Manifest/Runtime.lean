import SanitizeGen.Manifest.Toml
import SanitizeGen.Files.FileTree

/-!
# The path of the runtime crate

A package may depend on the runtime crate under another name. `runtimePath` is the path under which
its generated code reaches it, as its manifest says.
-/

namespace SanitizeGen

/-- The variables of the environment that a run depends on. -/
structure Environment where
  /-- The directory of the package. -/
  manifestDir : Option FilePath := none
  /-- The directory for generated files. -/
  outDir : Option FilePath := none
  /-- The build profile. -/
  profile : Option String := none
  /-- A directory that only integration tests get. -/
  testDir : Option FilePath := none

namespace Toml

/-- The name of the runtime crate. -/
def runtimeName : List Char := "mrclean".toList

/-- The value of some keys, one inside the other. -/
def Table.path? : Table → List String → Option Toml
  | _, [] => none
  | t, [k] => t.get? k.toList
  | t, k :: l :: ks => ((t.get? k.toList).bind asTable?).bind fun t => Table.path? t (l :: ks)

/-- The dependencies that a table names, each with its key. Those in a table that is a value are not
looked at. -/
def dependencies (t : Table) : Table :=
  ["dependencies", "dev-dependencies"].flatMap fun k => ((t.path? [k]).bind asSection?).getD []

/-- All dependencies of a package: its own, then those for each platform. -/
def allDependencies (t : Table) : Table :=
  let targets := ((t.path? ["target"]).bind asSection?).getD []
  dependencies t ++ targets.flatMap fun (_, v) => ((asSection? v).map dependencies).getD []

/-- The package that a dependency stands for: the one that it names, or else its key. -/
def packageOf (key : List Char) (v : Toml) : List Char :=
  match (asTable? v).bind (Table.path? · ["package"]) with
  | some (.string s) => s
  | _ => key

/-- The name of a package in code. -/
def codeName (key : List Char) : String :=
  String.ofList (key.map fun c => if c == '-' then '_' else c)

/-- The path of the runtime crate in the code of a package; `isTest` says that an integration test
of it is built. The last dependency on the runtime crate counts. -/
def runtimePath? (t : Table) (isTest : Bool) : Option String :=
  if (t.path? ["package", "name"]).bind asString? == some runtimeName then
    some (if isTest then "::" ++ codeName runtimeName else "crate")
  else
    ((allDependencies t).filter fun (k, v) => packageOf k v == runtimeName).getLast?.map
      fun (k, _) => "::" ++ codeName k

end Toml

/-- The path of the runtime crate if nothing else is known. -/
def defaultRuntime : String := "::mrclean"

/-- The path of the runtime crate in the package that is built. -/
def runtimePath (env : Environment) (tree : FileTree) : String :=
  ((env.manifestDir.bind fun dir => tree.readText (dir.child "Cargo.toml")).bind fun text =>
    (Toml.ofText? text.toList).bind (Toml.runtimePath? · env.testDir.isSome)).getD defaultRuntime

end SanitizeGen
