import SanitizeGen.Build.Staging
import SanitizeGen.Manifest.Runtime
import SanitizeGen.Scan.Crate

/-!
# Generating the files of a package

A run has two parts. `Config.plan` reads the sources and decides what to write, and changes nothing.
`Plan.install` writes the files: both are staged before either is moved into place.
-/

namespace SanitizeGen

/-- The settings of a run. What is not set is taken from the environment, the sources or the
manifest. -/
structure Config where
  /-- The file of the crate's root. -/
  sourceRoot : Option FilePath := none
  outDir : Option FilePath := none
  mode : Option Mode := none
  ns : Option String := none
  runtime : Option String := none
  /-- Whether the files that were read are printed for the build system. -/
  printFiles : Bool := true

/-- What a run has written. -/
structure Report where
  mode : Mode
  ns : Namespace
  rootFile : FilePath
  /-- Nothing if no struct is tagged. -/
  sanitizations : Option FilePath
  /-- How many functions were generated. -/
  functions : Nat
  deriving DecidableEq

/-- What a run decides before it writes anything. -/
structure Plan where
  mode : Mode
  ns : Namespace
  outDir : FilePath
  /-- The file with the generated functions, if there are any. -/
  artifact : Option Artifact
  /-- How many items are tagged. -/
  count : Nat

/-- What a part of a run tells, and its result. -/
structure Outcome (α : Type) where
  log : List LogRecord
  /-- The lines printed for the build system. -/
  printed : List String
  result : Except Error α

namespace Config

/-- The settings with the mode of the build profile, if that names one. -/
def withProfile (c : Config) (env : Environment) : Config :=
  match env.profile.bind Mode.ofProfile? with
  | some m => { c with mode := some m }
  | none => c

/-- The file of the crate's root: the one that is set, or that of the package's library, or that of
its program. -/
def root (c : Config) (env : Environment) (tree : FileTree) : Except Error FilePath :=
  match c.sourceRoot, env.manifestDir with
  | some root, _ => .ok root
  | none, none => .error (.missingConfig .sourceRoot)
  | none, some dir =>
    let files := ["lib.rs", "main.rs"].map fun name => (dir.child "src").child name
    match files.find? tree.isFile with
    | some root => .ok root
    | none => .error (.missingConfig .sourceRoot)

/-- The directory that generated files go to. -/
def target (c : Config) (env : Environment) : Except Error FilePath :=
  match c.outDir, env.outDir with
  | some dir, _ => .ok dir
  | none, some dir => .ok (dir.child "mrclean")
  | none, none => .error (.missingConfig .outDir)

/-- What is written for some findings. -/
def planFor (c : Config) (env : Environment) (tree : FileTree) (outDir : FilePath)
    (found : Findings) : Except Error Plan := do
  let mode ← match c.mode, found.package with
    | some m, _ => .ok m
    | none, some marker => .ok marker.mode
    | none, none => .error (.missingConfig .mode)
  let ns ← match c.ns, found.package with
    | some text, _ => (Namespace.parse text).mapError .invalidNamespace
    | none, some marker => .ok marker.ns
    | none, none => .error (.missingConfig .package)
  let runtime := c.runtime.getD (runtimePath env tree)
  let artifact ← (Pass.run ⟨mode, ns, runtime⟩ Tagged.resolve found.tagged).mapError .resolve
  return ⟨mode, ns, outDir, artifact, found.tagged.length⟩

/-- The record of a marker that is not the first one. -/
def extraMarker (m : Marker) : LogRecord :=
  ⟨.warning, "ignoring additional package marker", [("item", m.item), ("namespace", m.ns.text)]⟩

/-- Reads the sources and decides what to write. -/
def plan (c : Config) (env : Environment) (tree : FileTree) : Outcome Plan :=
  match c.root env tree with
  | .error e => ⟨[], [], .error e⟩
  | .ok root =>
    match c.target env with
    | .error e => ⟨[], [], .error e⟩
    | .ok outDir =>
      let trace := scanCrate tree root
      let here (rs : List LogRecord) := rs.map (·.within [("out_dir", outDir.text)])
      let scanLog := here (crateLog root trace)
      match trace.findings with
      | .error e => ⟨scanLog, [], .error e⟩
      | .ok found =>
        ⟨scanLog ++ here (found.markers.tail.map extraMarker),
          if c.printFiles then found.files.map fun f => "cargo:rerun-if-changed=" ++ f.text else [],
          c.planFor env tree outDir found⟩

end Config

namespace Plan

/-- The path of the file with the generated functions. -/
def sanitizationsPath (p : Plan) : FilePath := (p.ns.dirIn p.outDir).child sanitizationsFile

/-- A record of the writing part. -/
def record (p : Plan) (message : String) (pairs : List (String × String)) : LogRecord :=
  ⟨.info, message, ("out_dir", p.outDir.text) :: pairs⟩

/-- Removes a file of generated functions that an earlier run has left. -/
def removeStale (p : Plan) (tree : FileTree) : FileTree × Outcome Unit :=
  if tree.isFile p.sanitizationsPath then
    match tree.removeFile p.sanitizationsPath with
    | some removed =>
      (removed, ⟨[p.record "removed stale sanitizations" [("path", p.sanitizationsPath.text)]], [],
        .ok ()⟩)
    | none => (tree, ⟨[], [], .error (.file .remove p.sanitizationsPath)⟩)
  else (tree, ⟨[], [], .ok ()⟩)

/-- Moves the staged functions into place, or removes those of an earlier run. -/
def finish (p : Plan) (staged : Option Staged) (tree : FileTree) :
    FileTree × Outcome (Option FilePath) :=
  match staged with
  | some s =>
    match s.commit tree with
    | (tree, .ok path) =>
      (tree, ⟨[p.record "wrote sanitized functions"
        [("count", toString p.count), ("path", path.text)]], [], .ok (some path)⟩)
    | (tree, .error e) => (tree, ⟨[], [], .error e⟩)
  | none =>
    match p.removeStale tree with
    | (tree, ⟨log, printed, .ok ()⟩) =>
      (tree, ⟨log ++ [p.record "no sanitize targets found" []], printed, .ok none⟩)
    | (tree, ⟨log, printed, .error e⟩) => (tree, ⟨log, printed, .error e⟩)

/-- Stages both files, the root file first. If the second cannot be staged, neither is. -/
def stageAll (p : Plan) (tree : FileTree) : FileTree × Except Error (Staged × Option Staged) :=
  match (Artifact.root p.ns p.mode).stage p.outDir tree with
  | (tree, .error e) => (tree, .error e)
  | (tree, .ok root) =>
    match p.artifact with
    | none => (tree, .ok (root, none))
    | some a =>
      match a.stage p.outDir tree with
      | (tree, .ok functions) => (tree, .ok (root, some functions))
      | (tree, .error e) => (root.drop tree, .error e)

/-- Removes what waits of a file that may be staged. -/
def dropStaged (s : Option Staged) (tree : FileTree) : FileTree :=
  match s with
  | some s => s.drop tree
  | none => tree

/-- Writes the files: the root file is moved into place first, then the functions. -/
def install (p : Plan) (tree : FileTree) : FileTree × Outcome Report :=
  match p.stageAll tree with
  | (tree, .error e) => (tree, ⟨[], [], .error e⟩)
  | (tree, .ok (root, functions)) =>
    match root.commit tree with
    | (tree, .error e) => (dropStaged functions tree, ⟨[], [], .error e⟩)
    | (tree, .ok rootPath) =>
      let wrote := p.record "wrote root function"
        [("mode", p.mode.name), ("namespace", p.ns.text), ("path", rootPath.text)]
      match p.finish functions tree with
      | (tree, ⟨log, printed, .ok path⟩) =>
        (tree, ⟨wrote :: log, printed,
          .ok ⟨p.mode, p.ns, rootPath, path, if path.isSome then p.count else 0⟩⟩)
      | (tree, ⟨log, printed, .error e⟩) => (tree, ⟨wrote :: log, printed, .error e⟩)

end Plan

/-- Generates the files of a package. -/
def generate (env : Environment) (c : Config) (tree : FileTree) : FileTree × Outcome Report :=
  match c.plan env tree with
  | ⟨log, printed, .error e⟩ => (tree, ⟨log, printed, .error e⟩)
  | ⟨log, printed, .ok p⟩ =>
    match p.install tree with
    | (tree, o) => (tree, ⟨log ++ o.log, printed ++ o.printed, o.result⟩)

end SanitizeGen
