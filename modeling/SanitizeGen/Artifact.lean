import SanitizeGen.Namespace
import SanitizeGen.Template

/-!
# Generated files

An `Artifact` is a generated file that has not been written. `Pass.run` turns declarations into the
one artifact that holds their functions, by way of any reader of declarations.
-/

namespace SanitizeGen

/-- The name of the file with the generated functions. -/
def sanitizationsFile : String := "sanitizations.rs"

/-- The name of the file with the root function. -/
def rootFile : String := "root_sanitize_function.rs"

/-- A generated file. -/
structure Artifact where
  ns : Namespace
  fileName : String
  contents : String
  deriving DecidableEq

namespace Artifact

/-- Where the file goes under `outDir`. -/
def pathIn (a : Artifact) (outDir : FilePath) : FilePath := (a.ns.dirIn outDir).child a.fileName

/-- The root file of a namespace. -/
def root (ns : Namespace) (mode : Mode) : Artifact := ⟨ns, rootFile, Template.rootFile mode⟩

end Artifact

/-- What all functions of a generated file share. -/
structure Pass where
  mode : Mode
  ns : Namespace
  /-- The path under which generated code reaches the runtime crate. -/
  runtime : String := "::mrclean"

namespace Pass

variable {δ ε : Type}

/-- The targets of some declarations, or the first error; and how many declarations were read. -/
def resolveAll (read : δ → Except ε Target) : List δ → Except ε (List Target) × Nat
  | [] => (.ok [], 0)
  | d :: ds =>
    match read d with
    | .error e => (.error e, 1)
    | .ok t =>
      match resolveAll read ds with
      | (.ok ts, n) => (.ok (t :: ts), n + 1)
      | (.error e, n) => (.error e, n + 1)

/-- The file for some targets; none if there are no targets. -/
def artifact? (p : Pass) (ts : List Target) : Option Artifact :=
  if ts.isEmpty then none
  else some ⟨p.ns, sanitizationsFile, Template.sanitizations ts p.mode p.runtime⟩

/-- The file with the functions of all declarations, which `read` resolves in order up to the first
that fails. -/
def run (p : Pass) (read : δ → Except ε Target) (ds : List δ) : Except ε (Option Artifact) :=
  (resolveAll read ds).1.map p.artifact?

end Pass

end SanitizeGen
