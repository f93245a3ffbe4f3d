import SanitizeGen.Tag.Resolve
import SanitizeGen.Tag.PackageFlag

/-!
# Errors of generation

Each constructor is a cause; `Error.message` words it.
-/

namespace SanitizeGen

/-- A setting that has no default. -/
inductive Setting where
  | sourceRoot
  | outDir
  | mode
  | package
  | debugFlag
  deriving DecidableEq

/-- What the setting is called. -/
def Setting.name : Setting → String
  | sourceRoot => "source root"
  | outDir => "output directory"
  | mode => "generation mode"
  | package => "package name"
  | debugFlag => "debug flag"

/-- A step on files that can fail. -/
inductive FileAction where
  | read
  | makeDirectory
  | write
  | rename
  | remove
  deriving DecidableEq

/-- What the step is called. -/
def FileAction.name : FileAction → String
  | read => "read"
  | makeDirectory => "create directory"
  | write => "write"
  | rename => "rename"
  | remove => "remove"

/-- Why nothing is generated. -/
inductive Error where
  | missingConfig (setting : Setting)
  | resolve (e : ResolveError)
  | file (action : FileAction) (path : FilePath)
  | parse (path : FilePath)
  /-- None of the files exists that could hold a module. -/
  | moduleNotFound (module : Namespace) (parent : FilePath) (candidates : List FilePath)
  /-- Modules declare one another without end. -/
  | endlessModules (path : FilePath)
  /-- The attributes of a package marker are malformed. -/
  | invalidMarker (item : String) (path : FilePath) (e : FlagError)
  | invalidNamespace (e : NamespaceError)
  deriving DecidableEq

namespace Error

/-- The text of the error. -/
def message : Error → String
  | missingConfig setting => "missing configuration: " ++ setting.name
  | resolve e => e.message
  | file action path => "failed to " ++ action.name ++ " `" ++ path.text ++ "`"
  | parse path => "failed to parse `" ++ path.text ++ "`"
  | moduleNotFound module parent candidates =>
    "file for module `" ++ module.text ++ "` (declared in `" ++ parent.text ++
      "`) not found; tried " ++
      ", ".intercalate (candidates.map fun c => "`" ++ c.text ++ "`")
  | endlessModules path => "modules of `" ++ path.text ++ "` are nested without end"
  | invalidMarker item path e =>
    "invalid marker on `" ++ item ++ "` in `" ++ path.text ++ "`: " ++ e.message
  | invalidNamespace e => e.message

end Error

end SanitizeGen
