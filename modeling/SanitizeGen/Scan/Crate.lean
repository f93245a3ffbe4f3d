import SanitizeGen.Scan.Items
import SanitizeGen.Files.FileTree

/-!
# Scanning a crate

`scanCrate` starts at the file of the crate's root and follows modules to their files. The files
that could hold a module are its `candidates`, and the first that exists does.
-/

namespace SanitizeGen

namespace Place

/-- The files that could hold the module `name` declared here, in the order in which they are looked
for. A path in the attributes starts at the file's own directory, or in a module between braces at
the directory of that module. -/
def candidates (p : Place) (attrs : List Attribute) (name : Ident) : List FilePath :=
  match pathOverride? attrs with
  | some path => [(if p.isInline then p.dir else p.file.directory).child path]
  | none => [p.dir.child (name.name ++ ".rs"), (p.dir.child name.name).child "mod.rs"]

/-- Inside the module `name` whose items are in `file`. -/
def inFile (p : Place) (attrs : List Attribute) (name : Ident) (file : FilePath) : Place where
  ns := p.ns.child name
  dir := if (pathOverride? attrs).isSome then file.directory else p.dir.child name.name
  file := file
  isInline := false

end Place

/-- Follows a module to the first file that can hold it, and scans that with `next`. -/
def FileTree.follow (tree : FileTree) (next : Place → Trace) : Follow := fun p attrs name =>
  match (p.candidates attrs name).find? tree.isFile with
  | none => .fail (.moduleNotFound (p.ns.child name) p.file (p.candidates attrs name))
  | some file => next (p.inFile attrs name file)

/-- Scans the file of a place. Its modules are followed to their files, up to `depth` files deep. -/
def scanFile (tree : FileTree) : Nat → Place → Trace
  | 0, p => .fail (.endlessModules p.file)
  | depth + 1, p =>
    match tree.readText p.file with
    | none => .fail (.file .read p.file)
    | some text =>
      match SourceFile.ofText? text.toList with
      | none => .fail (.parse p.file)
      | some source =>
        (Trace.one (.opened p.ns p.file)).andThen fun _ =>
          Item.scanAll (tree.follow (scanFile tree depth)) p source.items

/-- How many files deep modules can be followed without end. What follows from a file is told by its
contents and by the two directories that its modules are looked for in, so a longer chain repeats
itself. -/
def FileTree.depthLimit (tree : FileTree) : Nat :=
  (tree.entries.length + 2) * (tree.entries.length + 2) * tree.entries.length + 1

/-- Scans the crate whose root is in the file `root`. -/
def scanCrate (tree : FileTree) (root : FilePath) : Trace :=
  scanFile tree tree.depthLimit ⟨.root, root.directory, root, false⟩

/-- The record that ends a successful scan. -/
def Findings.record (f : Findings) : LogRecord :=
  ⟨.info, "scanned crate sources",
    [("files", toString f.files.length), ("declarations", toString f.tagged.length),
     ("package_markers", toString f.markers.length)]⟩

/-- What the scan of a crate tells. -/
def crateLog (root : FilePath) (t : Trace) : List LogRecord :=
  let last := match t.findings with
    | .ok f => [f.record]
    | .error _ => []
  (t.events.map Event.record ++ last).map (·.within [("root", root.text)])

end SanitizeGen
