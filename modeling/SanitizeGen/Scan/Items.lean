import SanitizeGen.Scan.Trace
import SanitizeGen.Tag.Condition
import SanitizeGen.Tag.Derive

/-!
# Scanning items

`Item.scanAll` goes through items in order and descends into modules between braces. Modules in
files of their own are left to a function, `follow`.
-/

namespace SanitizeGen

/-- Where items are read. -/
structure Place where
  /-- The module of the items. -/
  ns : Namespace
  /-- The directory that files of inner modules are looked for in. -/
  dir : FilePath
  /-- The file of the items. -/
  file : FilePath
  /-- Whether the module stands between braces. -/
  isInline : Bool

/-- What leads to the items of a module in a file of its own, by its attributes and its name. -/
abbrev Follow := Place → List Attribute → Ident → Trace

/-- The path that an attribute gives to the file of a module. -/
def Attribute.pathOverride? (a : Attribute) : Option String :=
  match a.content with
  | .nameValue p [.leaf (.literal l)] =>
    if p.isWord "path" then l.stringValue.map String.ofList else none
  | _ => none

/-- The path that the attributes of a module give to its file: the first one that does. -/
def pathOverride? (attrs : List Attribute) : Option String :=
  attrs.findSome? Attribute.pathOverride?

namespace Place

/-- Inside the module `name` between braces. -/
def inside (p : Place) (attrs : List Attribute) (name : Ident) : Place where
  ns := p.ns.child name
  dir := p.dir.child ((pathOverride? attrs).getD name.name)
  file := p.file
  isInline := true

end Place

namespace DataItem

/-- The marker that an item is. -/
def scanMarker (d : DataItem) (p : Place) : Trace :=
  if derives d.attrs "PackageId" then
    match packageFlag d.attrs with
    | .ok flag => .one (.marker ⟨p.ns, Mode.ofFlag flag, d.name.text, p.file⟩)
    | .error e => .fail (.invalidMarker (p.ns.qualify d.name.text) p.file e)
  else .nil

/-- The tagged item that an item is. -/
def scanTag (d : DataItem) (p : Place) : Trace :=
  if derives d.attrs "Sanitize" then .one (.tagged ⟨p.ns, d, p.file⟩) else .nil

/-- What an item is for: a marker, a tagged item, or both. -/
def scan (d : DataItem) (p : Place) : Trace :=
  (d.scanMarker p).andThen fun _ => d.scanTag p

end DataItem

mutual

/-- Scans an item, unless only tests have it. -/
def Item.scan (follow : Follow) (p : Place) : Item → Trace
  | .data d => if isTestOnly d.attrs then .one (.testOnly p.ns p.file) else d.scan p
  | .inlineModule attrs name items =>
    if isTestOnly attrs then .one (.testOnly p.ns p.file)
    else Item.scanAll follow (p.inside attrs name) items
  | .fileModule attrs name =>
    if isTestOnly attrs then .one (.testOnly p.ns p.file) else follow p attrs name
  | .other => .nil

/-- Scans items in order. -/
def Item.scanAll (follow : Follow) (p : Place) : List Item → Trace
  | [] => .nil
  | i :: is => (Item.scan follow p i).andThen fun _ => Item.scanAll follow p is

end

section

variable {follow : Follow} {p : Place} {attrs : List Attribute} {name : Ident}

theorem Item.scan_data {d : DataItem} (h : isTestOnly d.attrs = false) :
    Item.scan follow p (.data d) = d.scan p := by
  simp [Item.scan, h]

theorem Item.scan_inlineModule {own : List Item} (h : isTestOnly attrs = false) :
    Item.scan follow p (.inlineModule attrs name own) =
      Item.scanAll follow (p.inside attrs name) own := by
  simp [Item.scan, h]

theorem Item.scan_fileModule (h : isTestOnly attrs = false) :
    Item.scan follow p (.fileModule attrs name) = follow p attrs name := by
  simp [Item.scan, h]

end

/-- Leaves modules in other files alone. -/
def leaveFiles : Follow := fun p _ name => .one (.elsewhere (p.ns.child name))

/-- The result of scanning one text as the module `ns`. -/
structure SourceScan where
  trace : Trace
  file : FilePath

namespace SourceScan

/-- Scans items as the module `ns`. Modules in other files are left alone. -/
def ofItems (items : List Item) (ns : Namespace) (file : FilePath) : SourceScan where
  trace := Item.scanAll leaveFiles ⟨ns, file.directory, file, false⟩ items
  file := file

/-- Scans one text as the module `ns`. -/
def ofText (source : String) (ns : Namespace) (file : FilePath) : SourceScan :=
  match SourceFile.ofText? source.toList with
  | none => ⟨.fail (.parse file), file⟩
  | some source => ofItems source.items ns file

/-- What the scan has found. The text itself is its only file. -/
def findings (s : SourceScan) : Except Error Findings :=
  s.trace.findings.map fun f => { f with files := [s.file] }

theorem findings_eq_ok {s : SourceScan} {f : Findings} : s.findings = .ok f ↔
    s.trace.failure = none ∧ { Findings.ofEvents s.trace.events with files := [s.file] } = f := by
  rw [findings, Trace.findings]
  cases s.trace.failure <;> simp [Except.map]

/-- What the scan tells. -/
def log (s : SourceScan) : List LogRecord := s.trace.events.map Event.record

end SourceScan

end SanitizeGen
