import Mathlib.Data.List.Forall2
import SanitizeGen.Proofs.ScanDepth

/-!
# Modules between braces and in `mod.rs`

A module without a path of its own may stand between braces or in the file `mod.rs` of the directory
with its name. Both forms are scanned alike (`scannedAlike_of_modFile`): the directories that deeper
modules are looked for in are the same (`Place.Moved`), and what is found differs only in the file
that the module's own items are in (`Trace.Moved`).
-/

namespace SanitizeGen

namespace FilePath

/-- The path is the same, or it is `f` before and `g` after. -/
def Moved (a f g b : FilePath) : Prop := b = a ∨ a = f ∧ b = g

theorem isName_mod : IsName "mod.rs" := by constructor <;> decide

theorem getLast?_pieces_of_endsOpen {p : FilePath} (h : p.endsOpen = true) :
    p.pieces.getLast? = some [] := by
  rw [endsOpen, Bool.or_eq_true, beq_iff_eq] at h
  rcases h with h | h
  · rw [pieces_of_isEmpty h]
    rfl
  · obtain ⟨t, ht⟩ := List.getLast?_eq_some_iff.1 h
    rw [pieces, ht, splitSlash_append, splitSlash, List.getLast?_concat]

/-- The file of a module in a directory of its own is in the directory with the module's name. -/
theorem directory_modFile (p : FilePath) (name : Ident) :
    ((p.child name.name).child "mod.rs").directory = p.child name.name := by
  have hname := name.isComponent_name
  obtain ⟨ps, hpieces, -⟩ := p.exists_pieces_child hname.isAbsolute_eq_false
  rw [hname.pieces_eq] at hpieces
  obtain ⟨hne, hdot⟩ : name.name.toList ≠ [] ∧ name.name.toList ≠ ['.'] := by
    simpa [isPart, isVoid] using hname.isPart
  have hopen : (p.child name.name).endsOpen = false := by
    refine Bool.eq_false_iff.2 fun h => hne ?_
    have hlast := getLast?_pieces_of_endsOpen h
    rw [hpieces, List.getLast?_concat] at hlast
    exact Option.some.inj hlast
  have hdrop : dropVoid (p.child name.name).pieces.reverse =
      (p.child name.name).pieces.reverse := by
    rw [hpieces, List.reverse_append, List.reverse_singleton, List.singleton_append, dropVoid,
      if_neg (by simp [isVoid, hne, hdot])]
  rw [isName_mod.directory_child, folder, base, hopen, if_neg Bool.false_ne_true, hdrop,
    if_neg (by simp [hpieces]), List.reverse_reverse, ofList_joinSlash_pieces]

end FilePath

/-! ### What is told of another file -/

variable {f g : FilePath}

/-- The same item, but that it may be told to be in `g` instead of `f`. -/
structure Tagged.Moved (f g : FilePath) (t t' : Tagged) : Prop where
  ns : t'.ns = t.ns
  item : t'.item = t.item
  file : t.file.Moved f g t'.file

structure Marker.Moved (f g : FilePath) (m m' : Marker) : Prop where
  ns : m'.ns = m.ns
  mode : m'.mode = m.mode
  item : m'.item = m.item
  file : m.file.Moved f g m'.file

/-- The same event, but that what is told of the file `f` may be told of `g`. -/
inductive Event.Moved (f g : FilePath) : Event → Event → Prop where
  | opened ns file : Moved f g (.opened ns file) (.opened ns file)
  | testOnly ns {a b} : a.Moved f g b → Moved f g (.testOnly ns a) (.testOnly ns b)
  | elsewhere ns : Moved f g (.elsewhere ns) (.elsewhere ns)
  | marker {m m'} : m.Moved f g m' → Moved f g (.marker m) (.marker m')
  | tagged {t t'} : t.Moved f g t' → Moved f g (.tagged t) (.tagged t')

inductive Error.Moved (f g : FilePath) : Error → Error → Prop where
  | same e : Moved f g e e
  | moduleNotFound module candidates :
      Moved f g (.moduleNotFound module f candidates) (.moduleNotFound module g candidates)
  | invalidMarker item e : Moved f g (.invalidMarker item f e) (.invalidMarker item g e)

/-- The same happens, but that what is told of the file `f` may be told of `g`. -/
structure Trace.Moved (f g : FilePath) (t t' : Trace) : Prop where
  events : List.Forall₂ (Event.Moved f g) t.events t'.events
  failure : Option.Rel (Error.Moved f g) t.failure t'.failure

theorem FilePath.Moved.refl (a : FilePath) : a.Moved f g a := .inl rfl

theorem Event.Moved.refl (e : Event) : e.Moved f g e := by
  cases e with
  | opened ns file => exact .opened ns file
  | testOnly ns file => exact .testOnly ns (.refl file)
  | elsewhere ns => exact .elsewhere ns
  | marker m => exact .marker ⟨rfl, rfl, rfl, .refl m.file⟩
  | tagged t => exact .tagged ⟨rfl, rfl, .refl t.file⟩

namespace Trace.Moved

variable {t t' : Trace} {u u' : Unit → Trace} {e e' : Event} {err err' : Error}

theorem refl (t : Trace) : t.Moved f g t where
  events := List.forall₂_same.2 fun e _ => .refl e
  failure := by
    cases t.failure with
    | none => exact .none
    | some err => exact .some (.same err)

theorem one (h : e.Moved f g e') : (Trace.one e).Moved f g (.one e') :=
  ⟨.cons h .nil, .none⟩

theorem fail (h : err.Moved f g err') : (Trace.fail err).Moved f g (.fail err') :=
  ⟨.nil, .some h⟩

theorem andThen (ht : t.Moved f g t') (hu : (u ()).Moved f g (u' ())) :
    (t.andThen u).Moved f g (t'.andThen u') := by
  obtain ⟨hevents, hfailure⟩ := ht
  rw [Trace.andThen, Trace.andThen]
  cases h : t.failure <;> cases h' : t'.failure <;> rw [h, h'] at hfailure <;> cases hfailure
  case none.none => exact ⟨List.rel_append hevents hu.events, hu.failure⟩
  case some.some.some herr => exact ⟨hevents, by rw [h, h']; exact .some herr⟩

theorem ending (ht : t.Moved f g t') : t'.ending = t.ending := by
  have hfailure := ht.failure
  rw [Trace.ending, Trace.ending]
  cases h : t.failure <;> cases h' : t'.failure <;> rw [h, h'] at hfailure <;> cases hfailure
  case some.some.some herr => cases herr <;> rfl

end Trace.Moved

/-! ### Scans at places that differ in the file -/

theorem Place.candidates_eq (p : Place) (attrs : List Attribute) (name : Ident) :
    p.candidates attrs name = match pathOverride? attrs with
      | some path => [p.pathDir.child path]
      | none => [p.dir.child (name.name ++ ".rs"), (p.dir.child name.name).child "mod.rs"] :=
  rfl

/-- The same module in the file `g` instead of `f`. Its modules are looked for in the same
directories. -/
structure Place.Moved (f g : FilePath) (p q : Place) : Prop where
  ns : q.ns = p.ns
  dir : q.dir = p.dir
  pathDir : q.pathDir = p.pathDir
  before : p.file = f
  after : q.file = g

section

variable {p q : Place} {tree : FileTree} {next : Place → Trace} {items : List Item}

namespace Place.Moved

variable (h : p.Moved f g q)

include h

theorem file : p.file.Moved f g q.file := .inr ⟨h.before, h.after⟩

theorem inside (attrs : List Attribute) (name : Ident) :
    (p.inside attrs name).Moved f g (q.inside attrs name) where
  ns := congrArg (Namespace.child · name) h.ns
  dir := congrArg (FilePath.child · _) h.dir
  pathDir := congrArg (FilePath.child · _) h.dir
  before := h.before
  after := h.after

theorem candidates (attrs : List Attribute) (name : Ident) :
    q.candidates attrs name = p.candidates attrs name := by
  rw [candidates_eq, candidates_eq, h.pathDir, h.dir]

theorem inFile (attrs : List Attribute) (name : Ident) (file : FilePath) :
    q.inFile attrs name file = p.inFile attrs name file := by
  rw [Place.inFile, Place.inFile, h.ns, h.dir]

theorem follow (attrs : List Attribute) (name : Ident) :
    (tree.follow next p attrs name).Moved f g (tree.follow next q attrs name) := by
  rw [FileTree.follow, FileTree.follow, h.candidates]
  split
  · rw [h.ns, h.before, h.after]
    exact .fail (.moduleNotFound _ _)
  · rw [h.inFile]
    exact .refl _

theorem data (d : DataItem) : (d.scan p).Moved f g (d.scan q) := by
  refine .andThen ?_ ?_
  · rw [DataItem.scanMarker, DataItem.scanMarker, h.ns]
    split
    · split
      · exact .one (.marker ⟨rfl, rfl, rfl, h.file⟩)
      · rw [h.before, h.after]
        exact .fail (.invalidMarker _ _)
    · exact .refl _
  · rw [DataItem.scanTag, DataItem.scanTag, h.ns]
    split
    · exact .one (.tagged ⟨rfl, rfl, h.file⟩)
    · exact .refl _

theorem testOnly :
    (Trace.one (.testOnly p.ns p.file)).Moved f g (.one (.testOnly q.ns q.file)) := by
  rw [h.ns]
  exact .one (.testOnly p.ns h.file)

end Place.Moved

theorem moved_scanAll_of_forall
    (h : ∀ i ∈ items, (Item.scan (tree.follow next) p i).Moved f g
      (Item.scan (tree.follow next) q i)) :
    (Item.scanAll (tree.follow next) p items).Moved f g
      (Item.scanAll (tree.follow next) q items) := by
  induction items with
  | nil => exact .refl _
  | cons i items ih =>
    obtain ⟨hi, hitems⟩ := List.forall_mem_cons.1 h
    exact .andThen hi (ih hitems)

theorem Place.Moved.scan (h : p.Moved f g q) (i : Item) :
    (Item.scan (tree.follow next) p i).Moved f g (Item.scan (tree.follow next) q i) := by
  induction i using Item.induction generalizing p q with
  | data d =>
    rw [Item.scan, Item.scan]
    split
    · exact h.testOnly
    · exact h.data d
  | inlineModule attrs name own ih =>
    rw [Item.scan, Item.scan]
    split
    · exact h.testOnly
    · exact moved_scanAll_of_forall fun i hi => ih i hi (h.inside attrs name)
  | fileModule attrs name =>
    rw [Item.scan, Item.scan]
    split
    · exact h.testOnly
    · exact h.follow attrs name
  | other => exact .refl _

theorem Place.Moved.scanAll (h : p.Moved f g q) (items : List Item) :
    (Item.scanAll (tree.follow next) p items).Moved f g
      (Item.scanAll (tree.follow next) q items) :=
  moved_scanAll_of_forall fun i _ => h.scan i

/-- The file `mod.rs` that could hold the module `name`. -/
def Place.modFile (p : Place) (name : Ident) : FilePath := (p.dir.child name.name).child "mod.rs"

/-- A module's own directory is the same between braces and in `mod.rs`. -/
theorem Place.moved_inside (p : Place) {attrs : List Attribute}
    (hattrs : pathOverride? attrs = none) (name : Ident) :
    (p.inside attrs name).Moved p.file (p.modFile name)
      (p.inFile attrs name (p.modFile name)) where
  ns := rfl
  dir := by rw [Place.inside, Place.inFile, hattrs]; rfl
  pathDir := by
    rw [pathDir_inFile, modFile, FilePath.directory_modFile, pathDir, Place.inside, hattrs]
    rfl
  before := rfl
  after := rfl

end

/-! ### The two forms of a module -/

/-- The scan `file` of a module in the file `g` tells the same as the scan `block` of the module
between braces in the file `f`, but for the file that its own items are in. -/
structure ScannedAlike (f g : FilePath) (block file : Trace) : Prop where
  tagged : List.Forall₂ (Tagged.Moved f g) (Findings.ofEvents block.events).tagged
    (Findings.ofEvents file.events).tagged
  markers : List.Forall₂ (Marker.Moved f g) (Findings.ofEvents block.events).markers
    (Findings.ofEvents file.events).markers
  files : (Findings.ofEvents file.events).files = g :: (Findings.ofEvents block.events).files
  failure : Option.Rel (Error.Moved f g) block.failure file.failure

theorem Findings.ofEvents_moved {es es' : List Event} (h : List.Forall₂ (Event.Moved f g) es es') :
    List.Forall₂ (Tagged.Moved f g) (ofEvents es).tagged (ofEvents es').tagged ∧
      List.Forall₂ (Marker.Moved f g) (ofEvents es).markers (ofEvents es').markers ∧
      (ofEvents es').files = (ofEvents es).files := by
  induction h with
  | nil => exact ⟨.nil, .nil, rfl⟩
  | cons he _ ih =>
    obtain ⟨htagged, hmarkers, hfiles⟩ := ih
    cases he with
    | opened ns file => exact ⟨htagged, hmarkers, congrArg (file :: ·) hfiles⟩
    | testOnly ns h => exact ⟨htagged, hmarkers, hfiles⟩
    | elsewhere ns => exact ⟨htagged, hmarkers, hfiles⟩
    | marker h => exact ⟨htagged, .cons h hmarkers, hfiles⟩
    | tagged h => exact ⟨.cons h htagged, hmarkers, hfiles⟩

theorem ScannedAlike.of_moved {ns : Namespace} {t t' : Trace} (h : t.Moved f g t') :
    ScannedAlike f g t ((Trace.one (.opened ns g)).andThen fun _ => t') := by
  obtain ⟨htagged, hmarkers, hfiles⟩ := Findings.ofEvents_moved h.events
  exact ⟨htagged, hmarkers, congrArg (g :: ·) hfiles, h.failure⟩

variable {tree : FileTree} {p : Place} {attrs : List Attribute} {name : Ident} {source : SourceFile}

/-- A module in `mod.rs` is found there if no other file is named for it. -/
theorem FileTree.follow_modFile (hattrs : pathOverride? attrs = none)
    (hfile : tree.isFile (p.dir.child (name.name ++ ".rs")) = false)
    (hsource : tree.source? (p.modFile name) = some source)
    (next : Place → Trace) : tree.follow next p attrs name =
      next (p.inFile attrs name (p.modFile name)) := by
  obtain ⟨c, hc⟩ := FileTree.exists_contents?_of_source? hsource
  have hmod : tree.isFile (p.modFile name) = true := by
    rw [FileTree.isFile_eq, hc]
    rfl
  refine FileTree.follow_of_find ?_
  rw [Place.candidates_eq, hattrs]
  simpa [hfile, Place.modFile] using hmod

theorem scanFile_depthLimit_or_cut {n : Nat} (hn : tree.depthLimit ≤ n) (q : Place) :
    scanFile tree tree.depthLimit q = scanFile tree n q ∨
      (scanFile tree tree.depthLimit q).ending = .cut ∧ (scanFile tree n q).ending = .cut := by
  by_cases hcut : (scanFile tree n q).ending = .cut
  · refine .inr ⟨?_, hcut⟩
    by_contra hlimit
    rw [scanFile_of_le hlimit hn] at hcut
    exact hlimit hcut
  · exact .inl (scanFile_depthLimit hcut)

namespace FileTree

/-- The scan of a module with these items between braces. -/
def scanBlock (tree : FileTree) (p : Place) (attrs : List Attribute) (name : Ident)
    (items : List Item) : Trace :=
  Item.scanAll (tree.follow (scanFile tree tree.depthLimit)) (p.inside attrs name) items

/-- The scan of a module in a file of its own. -/
def scanOwnFile (tree : FileTree) (p : Place) (attrs : List Attribute) (name : Ident) : Trace :=
  tree.follow (scanFile tree tree.depthLimit) p attrs name

end FileTree

/-- A module that may stand between braces or in `mod.rs` is scanned alike in both forms. Either
both scans go on without end, or they find the same in the same order, read the same further files,
and fail alike if one fails. -/
theorem scannedAlike_of_modFile (tree : FileTree) (p : Place) (attrs : List Attribute)
    (name : Ident) (source : SourceFile) (hattrs : pathOverride? attrs = none)
    (hfile : tree.isFile (p.dir.child (name.name ++ ".rs")) = false)
    (hsource : tree.source? (p.modFile name) = some source) :
    ((tree.scanBlock p attrs name source.items).ending = .cut ∧
      (tree.scanOwnFile p attrs name).ending = .cut) ∨
    ScannedAlike p.file (p.modFile name)
      (tree.scanBlock p attrs name source.items) (tree.scanOwnFile p attrs name) := by
  have hmoved : (tree.scanBlock p attrs name source.items).Moved _ _ _ :=
    (p.moved_inside hattrs name).scanAll source.items
  have hown : tree.scanOwnFile p attrs name = _ :=
    FileTree.follow_modFile hattrs hfile hsource (scanFile tree tree.depthLimit)
  have hscan := scanFile_of_source (p := p.inFile attrs name (p.modFile name)) hsource
    tree.depthLimit
  rw [hown]
  -- the file takes a level of depth that the block does not: one level more makes up for it, and
  -- changes nothing unless both scans are cut
  rcases scanFile_depthLimit_or_cut (Nat.le_succ tree.depthLimit)
    (p.inFile attrs name (p.modFile name)) with heq | ⟨hcut, hlater⟩
  · rw [heq, hscan]
    exact .inr (.of_moved hmoved)
  · rw [hscan, Trace.ending_andThen, if_pos (Trace.ending_eq_ok.2 rfl)] at hlater
    exact .inl ⟨hmoved.ending.symm.trans hlater, hcut⟩

/-- A crate with a module in `mod.rs` that has further modules, found by a path and by name. -/
def formsCrate : FileTree :=
  ⟨[], [(["src"], .directory), (["src", "keys"], .directory),
    (["src", "keys", "mod.rs"], .file (.text
      "#[path = \"far.rs\"] mod near; mod inner { mod deep; } #[derive(Sanitize)] struct Key;")),
    (["src", "keys", "far.rs"], .file (.text "#[derive(Sanitize)] struct Near;")),
    (["src", "keys", "inner"], .directory),
    (["src", "keys", "inner", "deep.rs"], .file (.text "#[derive(Sanitize)] struct Deep;"))]⟩

/-- The module of `formsCrate` is scanned alike in both forms, with the modules in it. -/
theorem scannedAlike_formsCrate : ∃ source,
    formsCrate.source? ⟨"src/keys/mod.rs"⟩ = some source ∧
    (formsCrate.scanBlock (.ofRoot ⟨"src/lib.rs"⟩) [] (.plain "keys") source.items).findings.map
      (fun found => found.tagged.map Tagged.path) =
        .ok ["keys::near::Near", "keys::inner::deep::Deep", "keys::Key"] ∧
    ScannedAlike ⟨"src/lib.rs"⟩ ⟨"src/keys/mod.rs"⟩
      (formsCrate.scanBlock (.ofRoot ⟨"src/lib.rs"⟩) [] (.plain "keys") source.items)
      (formsCrate.scanOwnFile (.ofRoot ⟨"src/lib.rs"⟩) [] (.plain "keys")) := by
  have h : ((formsCrate.source? ⟨"src/keys/mod.rs"⟩).any fun source =>
      (formsCrate.scanBlock (.ofRoot ⟨"src/lib.rs"⟩) [] (.plain "keys") source.items).findings.map
        (fun found => found.tagged.map Tagged.path) =
          .ok ["keys::near::Near", "keys::inner::deep::Deep", "keys::Key"]) = true := by
    decide +kernel
  obtain ⟨source, hsource, hfound⟩ := (Option.any_eq_true _ _).1 h
  refine ⟨source, hsource, of_decide_eq_true hfound, ?_⟩
  have hmod : (Place.ofRoot ⟨"src/lib.rs"⟩).modFile (.plain "keys") = ⟨"src/keys/mod.rs"⟩ := by
    decide +kernel
  rcases scannedAlike_of_modFile formsCrate (.ofRoot ⟨"src/lib.rs"⟩) [] (.plain "keys") source rfl
    (by decide +kernel) (hmod ▸ hsource) with ⟨hcut, -⟩ | halike
  · refine absurd hcut (Trace.uncut_of_ok ?_)
    have hfound := of_decide_eq_true hfound
    by_contra hfail
    obtain ⟨err, herr⟩ := Option.ne_none_iff_exists'.1 hfail
    rw [Trace.findings, herr] at hfound
    cases hfound
  · rwa [hmod] at halike

end SanitizeGen
