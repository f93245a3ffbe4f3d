import SanitizeGen.Proofs.ModulePaths

/-!
# Scans of files

The scan of a file goes through its items in order (`scanFile_of_source`), unless it is no source
file (`FileTree.Refuses`). So the follows of a tree go where its opener leads
(`FileTree.follows_opener`).
-/

namespace SanitizeGen

/-- Where the scan of a crate starts. -/
def Place.ofRoot (root : FilePath) : Place := ⟨.root, root.directory, root, false⟩

variable {tree : FileTree} {p : Place} {attrs : List Attribute} {name : Ident} {depth : Nat}

/-- What is wrong with a file that is no source file. -/
inductive FileTree.Refuses (tree : FileTree) (file : FilePath) : Error → Prop where
  | unread : tree.readText file = none → Refuses tree file (.file .read file)
  | unparsed {text} : tree.readText file = some text → SourceFile.ofText? text.toList = none →
      Refuses tree file (.parse file)

theorem FileTree.Refuses.scanFile_eq {e : Error} (h : tree.Refuses p.file e) (n : Nat) :
    scanFile tree (n + 1) p = .fail e := by
  rw [scanFile]
  cases h with
  | unread htext => rw [htext]
  | unparsed htext hsource =>
    rw [htext]
    simp only [hsource]

theorem exists_refuses_of_source? {file : FilePath} (h : tree.source? file = none) :
    ∃ e, tree.Refuses file e := by
  rw [FileTree.source?] at h
  rcases htext : tree.readText file with _ | text
  · exact ⟨_, .unread htext⟩
  · rw [htext, Option.bind_some] at h
    exact ⟨_, .unparsed htext h⟩

theorem scanFile_of_source {source : SourceFile} (h : tree.source? p.file = some source) (n : Nat) :
    scanFile tree (n + 1) p = (Trace.one (.opened p.ns p.file)).andThen fun _ =>
      Item.scanAll (tree.follow (scanFile tree n)) p source.items := by
  obtain ⟨text, htext, hsource⟩ := Option.bind_eq_some_iff.1 h
  rw [scanFile, htext]
  simp only [hsource]

/-- A file whose scan succeeds was read and its items were gone through. -/
theorem exists_of_scanFile_ok (h : (scanFile tree depth p).failure = none) : ∃ n source,
    depth = n + 1 ∧ tree.source? p.file = some source ∧
    (Item.scanAll (tree.follow (scanFile tree n)) p source.items).failure = none ∧
    (scanFile tree depth p).events = .opened p.ns p.file ::
      (Item.scanAll (tree.follow (scanFile tree n)) p source.items).events := by
  cases depth with
  | zero => cases h
  | succ n =>
    rcases hsource : tree.source? p.file with _ | source
    · obtain ⟨e, he⟩ := exists_refuses_of_source? hsource
      rw [he.scanFile_eq] at h
      cases h
    · rw [scanFile_of_source hsource] at h ⊢
      refine ⟨n, source, rfl, rfl, (Trace.failure_andThen.1 h).2, ?_⟩
      rw [Trace.andThen_of_ok rfl]
      rfl

namespace FileTree

theorem opener_eq_some {file : FilePath} {source : SourceFile} :
    tree.opener p attrs name = some (file, source) ↔
      (p.candidates attrs name).find? tree.isFile = some file ∧
      tree.source? file = some source := by
  rw [opener, Option.bind_eq_some_iff]
  constructor
  · rintro ⟨file', hfile, h⟩
    obtain ⟨source', hsource, heq⟩ := Option.map_eq_some_iff.1 h
    obtain ⟨rfl, rfl⟩ := Prod.mk.inj heq
    exact ⟨hfile, hsource⟩
  · rintro ⟨hfile, hsource⟩
    exact ⟨file, hfile, by rw [hsource, Option.map_some]⟩

/-- A module that is followed to without failure is in its first file, and was gone through. -/
theorem exists_of_follow_ok (h : (tree.follow (scanFile tree depth) p attrs name).failure = none) :
    ∃ n file source, depth = n + 1 ∧ (p.candidates attrs name).find? tree.isFile = some file ∧
      tree.opener p attrs name = some (file, source) ∧
      (Item.scanAll (tree.follow (scanFile tree n)) (p.inFile attrs name file)
        source.items).failure = none ∧
      (tree.follow (scanFile tree depth) p attrs name).events = .opened (p.ns.child name) file ::
        (Item.scanAll (tree.follow (scanFile tree n)) (p.inFile attrs name file)
          source.items).events := by
  rcases hfile : (p.candidates attrs name).find? tree.isFile with _ | file
  · rw [follow, hfile] at h
    cases h
  · have heq : tree.follow (scanFile tree depth) p attrs name =
        scanFile tree depth (p.inFile attrs name file) := by rw [follow, hfile]
    rw [heq] at h ⊢
    obtain ⟨n, source, hn, hsource, hscan, hevents⟩ := exists_of_scanFile_ok h
    exact ⟨n, file, source, hn, rfl, opener_eq_some.2 ⟨hfile, hsource⟩, hscan, hevents⟩

/-- The follows of the scan of a tree, one for each depth. -/
def IsFollow (tree : FileTree) (f : Follow) : Prop := ∃ depth, f = tree.follow (scanFile tree depth)

theorem follows_opener (tree : FileTree) : Follows tree.opener tree.IsFollow := by
  rintro f p attrs name file source ⟨depth, rfl⟩ ho hok
  obtain ⟨n, file', source', -, -, ho', hscan, hevents⟩ := exists_of_follow_ok hok
  obtain ⟨rfl, rfl⟩ := Prod.mk.inj (Option.some.inj (ho.symm.trans ho'))
  exact ⟨_, ⟨n, rfl⟩, hscan, fun e he => hevents ▸ List.mem_cons_of_mem _ he⟩

end FileTree

end SanitizeGen
