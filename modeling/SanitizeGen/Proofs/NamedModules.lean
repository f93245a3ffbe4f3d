import SanitizeGen.Proofs.ModuleFiles
import SanitizeGen.Proofs.ScanDepth

/-!
# Modules found by name

Where no module has a path of its own, each one adds its name to the directory that its modules are
looked for in, and its file is in that directory or beside it. So files can be nested no deeper than
the files below the directory of the root, whatever they declare, and the scan of the crate ends
(`ends_of_byName`).
-/

namespace SanitizeGen

open FilePath

/-! ### Modules without paths -/

mutual

/-- Whether no module has a path of its own, the item and all inside it. -/
def Item.isByName : Item → Bool
  | .data _ => true
  | .inlineModule attrs _ items => (pathOverride? attrs).isNone && Item.areByName items
  | .fileModule attrs _ => (pathOverride? attrs).isNone
  | .other => true

def Item.areByName : List Item → Bool
  | [] => true
  | i :: is => i.isByName && Item.areByName is

end

/-- No module in any file has a path of its own. -/
def FileTree.ByName (tree : FileTree) : Prop :=
  ∀ l text source, (l, .file (.text text)) ∈ tree.entries →
    SourceFile.ofText? text.toList = some source → Item.areByName source.items = true

/-- Whether no module in the file that an entry may be has a path of its own. -/
def Entry.isByName : Entry → Bool
  | .file (.text text) =>
    (SourceFile.ofText? text.toList).all fun source => Item.areByName source.items
  | _ => true

instance (tree : FileTree) : Decidable tree.ByName :=
  decidable_of_iff (tree.entries.all (·.2.isByName) = true) <| by
    rw [List.all_eq_true]
    constructor
    · intro h l text source hmem hsource
      have hentry := h _ hmem
      rw [Entry.isByName, hsource] at hentry
      exact hentry
    · rintro h ⟨l, _ | text | bytes⟩ hmem
      · rfl
      · rw [Entry.isByName, Option.all_eq_true]
        exact fun source hsource => h l text source hmem hsource
      · rfl

theorem isByName_of_mem {i : Item} {items : List Item} (h : Item.areByName items = true)
    (hi : i ∈ items) : i.isByName = true := by
  induction items with
  | nil => cases hi
  | cons j items ih =>
    rw [Item.areByName, Bool.and_eq_true] at h
    rcases List.mem_cons.1 hi with rfl | hi
    · exact h.1
    · exact ih h.2 hi

namespace Step

def name : Step → Ident
  | block _ name => name
  | file _ name _ _ _ => name

end Step

/-! ### Files below a directory -/

namespace FileTree

variable {tree : FileTree} {p : FilePath} {l top : Location}

/-- How deep the file at `l` is below the directory at `top`; `0` if there is none. -/
def depthFrom (tree : FileTree) (top l : Location) : Nat :=
  match tree.get? l with
  | some (.file _) => if top.isPrefixOf l then l.length - top.length else 0
  | _ => 0

/-- The greatest depth of a file below the directory. -/
def depthBelow (tree : FileTree) (dir : FilePath) : Nat :=
  match tree.dirAt dir with
  | some top => ((tree.entries.map fun e => tree.depthFrom top e.1).max?).getD 0
  | none => 0

/-- The file at `l` is below the directory at `top`, by more than `n` names. -/
structure Below (tree : FileTree) (top : Location) (n : Nat) (l : Location) : Prop where
  isFile : ∃ c, tree.get? l = some (.file c)
  isPrefix : top <+: l
  deeper : top.length + n < l.length

theorem Below.lt_depthBelow {n : Nat} (h : tree.Below top n l) (hdir : tree.dirAt p = some top) :
    n < tree.depthBelow p := by
  obtain ⟨⟨c, hc⟩, hbelow, hdeeper⟩ := h
  have hentry : (l, .file c) ∈ tree.entries := by
    rcases mem_entries_of_get? hc with rfl | hentry
    · cases hc
    · exact hentry
  have hmem : tree.depthFrom top l ∈ tree.entries.map fun e => tree.depthFrom top e.1 :=
    List.mem_map.2 ⟨_, hentry, rfl⟩
  have hdepth : tree.depthFrom top l = l.length - top.length := by
    rw [depthFrom, hc]
    simp [hbelow]
  have hle := List.le_max?_getD_of_mem (k := 0) hmem
  rw [depthBelow, hdir]
  simp only
  omega

theorem exists_mem_of_source? {source : SourceFile} (h : tree.source? p = some source) :
    ∃ l text, (l, .file (.text text)) ∈ tree.entries ∧
      SourceFile.ofText? text.toList = some source := by
  obtain ⟨text, htext, hsource⟩ := Option.bind_eq_some_iff.1 h
  rw [readText] at htext
  split at htext
  · rename_i c hentry
    unfold entry? at hentry
    split at hentry
    · rename_i l hlocate
      cases c with
      | binary bytes => cases htext
      | text own =>
        obtain rfl := Option.some.inj htext
        rcases mem_entries_of_get? hentry with rfl | hmem
        · cases hentry
        · exact ⟨l, _, hmem, hsource⟩
    · cases hentry
  · cases htext

theorem eq_of_walk_component {name : String} {d m : Location} (h : IsComponent name)
    (hdots : name.toList ≠ ['.', '.']) (hw : tree.walk d [name.toList] = .ok m) :
    m = d ++ [name] := by
  obtain ⟨hne, hdot⟩ : name.toList ≠ [] ∧ name.toList ≠ ['.'] := by
    simpa [isPart, isVoid] using h.isPart
  rw [walk] at hw
  split at hw
  · cases hw
  · cases hw
  · rw [if_neg (by simp [hne, hdot]), if_neg (by simp [hdots])] at hw
    split at hw
    · cases hw
    · rw [walk, String.ofList_toList] at hw
      exact (Except.ok.inj hw).symm

theorem toList_name_ne_dots (name : Ident) : name.name.toList ≠ ['.', '.'] :=
  fun h => name.not_mem_name (c := '.') rfl (by simp [h])

/-- The directory of a module is one name deeper. -/
theorem exists_of_dirAt_child {name : Ident} (h : tree.dirAt (p.child name.name) = some l) :
    ∃ top, tree.dirAt p = some top ∧ l = top ++ [name.name] := by
  have hname := name.isComponent_name
  rw [dirAt_child hname.isAbsolute_eq_false, hname.parts_eq] at h
  obtain ⟨top, htop, henter⟩ := Option.bind_eq_some_iff.1 h
  have hwalk := (enter_eq_some.1 henter).1
  exact ⟨top, htop, eq_of_walk_component hname (toList_name_ne_dots name) hwalk⟩

theorem exists_below_of_isFile {name : String} (hname : IsComponent name)
    (hdots : name.toList ≠ ['.', '.']) (h : tree.isFile (p.child name) = true) :
    ∃ top l, tree.dirAt p = some top ∧ tree.Below top 0 l := by
  rw [isFile_eq] at h
  obtain ⟨top, htop⟩ := exists_dirAt_of_contents? hname.isAbsolute_eq_false h
  obtain ⟨c, hc⟩ := Option.isSome_iff_exists.1 h
  rw [contents?, locate_child_of_dirAt hname htop] at hc
  split at hc
  · rename_i l hwalk
    obtain rfl := eq_of_walk_component hname hdots hwalk
    obtain ⟨e, he, hfile⟩ := Option.bind_eq_some_iff.1 hc
    cases e with
    | directory => cases hfile
    | file c => exact ⟨top, _, htop, ⟨c, he⟩, List.prefix_append _ _, by simp⟩
  · cases hc

end FileTree

/-! ### Ways into modules -/

section

variable {tree : FileTree} {o : Opener} {p q : Place} {items inner : List Item} {path : List Step}

theorem FileTree.ByName.areByName_source (h : tree.ByName) {file : FilePath} {source : SourceFile}
    (hsource : tree.source? file = some source) : Item.areByName source.items = true := by
  obtain ⟨l, text, hmem, hparse⟩ := FileTree.exists_mem_of_source? hsource
  exact h l text source hmem hparse

/-- Each module that is found by name adds its name to the directory of its modules. -/
theorem Leads.dir_eq (htree : tree.ByName) (h : Leads tree.opener p items path q inner)
    (hitems : Item.areByName items = true) : Item.areByName inner = true ∧
      q.dir = path.foldl (fun dir s => dir.child s.name.name) p.dir := by
  induction h with
  | here => exact ⟨hitems, rfl⟩
  | @block p items attrs name own path q inner hmem _ ih =>
    have hitem := isByName_of_mem hitems hmem
    rw [Item.isByName, Bool.and_eq_true, Option.isNone_iff_eq_none] at hitem
    obtain ⟨hinner, hdir⟩ := ih hitem.2
    refine ⟨hinner, hdir.trans ?_⟩
    rw [Place.inside, hitem.1]
    rfl
  | @file p items attrs name file source path q inner hmem ho _ ih =>
    have hitem := isByName_of_mem hitems hmem
    rw [Item.isByName, Option.isNone_iff_eq_none] at hitem
    obtain ⟨hinner, hdir⟩ := ih (htree.areByName_source (FileTree.opener_eq_some.1 ho).2)
    refine ⟨hinner, hdir.trans ?_⟩
    rw [Place.inFile, hitem]
    rfl

/-- Directories of modules are as much deeper as there are modules. -/
theorem exists_of_dirAt_foldl {dir : FilePath} {l : Location}
    (h : tree.dirAt (path.foldl (fun dir s => dir.child s.name.name) dir) = some l) :
    ∃ top, tree.dirAt dir = some top ∧ l = top ++ path.map (·.name.name) := by
  induction path generalizing dir with
  | nil => exact ⟨l, h, (List.append_nil l).symm⟩
  | cons s path ih =>
    obtain ⟨below, hbelow, rfl⟩ := ih h
    obtain ⟨top, htop, rfl⟩ := FileTree.exists_of_dirAt_child hbelow
    exact ⟨top, htop, by simp⟩

/-- The file of a module that is found by name is in the directory it is looked for in, or in one
inside that. -/
theorem exists_below_of_find? {attrs : List Attribute} {name : Ident} {file : FilePath}
    (hattrs : pathOverride? attrs = none)
    (hfile : (p.candidates attrs name).find? tree.isFile = some file) :
    ∃ top l, tree.dirAt p.dir = some top ∧ tree.Below top 0 l := by
  rw [Place.candidates, hattrs] at hfile
  have hthere := List.find?_some hfile
  rcases List.mem_cons.1 (List.mem_of_find?_eq_some hfile) with rfl | hmem
  · refine FileTree.exists_below_of_isFile name.isComponent_rs (fun h => ?_) hthere
    -- the last letters differ
    have hlast := congrArg List.getLast? h
    rw [String.toList_append] at hlast
    simp at hlast
  · obtain rfl := List.mem_singleton.1 hmem
    obtain ⟨below, l, hbelow, hl⟩ :=
      FileTree.exists_below_of_isFile isComponent_mod (by decide) hthere
    obtain ⟨top, htop, rfl⟩ := FileTree.exists_of_dirAt_child hbelow
    obtain ⟨hfile, hbelow, hdeeper⟩ := hl
    refine ⟨top, l, htop, hfile, (List.prefix_append _ _).trans hbelow, ?_⟩
    rw [List.length_append] at hdeeper
    omega

/-- The module `name` that the steps lead to is found in a file. -/
def FoundAt (tree : FileTree) (p : Place) (items : List Item) (path : List Step) : Prop :=
  ∃ q inner attrs name file, Leads tree.opener p items path q inner ∧
    .fileModule attrs name ∈ inner ∧ (q.candidates attrs name).find? tree.isFile = some file

/-- A file that modules found by name lead to is deeper than there are modules on the way. -/
theorem FoundAt.lt_depthBelow (htree : tree.ByName) (hitems : Item.areByName items = true)
    (h : FoundAt tree p items path) : path.length < tree.depthBelow p.dir := by
  obtain ⟨q, inner, attrs, name, file, hleads, hmem, hfile⟩ := h
  obtain ⟨hinner, hdir⟩ := hleads.dir_eq htree hitems
  have hitem := isByName_of_mem hinner hmem
  rw [Item.isByName, Option.isNone_iff_eq_none] at hitem
  obtain ⟨below, l, hbelow, hthere, hstart, hdeeper⟩ := exists_below_of_find? hitem hfile
  rw [hdir] at hbelow
  obtain ⟨top, htop, rfl⟩ := exists_of_dirAt_foldl hbelow
  refine FileTree.Below.lt_depthBelow ⟨hthere, (List.prefix_append _ _).trans hstart, ?_⟩ htop
  simpa using hdeeper

/-- The last file on a way is found from the steps before it. -/
theorem Leads.exists_foundAt (h : Leads tree.opener p items path q inner)
    (hpath : path.countP Step.isFile ≠ 0) :
    ∃ before, FoundAt tree p items before ∧
      path.countP Step.isFile = before.countP Step.isFile + 1 := by
  induction h with
  | here => exact absurd rfl hpath
  | block hmem _ ih =>
    obtain ⟨before, ⟨q, inner, attrs, name, file, hleads, hfound⟩, hcount⟩ := ih hpath
    exact ⟨_, ⟨q, inner, attrs, name, file, .block hmem hleads, hfound⟩, hcount⟩
  | @file p items attrs name file source path q inner hmem ho _ ih =>
    by_cases hlast : path.countP Step.isFile = 0
    · obtain ⟨hfile, -⟩ := FileTree.opener_eq_some.1 ho
      refine ⟨[], ⟨p, items, attrs, name, file, .here, hmem, hfile⟩, ?_⟩
      rw [List.countP_cons_of_pos rfl, hlast]
      rfl
    · obtain ⟨before, ⟨q, inner, attrs', name', file', hleads, hfound⟩, hcount⟩ := ih hlast
      refine ⟨_, ⟨q, inner, attrs', name', file', .file hmem ho hleads, hfound⟩, ?_⟩
      rw [List.countP_cons_of_pos rfl, List.countP_cons_of_pos rfl, hcount]

/-! ### The end of the scan -/

/-- A scan that is cut short has found as many nested files as it is deep. -/
theorem exists_foundAt_of_cut {n : Nat} (h : (scanFile tree (n + 1) p).ending = .cut) :
    ∃ source path, tree.source? p.file = some source ∧ FoundAt tree p source.items path ∧
      path.countP Step.isFile = n := by
  obtain ⟨path, q, attrs, name, file, ⟨source, hsource, hgets⟩, hcount, hfile⟩ :=
    exists_comesTo_of_cut h
  obtain ⟨inner, hleads, -, hmem, -⟩ := hgets.exists_leads
  exact ⟨source, path, hsource, ⟨q, inner, attrs, name, file, hleads, hmem, hfile⟩, hcount⟩

end

/-- A scan of a crate in which modules are found by name alone ends. The directory of a module is as
many names below that of the root as there are modules around it and itself, and no more files are
nested on any way than the greatest depth of a file below the directory of the root. -/
theorem ends_of_byName (tree : FileTree) (root : FilePath) (htree : tree.ByName) :
    (∀ source path q inner, tree.source? root = some source →
      Leads tree.opener (.ofRoot root) source.items path q inner →
        q.dir = path.foldl (fun dir s => dir.child s.name.name) root.directory ∧
        path.countP Step.isFile ≤ tree.depthBelow root.directory ∧
        ∀ attrs name file, .fileModule attrs name ∈ inner →
          (q.candidates attrs name).find? tree.isFile = some file →
          path.countP Step.isFile < tree.depthBelow root.directory) ∧
    (∀ n, tree.depthBelow root.directory < n →
      scanFile tree n (.ofRoot root) = scanCrate tree root) ∧
    (scanCrate tree root).ending ≠ .cut := by
  have hfound {source path} (hsource : tree.source? root = some source)
      (h : FoundAt tree (.ofRoot root) source.items path) :
      path.countP Step.isFile < tree.depthBelow root.directory := by
    have hlt := h.lt_depthBelow htree (htree.areByName_source hsource)
    exact List.countP_le_length.trans_lt hlt
  have huncut (n : Nat) (hn : tree.depthBelow root.directory < n) :
      (scanFile tree n (.ofRoot root)).ending ≠ .cut := by
    obtain ⟨n, rfl⟩ := Nat.exists_eq_succ_of_ne_zero (Nat.ne_zero_of_lt hn)
    intro hcut
    obtain ⟨source, path, hsource, hpath, hcount⟩ := exists_foundAt_of_cut hcut
    have := hfound hsource hpath
    omega
  have hlimit (n : Nat) (hn : tree.depthBelow root.directory < n) :
      scanFile tree n (.ofRoot root) = scanCrate tree root := by
    rw [scanCrate]
    exact (scanFile_depthLimit (huncut n hn)).symm
  refine ⟨fun source path q inner hsource hleads => ⟨?_, ?_, fun attrs name file hmem hfile => ?_⟩,
    hlimit, ?_⟩
  · exact (hleads.dir_eq htree (htree.areByName_source hsource)).2
  · by_cases hpath : path.countP Step.isFile = 0
    · omega
    -- the last file was found itself, so there are fewer before it than the tree is deep
    · obtain ⟨before, hbefore, hcount⟩ := hleads.exists_foundAt hpath
      have := hfound hsource hbefore
      omega
  · exact hfound hsource ⟨q, inner, attrs, name, file, hleads, hmem, hfile⟩
  · rw [← hlimit _ (Nat.lt_succ_self _)]
    exact huncut _ (Nat.lt_succ_self _)

/-- A crate whose root is the file of one of its modules as well, and declares it. -/
def selfCrate : FileTree :=
  ⟨[], [(["src"], .directory), (["src", "lib.rs"], .file (.text "mod lib;")),
    (["src", "lib"], .directory), (["src", "lib", "lib.rs"], .file (.text "mod r#mod;")),
    (["src", "lib", "lib"], .directory),
    (["src", "lib", "lib", "mod.rs"], .file (.text "#[derive(Sanitize)] struct Key;"))]⟩

/-- The scan of `selfCrate` ends after three nested files. -/
theorem ends_selfCrate : selfCrate.ByName ∧
    selfCrate.depthBelow (FilePath.directory ⟨"src/lib.rs"⟩) = 3 ∧
    scanFile selfCrate 4 (.ofRoot ⟨"src/lib.rs"⟩) = scanCrate selfCrate ⟨"src/lib.rs"⟩ ∧
    (scanCrate selfCrate ⟨"src/lib.rs"⟩).findings.map (fun found =>
      (found.files, found.tagged.map Tagged.path)) =
        .ok ([⟨"src/lib.rs"⟩, ⟨"src/lib.rs"⟩, ⟨"src/lib/lib.rs"⟩, ⟨"src/lib/lib/mod.rs"⟩],
          ["lib::lib::r#mod::Key"]) := by
  have hnames : selfCrate.ByName := by decide +kernel
  have hdepth : selfCrate.depthBelow (FilePath.directory ⟨"src/lib.rs"⟩) = 3 := by decide +kernel
  obtain ⟨-, hscan, -⟩ := ends_of_byName selfCrate ⟨"src/lib.rs"⟩ hnames
  exact ⟨hnames, hdepth, hscan 4 (by rw [hdepth]; decide), by decide +kernel⟩

end SanitizeGen
