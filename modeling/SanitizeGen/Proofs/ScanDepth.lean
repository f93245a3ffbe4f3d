import Mathlib.Data.Finset.Prod
import Mathlib.Order.Monotone.Basic
import SanitizeGen.Proofs.CrateScan
import SanitizeGen.Proofs.DirectoryPaths

/-!
# Scans without end

A scan stops at a depth that depends on the tree, so that it stops at all. No scan is cut short by
that: one that ends by itself at any depth, with success or not, is the same up to the limit
(`scanFile_depthLimit`). How the scan of a file ends depends on its contents and on two directories
(`Place.outlook`). There are no more of these than the limit, and once no more of them end by
themselves when the depth grows by one, none ever does.
-/

namespace SanitizeGen

/-! ### How traces end -/

/-- How a trace ends. -/
inductive Ending where
  | ok
  | failed
  /-- There was no depth left to follow modules. -/
  | cut
  deriving DecidableEq

namespace Trace

def ending (t : Trace) : Ending :=
  match t.failure with
  | none => .ok
  | some (.endlessModules _) => .cut
  | some _ => .failed

variable {t t' : Trace} {u u' : Unit → Trace}

theorem ending_eq_ok : t.ending = .ok ↔ t.failure = none := by
  unfold ending
  split <;> simp_all

theorem ending_eq_cut : t.ending = .cut ↔ ∃ file, t.failure = some (.endlessModules file) := by
  unfold ending
  split <;> simp_all

theorem uncut_of_ok (h : t.failure = none) : t.ending ≠ .cut := by
  rw [ending_eq_ok.2 h]
  decide

theorem ending_andThen (t : Trace) (u : Unit → Trace) :
    (t.andThen u).ending = if t.ending = .ok then (u ()).ending else t.ending := by
  rcases ht : t.failure with _ | err
  · rw [andThen_of_ok ht, if_pos (ending_eq_ok.2 ht)]
    rfl
  · rw [andThen, ht, if_neg (by simp [ending_eq_ok, ht])]

theorem andThen_congr (ht : t' = t) (hu : t.failure = none → u' () = u ()) :
    t'.andThen u' = t.andThen u := by
  subst ht
  rcases h : t'.failure with _ | err
  · rw [andThen_of_ok h, andThen_of_ok h, hu h]
  · rw [andThen, andThen, h]

/-- If a trace has the property `G`, then so does each trace that it goes through. -/
structure Inherited (G : Trace → Prop) : Prop where
  left : ∀ {t : Trace} {u : Unit → Trace}, G (t.andThen u) → G t
  right : ∀ {t : Trace} {u : Unit → Trace}, G (t.andThen u) → t.failure = none → G (u ())

theorem Inherited.ok : Inherited fun t => t.failure = none where
  left h := (failure_andThen.1 h).1
  right h _ := (failure_andThen.1 h).2

theorem Inherited.uncut : Inherited fun t => t.ending ≠ .cut where
  left {t u} h ht := by
    rw [ending_andThen, ht] at h
    exact h rfl
  right {t u} h ht := by
    rwa [ending_andThen, if_pos (ending_eq_ok.2 ht)] at h

end Trace

/-! ### Scans that follow alike -/

section

variable {f g : Follow} {p q : Place} {items : List Item}

variable {G : Trace → Prop} (hG : Trace.Inherited G)

include hG in
theorem scanAll_eq_of_forall
    (h : ∀ i ∈ items, G (Item.scan f p i) → Item.scan g p i = Item.scan f p i)
    (hscan : G (Item.scanAll f p items)) : Item.scanAll g p items = Item.scanAll f p items := by
  induction items with
  | nil => rfl
  | cons i items ih =>
    rw [Item.scanAll] at hscan
    obtain ⟨hitem, hmore⟩ := List.forall_mem_cons.1 h
    rw [Item.scanAll, Item.scanAll]
    exact Trace.andThen_congr (hitem (hG.left hscan)) fun hi => ih hmore (hG.right hscan hi)

/-- The items declare the module `name` in a file of its own, perhaps inside blocks, so that a scan
of them gets there. -/
def Declares (p : Place) (items : List Item) (q : Place) (attrs : List Attribute) (name : Ident) :
    Prop :=
  ∃ path inner, Leads noFiles p items path q inner ∧ Kept path ∧
    .fileModule attrs name ∈ inner ∧ isTestOnly attrs = false

theorem Declares.block {attrs battrs : List Attribute} {name bname : Ident} {own : List Item}
    (hmem : .inlineModule battrs bname own ∈ items) (hlive : isTestOnly battrs = false)
    (h : Declares (p.inside battrs bname) own q attrs name) : Declares p items q attrs name := by
  obtain ⟨path, inner, hleads, hkept, hdecl⟩ := h
  exact ⟨_, inner, .block hmem hleads, List.forall_mem_cons.2 ⟨hlive, hkept⟩, hdecl⟩

include hG in
/-- A scan is the same with a function that follows the same way wherever it gets to. -/
theorem scanAll_congr_of_inherited
    (h : ∀ q attrs name, Declares p items q attrs name → G (f q attrs name) →
      g q attrs name = f q attrs name)
    (hscan : G (Item.scanAll f p items)) : Item.scanAll g p items = Item.scanAll f p items := by
  suffices hitem : ∀ (i : Item) {p items}, i ∈ items →
      (∀ q attrs name, Declares p items q attrs name → G (f q attrs name) →
        g q attrs name = f q attrs name) →
      G (Item.scan f p i) → Item.scan g p i = Item.scan f p i from
    scanAll_eq_of_forall hG (fun i hi => hitem i hi h) hscan
  intro i
  induction i using Item.induction with
  | data d => exact fun _ _ _ => by rw [Item.scan, Item.scan]
  | inlineModule attrs name own ih =>
    intro p items hi h hscan
    rw [Item.scan] at hscan ⊢
    rw [Item.scan]
    split
    · rfl
    · rename_i hlive
      rw [if_neg hlive] at hscan
      have hown q attrs' name' (hd : Declares (p.inside attrs name) own q attrs' name') :=
        h q attrs' name' (hd.block hi (by simpa using hlive))
      exact scanAll_eq_of_forall hG (fun j hj => ih j hj hj hown) hscan
  | fileModule attrs name =>
    intro p items hi h hscan
    rw [Item.scan] at hscan ⊢
    rw [Item.scan]
    split
    · rfl
    · rename_i hlive
      rw [if_neg hlive] at hscan
      exact h p attrs name ⟨[], items, .here, List.forall_mem_nil _, hi, by simpa using hlive⟩ hscan
  | other => exact fun _ _ _ => by rw [Item.scan, Item.scan]

/-- A scan that succeeds is the same with a function that follows the same way wherever it does. -/
theorem scanAll_congr
    (h : ∀ q attrs name, Declares p items q attrs name → (f q attrs name).failure = none →
      g q attrs name = f q attrs name)
    (hok : (Item.scanAll f p items).failure = none) :
    Item.scanAll g p items = Item.scanAll f p items :=
  scanAll_congr_of_inherited .ok h hok

end

/-! ### Scans of one file -/

variable {tree : FileTree} {p q : Place} {m n : Nat}

theorem FileTree.source?_congr {other : FileTree} {f g : FilePath}
    (h : tree.contents? f = other.contents? g) : tree.source? f = other.source? g := by
  rw [FileTree.source?, FileTree.source?, FileTree.readText_eq, FileTree.readText_eq, h]

theorem FileTree.exists_contents?_of_source? {file : FilePath} {source : SourceFile}
    (h : tree.source? file = some source) : ∃ c, tree.contents? file = some c := by
  obtain ⟨text, htext, -⟩ := Option.bind_eq_some_iff.1 h
  rw [FileTree.readText_eq] at htext
  obtain ⟨c, hc, -⟩ := Option.bind_eq_some_iff.1 htext
  exact ⟨c, hc⟩

/-- A file that is no source file ends its scan in the same way at any depth. -/
theorem exists_fail_of_source? (h : tree.source? p.file = none) :
    ∃ err, (Trace.fail err).ending = .failed ∧ ∀ n, scanFile tree (n + 1) p = .fail err := by
  obtain ⟨err, herr⟩ := exists_refuses_of_source? h
  exact ⟨err, by cases herr <;> rfl, herr.scanFile_eq⟩

/-- The scan of a file succeeds if the file can be read and the scan of its items succeeds. -/
theorem scanFile_ok_iff : (scanFile tree n p).failure = none ↔ ∃ m source, n = m + 1 ∧
    tree.source? p.file = some source ∧
    (Item.scanAll (tree.follow (scanFile tree m)) p source.items).failure = none := by
  constructor
  · intro h
    obtain ⟨m, source, hn, hsource, hscan, -⟩ := exists_of_scanFile_ok h
    exact ⟨m, source, hn, hsource, hscan⟩
  · rintro ⟨m, source, rfl, hsource, hscan⟩
    rw [scanFile_of_source hsource]
    exact Trace.failure_andThen.2 ⟨rfl, hscan⟩

theorem FileTree.follow_of_find {next : Place → Trace} {attrs : List Attribute} {name : Ident}
    {file : FilePath} (h : (p.candidates attrs name).find? tree.isFile = some file) :
    tree.follow next p attrs name = next (p.inFile attrs name file) := by
  rw [FileTree.follow, h]

/-- Modules are followed to files only that are there. -/
theorem follow_congr (h : ∀ p, (tree.contents? p.file).isSome = true →
      (scanFile tree m p).ending ≠ .cut → scanFile tree n p = scanFile tree m p)
    (q : Place) (attrs : List Attribute) (name : Ident)
    (hcut : (tree.follow (scanFile tree m) q attrs name).ending ≠ .cut) :
    tree.follow (scanFile tree n) q attrs name = tree.follow (scanFile tree m) q attrs name := by
  rw [FileTree.follow] at hcut ⊢
  rw [FileTree.follow]
  split at hcut
  · rfl
  · rename_i file hfile
    have hthere := List.find?_some hfile
    rw [FileTree.isFile_eq] at hthere
    exact h _ hthere hcut

/-- A scan that ends by itself is the same at any greater depth. -/
theorem scanFile_of_le (hcut : (scanFile tree m p).ending ≠ .cut) (h : m ≤ n) :
    scanFile tree n p = scanFile tree m p := by
  induction m generalizing p n with
  | zero => exact absurd rfl hcut
  | succ m ih =>
    obtain ⟨n, rfl⟩ : ∃ i, n = i + 1 := ⟨n - 1, by omega⟩
    rcases hsource : tree.source? p.file with _ | source
    · obtain ⟨err, -, heq⟩ := exists_fail_of_source? hsource
      rw [heq, heq]
    · rw [scanFile_of_source hsource] at hcut ⊢
      have hfollow := follow_congr fun p _ hp => ih hp (Nat.le_of_succ_le_succ h)
      rw [scanFile_of_source hsource, scanAll_congr_of_inherited .uncut
        (fun q attrs name _ => hfollow q attrs name) (Trace.Inherited.uncut.right hcut rfl)]

/-! ### Places that are told apart -/

namespace Place

/-- The directory that the paths in attributes start at. -/
def pathDir (p : Place) : FilePath := if p.isInline then p.dir else p.file.directory

/-- Modules of both places are looked for in the same directories. -/
structure Alike (tree : FileTree) (p q : Place) : Prop where
  byName : tree.dirAt p.dir = tree.dirAt q.dir
  byPath : tree.dirAt p.pathDir = tree.dirAt q.pathDir

theorem pathDir_inFile {attrs : List Attribute} {name : Ident} (file : FilePath) :
    (p.inFile attrs name file).pathDir = file.directory := rfl

namespace Alike

variable {attrs : List Attribute} {name : Ident} {file : FilePath} (h : p.Alike tree q)

include h

theorem symm : q.Alike tree p := ⟨h.byName.symm, h.byPath.symm⟩

theorem inside (attrs : List Attribute) (name : Ident) :
    (p.inside attrs name).Alike tree (q.inside attrs name) :=
  ⟨FileTree.dirAt_child_congr h.byName _, FileTree.dirAt_child_congr h.byName _⟩

theorem inFile {other : FilePath} (hdir : tree.dirAt file.directory = tree.dirAt other.directory) :
    (p.inFile attrs name file).Alike tree (q.inFile attrs name other) := by
  refine ⟨?_, by rw [pathDir_inFile, pathDir_inFile, hdir]⟩
  rw [Place.inFile, Place.inFile]
  split
  · exact hdir
  · exact FileTree.dirAt_child_congr h.byName name.name

/-- The first files that are there hold the same, and their modules are looked for alike. -/
theorem exists_find (hfile : (p.candidates attrs name).find? tree.isFile = some file) :
    ∃ other, (q.candidates attrs name).find? tree.isFile = some other ∧
      tree.contents? file = tree.contents? other ∧
      (p.inFile attrs name file).Alike tree (q.inFile attrs name other) := by
  have hsome := List.find?_some hfile
  rw [FileTree.isFile_eq] at hsome
  cases hpath : pathOverride? attrs with
  | some path =>
    have hcandidates (p : Place) : p.candidates attrs name = [p.pathDir.child path] := by
      rw [candidates, hpath]
      rfl
    rw [hcandidates] at hfile ⊢
    obtain rfl := List.mem_singleton.1 (List.mem_of_find?_eq_some hfile)
    have hsame := FileTree.contents?_child_congr h.byPath path
    have hdir := FileTree.dirAt_directory_child_congr h.byPath hsome
    have hq : tree.isFile (q.pathDir.child path) = true := by
      rw [FileTree.isFile_eq, ← hsame]
      exact hsome
    exact ⟨_, List.find?_cons_of_pos hq, hsame, h.inFile hdir⟩
  | none =>
    have hown := FileTree.dirAt_child_congr h.byName name.name
    have hfirst := FileTree.contents?_child_congr h.byName (name.name ++ ".rs")
    have hmod := FileTree.contents?_child_congr hown "mod.rs"
    rw [candidates, hpath] at hfile ⊢
    rcases hp : tree.isFile (p.dir.child (name.name ++ ".rs")) with _ | _
    · have hq := hp
      rw [FileTree.isFile_eq, hfirst, ← FileTree.isFile_eq] at hq
      rw [List.find?_cons_of_neg (by simp [hp])] at hfile
      rw [List.find?_cons_of_neg (by simp [hq])]
      obtain rfl := List.mem_singleton.1 (List.mem_of_find?_eq_some hfile)
      have hdir := FileTree.dirAt_directory_child_congr hown hsome
      have hq : tree.isFile ((q.dir.child name.name).child "mod.rs") = true := by
        rw [FileTree.isFile_eq, ← hmod]
        exact hsome
      exact ⟨_, List.find?_cons_of_pos hq, hmod, h.inFile hdir⟩
    · rw [List.find?_cons_of_pos hp] at hfile
      obtain rfl := Option.some.inj hfile
      have hdir := FileTree.dirAt_directory_child_congr h.byName hsome
      have hq : tree.isFile (q.dir.child (name.name ++ ".rs")) = true := by
        rw [FileTree.isFile_eq, ← hfirst]
        exact hsome
      exact ⟨_, List.find?_cons_of_pos hq, hfirst, h.inFile hdir⟩

end Alike

end Place

section

variable {f g : Follow} {items : List Item} {attrs : List Attribute} {name : Ident}

/-- What an item is for does not depend on the place. -/
theorem DataItem.ending_scan (d : DataItem) (p q : Place) :
    (d.scan q).ending = (d.scan p).ending := by
  have hmarker : (d.scanMarker q).ending = (d.scanMarker p).ending := by
    rw [scanMarker, scanMarker]
    split
    · split <;> rfl
    · rfl
  have htag : (d.scanTag q).ending = (d.scanTag p).ending := by
    rw [scanTag, scanTag]
    split <;> rfl
  rw [scan, scan, Trace.ending_andThen, Trace.ending_andThen, hmarker, htag]

theorem ending_scanAll_of_forall
    (h : ∀ i ∈ items, (Item.scan g q i).ending = (Item.scan f p i).ending) :
    (Item.scanAll g q items).ending = (Item.scanAll f p items).ending := by
  induction items with
  | nil => rfl
  | cons i items ih =>
    obtain ⟨hitem, hmore⟩ := List.forall_mem_cons.1 h
    rw [Item.scanAll, Item.scanAll, Trace.ending_andThen, Trace.ending_andThen, hitem, ih hmore]

/-- Scans of items end alike at all places that are alike if they follow modules so. -/
theorem ending_scanAll_of_alike
    (hfg : ∀ p q attrs name, p.Alike tree q →
      (g q attrs name).ending = (f p attrs name).ending)
    (h : p.Alike tree q) : (Item.scanAll g q items).ending = (Item.scanAll f p items).ending := by
  suffices hitem : ∀ (i : Item) {p q}, p.Alike tree q →
      (Item.scan g q i).ending = (Item.scan f p i).ending from
    ending_scanAll_of_forall fun i _ => hitem i h
  intro i
  induction i using Item.induction with
  | data d =>
    intro p q _
    rw [Item.scan, Item.scan]
    split
    · rfl
    · exact d.ending_scan p q
  | inlineModule attrs name own ih =>
    intro p q h
    rw [Item.scan, Item.scan]
    split
    · rfl
    · exact ending_scanAll_of_forall fun j hj => ih j hj (h.inside attrs name)
  | fileModule attrs name =>
    intro p q h
    rw [Item.scan, Item.scan]
    split
    · rfl
    · exact hfg p q attrs name h
  | other =>
    intro p q _
    rw [Item.scan, Item.scan]

theorem ending_follow_of_alike {f g : Place → Trace}
    (hfg : ∀ {p q : Place}, tree.contents? p.file = tree.contents? q.file → p.Alike tree q →
      (g q).ending = (f p).ending)
    (h : p.Alike tree q) :
    (tree.follow g q attrs name).ending = (tree.follow f p attrs name).ending := by
  rcases hfind : (p.candidates attrs name).find? tree.isFile with _ | file
  · have hnone : (q.candidates attrs name).find? tree.isFile = none := by
      refine Option.eq_none_iff_forall_ne_some.2 fun other hother => ?_
      obtain ⟨file, hfile, -⟩ := h.symm.exists_find hother
      cases hfind.symm.trans hfile
    rw [FileTree.follow, FileTree.follow, hfind, hnone]
    rfl
  · obtain ⟨other, hother, hsame, halike⟩ := h.exists_find hfind
    rw [FileTree.follow_of_find hfind, FileTree.follow_of_find hother]
    exact hfg hsame halike

/-- Scans of a file end alike at all places that are alike and hold the same file. -/
theorem ending_scanFile_of_alike (hfile : tree.contents? p.file = tree.contents? q.file)
    (h : p.Alike tree q) : (scanFile tree n q).ending = (scanFile tree n p).ending := by
  induction n generalizing p q with
  | zero => rfl
  | succ n ih =>
    have hsame := FileTree.source?_congr hfile
    rcases hsource : tree.source? p.file with _ | source
    · obtain ⟨err, herr, heq⟩ := exists_fail_of_source? hsource
      obtain ⟨err', herr', heq'⟩ := exists_fail_of_source? (hsame.symm.trans hsource)
      rw [heq, heq', herr, herr']
    · rw [scanFile_of_source hsource, scanFile_of_source (hsame.symm.trans hsource),
        Trace.ending_andThen, Trace.ending_andThen]
      exact ending_scanAll_of_alike (fun p q attrs name h => ending_follow_of_alike ih h) h

end

/-! ### How many places are told apart -/

namespace FileTree

/-- What can be at the end of the ways to directories: nothing, the top, or an entry. -/
def directories (tree : FileTree) : Finset (Option Location) :=
  (none :: some [] :: tree.entries.map fun e => some e.1).toFinset

/-- What the files of the tree hold. -/
def fileContents (tree : FileTree) : Finset Contents :=
  (tree.entries.filterMap fun e => e.2.contents?).toFinset

def outlooks (tree : FileTree) : Finset (Option Location × Option Location × Contents) :=
  tree.directories ×ˢ tree.directories ×ˢ tree.fileContents

theorem card_outlooks_lt (tree : FileTree) : tree.outlooks.card < tree.depthLimit := by
  have hdirs : tree.directories.card ≤ tree.entries.length + 2 := by
    refine (List.toFinset_card_le _).trans ?_
    simp
  have hfiles : tree.fileContents.card ≤ tree.entries.length :=
    (List.toFinset_card_le _).trans (List.length_filterMap_le _ _)
  have hcard : tree.outlooks.card ≤
      (tree.entries.length + 2) * ((tree.entries.length + 2) * tree.entries.length) := by
    rw [outlooks, Finset.card_product, Finset.card_product]
    exact Nat.mul_le_mul hdirs (Nat.mul_le_mul hdirs hfiles)
  rw [depthLimit, mul_assoc]
  omega

theorem mem_entries_of_get? {l : Location} {e : Entry} (h : tree.get? l = some e) :
    l = [] ∨ (l, e) ∈ tree.entries := by
  by_cases hl : l = []
  · exact .inl hl
  · rw [get?_of_ne_nil hl, List.lookup_eq_some_iff] at h
    obtain ⟨before, after, heq, -⟩ := h
    exact .inr (by simp [heq])

theorem dirAt_mem (tree : FileTree) (p : FilePath) : tree.dirAt p ∈ tree.directories := by
  rw [directories, List.mem_toFinset]
  rcases h : tree.dirAt p with _ | l
  · exact List.mem_cons_self
  · rcases mem_entries_of_get? (enter_eq_some.1 h).2 with rfl | hmem
    · simp
    · refine List.mem_cons_of_mem _ (List.mem_cons_of_mem _ ?_)
      exact List.mem_map.2 ⟨_, hmem, rfl⟩

theorem mem_fileContents {p : FilePath} {c : Contents} (h : tree.contents? p = some c) :
    c ∈ tree.fileContents := by
  rw [contents?] at h
  split at h
  · obtain ⟨e, he, hc⟩ := Option.bind_eq_some_iff.1 h
    rw [fileContents, List.mem_toFinset, List.mem_filterMap]
    rcases mem_entries_of_get? he with rfl | hmem
    · obtain rfl := Option.some.inj he
      cases hc
    · exact ⟨_, hmem, hc⟩
  · cases h

end FileTree

namespace Place

/-- What the file of a place is told apart by. -/
def outlook (tree : FileTree) (p : Place) : Option (Option Location × Option Location × Contents) :=
  (tree.contents? p.file).map fun c => (tree.dirAt p.dir, tree.dirAt p.pathDir, c)

theorem mem_outlooks {o : Option Location × Option Location × Contents}
    (h : p.outlook tree = some o) : o ∈ tree.outlooks := by
  obtain ⟨c, hc, rfl⟩ := Option.map_eq_some_iff.1 h
  simp only [FileTree.outlooks, Finset.mem_product]
  exact ⟨tree.dirAt_mem _, tree.dirAt_mem _, FileTree.mem_fileContents hc⟩

end Place

theorem exists_outlook (h : (tree.contents? p.file).isSome = true) :
    ∃ o, p.outlook tree = some o := by
  obtain ⟨c, hc⟩ := Option.isSome_iff_exists.1 h
  exact ⟨_, by rw [Place.outlook, hc, Option.map_some]⟩

theorem ending_scanFile_of_outlook {o : Option Location × Option Location × Contents}
    (hp : p.outlook tree = some o) (hq : q.outlook tree = some o) :
    (scanFile tree n q).ending = (scanFile tree n p).ending := by
  obtain ⟨c, hc, hp⟩ := Option.map_eq_some_iff.1 hp
  obtain ⟨c', hc', hq⟩ := Option.map_eq_some_iff.1 hq
  obtain ⟨hdir, hpath, rfl⟩ := by simpa only [Prod.mk.injEq] using hp.trans hq.symm
  exact ending_scanFile_of_alike (hc.trans hc'.symm) ⟨hdir, hpath⟩

/-! ### The limit -/

namespace FileTree

open Classical in
/-- What the files are told apart by whose scans end by themselves, up to `n` files deep. -/
noncomputable def scanned (tree : FileTree) (n : Nat) :
    Finset (Option Location × Option Location × Contents) :=
  tree.outlooks.filter fun o => ∃ p, p.outlook tree = some o ∧ (scanFile tree n p).ending ≠ .cut

theorem mem_scanned {o : Option Location × Option Location × Contents} :
    o ∈ tree.scanned n ↔ ∃ p, p.outlook tree = some o ∧ (scanFile tree n p).ending ≠ .cut := by
  classical
  rw [scanned, Finset.mem_filter, and_iff_right_iff_imp]
  rintro ⟨p, hp, -⟩
  exact p.mem_outlooks hp

theorem scanned_mono (tree : FileTree) : Monotone tree.scanned := by
  intro m n h o ho
  obtain ⟨p, hp, hcut⟩ := mem_scanned.1 ho
  exact mem_scanned.2 ⟨p, hp, by rwa [scanFile_of_le hcut h]⟩

/-- If no more scans end by themselves at one depth than at another, no scan of a file does. -/
theorem uncut_of_scanned_subset (h : tree.scanned n ⊆ tree.scanned m)
    (hfile : (tree.contents? p.file).isSome = true) (hcut : (scanFile tree n p).ending ≠ .cut) :
    (scanFile tree m p).ending ≠ .cut := by
  obtain ⟨o, ho⟩ := exists_outlook hfile
  obtain ⟨q, hq, hcut⟩ := mem_scanned.1 (h (mem_scanned.2 ⟨p, ho, hcut⟩))
  rwa [ending_scanFile_of_outlook hq ho]

theorem scanned_stable (h : tree.scanned (n + 1) ⊆ tree.scanned n) :
    tree.scanned (n + 2) ⊆ tree.scanned (n + 1) := by
  intro o ho
  obtain ⟨p, hp, hcut⟩ := mem_scanned.1 ho
  refine mem_scanned.2 ⟨p, hp, ?_⟩
  rcases hsource : tree.source? p.file with _ | source
  · obtain ⟨err, -, heq⟩ := exists_fail_of_source? hsource
    rwa [heq, ← heq]
  · rw [scanFile_of_source hsource] at hcut ⊢
    have hfollow := follow_congr fun p hfile hp =>
      (scanFile_of_le (uncut_of_scanned_subset h hfile hp) n.le_succ).symm
    rwa [scanAll_congr_of_inherited .uncut (fun q attrs name _ => hfollow q attrs name)
      (Trace.Inherited.uncut.right hcut rfl)]

theorem scanned_subset_depthLimit (tree : FileTree) (n : Nat) :
    tree.scanned n ⊆ tree.scanned tree.depthLimit := by
  rcases Nat.le_total n tree.depthLimit with h | h
  · exact tree.scanned_mono h
  have hcard (n : Nat) : (tree.scanned n).card ≤ tree.outlooks.card :=
    Finset.card_le_card fun o ho => by
      obtain ⟨p, hp, -⟩ := mem_scanned.1 ho
      exact p.mem_outlooks hp
  have hmono : Monotone fun n => (tree.scanned n).card :=
    fun m n h => Finset.card_le_card (tree.scanned_mono h)
  have heq {n : Nat} (h : (tree.scanned n).card = (tree.scanned (n + 1)).card) :
      tree.scanned (n + 1) ⊆ tree.scanned n :=
    (Finset.eq_of_subset_of_card_le (tree.scanned_mono n.le_succ) h.ge).ge
  have hstable (n : Nat) (h : (tree.scanned n).card = (tree.scanned (n + 1)).card) :
      (tree.scanned (n + 1)).card = (tree.scanned (n + 2)).card :=
    (hmono (n + 1).le_succ).antisymm (Finset.card_le_card (scanned_stable (heq h)))
  -- the number of them grows at each depth until it stays, and there are no more than outlooks
  have hlimit := tree.card_outlooks_lt.le
  have hn := Nat.stabilises_of_monotone hmono hcard hstable (hlimit.trans h)
  have hd := Nat.stabilises_of_monotone hmono hcard hstable hlimit
  exact (Finset.eq_of_subset_of_card_le (tree.scanned_mono h) (hn.trans hd.symm).le).ge

end FileTree

/-- A scan that ends by itself at any depth is what it is up to the limit. -/
theorem scanFile_depthLimit (hcut : (scanFile tree n p).ending ≠ .cut) :
    scanFile tree tree.depthLimit p = scanFile tree n p := by
  rcases Nat.le_total n tree.depthLimit with h | h
  · exact scanFile_of_le hcut h
  refine (scanFile_of_le (n := n) ?_ h).symm
  rcases hsource : tree.source? p.file with _ | source
  · obtain ⟨err, herr, heq⟩ := exists_fail_of_source? hsource
    rw [FileTree.depthLimit, heq, herr]
    decide
  · obtain ⟨c, hc⟩ := FileTree.exists_contents?_of_source? hsource
    exact FileTree.uncut_of_scanned_subset (tree.scanned_subset_depthLimit n) (by rw [hc]; rfl) hcut

end SanitizeGen
