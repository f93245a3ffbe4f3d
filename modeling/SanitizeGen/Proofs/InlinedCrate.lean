import SanitizeGen.Proofs.CrateScan

/-!
# Inlined crates

Inlining a crate puts the items of each module file between braces where the module is declared
(`Inlined`). The scan of the inlined items yields what the scan of the crate does, in the same
order, except that it opens no files and takes all items to be in one (`Inlined.scanAll_eq`).
-/

namespace SanitizeGen

/-- The items `items` at `p` with those of module files put in their places are `inlined`. Modules
for tests alone are left as they are. -/
inductive Inlined (tree : FileTree) : Place → List Item → List Item → Prop where
  | nil {p} : Inlined tree p [] []
  | data {p d items inlined} : Inlined tree p items inlined →
      Inlined tree p (.data d :: items) (.data d :: inlined)
  | other {p items inlined} : Inlined tree p items inlined →
      Inlined tree p (.other :: items) (.other :: inlined)
  | block {p attrs name own ownInlined items inlined} : isTestOnly attrs = false →
      Inlined tree (p.inside attrs name) own ownInlined → Inlined tree p items inlined →
      Inlined tree p (.inlineModule attrs name own :: items)
        (.inlineModule attrs name ownInlined :: inlined)
  | file {p attrs name file source own items inlined} : isTestOnly attrs = false →
      tree.opener p attrs name = some (file, source) →
      Inlined tree (p.inFile attrs name file) source.items own → Inlined tree p items inlined →
      Inlined tree p (.fileModule attrs name :: items) (.inlineModule attrs name own :: inlined)
  | skippedBlock {p attrs name own items inlined} : isTestOnly attrs = true →
      Inlined tree p items inlined →
      Inlined tree p (.inlineModule attrs name own :: items)
        (.inlineModule attrs name own :: inlined)
  | skippedFile {p attrs name items inlined} : isTestOnly attrs = true →
      Inlined tree p items inlined →
      Inlined tree p (.fileModule attrs name :: items) (.fileModule attrs name :: inlined)

/-! ### What is found in one file -/

def Marker.inFile (file : FilePath) (m : Marker) : Marker := { m with file := file }

def Tagged.inFile (file : FilePath) (t : Tagged) : Tagged := { t with file := file }

/-- What is found, all of it in the file `file`. -/
def Findings.inFile (file : FilePath) (f : Findings) : Findings where
  markers := f.markers.map (Marker.inFile file)
  tagged := f.tagged.map (Tagged.inFile file)
  files := [file]

/-- The event in the file `file`. No other file is opened. -/
def Event.inFile (file : FilePath) : Event → Option Event
  | .opened _ _ => none
  | .testOnly ns _ => some (.testOnly ns file)
  | .elsewhere ns => some (.elsewhere ns)
  | .marker m => some (.marker (m.inFile file))
  | .tagged t => some (.tagged (t.inFile file))

def Trace.inFile (file : FilePath) (t : Trace) : Trace :=
  ⟨t.events.filterMap (Event.inFile file), t.failure⟩

theorem Findings.ofEvents_inFile (file : FilePath) (es : List Event) :
    { ofEvents (es.filterMap (Event.inFile file)) with files := [file] } =
      (ofEvents es).inFile file := by
  have hmarkers : (ofEvents (es.filterMap (Event.inFile file))).markers =
      (ofEvents es).markers.map (Marker.inFile file) := by
    simp only [ofEvents, List.filterMap_filterMap, List.map_filterMap]
    congr 1
    funext e
    cases e <;> rfl
  have htagged : (ofEvents (es.filterMap (Event.inFile file))).tagged =
      (ofEvents es).tagged.map (Tagged.inFile file) := by
    simp only [ofEvents, List.filterMap_filterMap, List.map_filterMap]
    congr 1
    funext e
    cases e <;> rfl
  rw [Findings.inFile, ← hmarkers, ← htagged]

theorem Findings.package_inFile (file : FilePath) (f : Findings) :
    (f.inFile file).package = f.package.map (Marker.inFile file) :=
  List.head?_map

theorem SourceScan.findings_inFile {t : Trace} {file : FilePath} (h : t.failure = none) :
    SourceScan.findings ⟨t.inFile file, file⟩ =
      .ok ((Findings.ofEvents t.events).inFile file) := by
  exact findings_eq_ok.2 ⟨h, Findings.ofEvents_inFile file t.events⟩

variable {tree : FileTree} {depth : Nat} {p q : Place} {f g : Follow} {i i' : Item}
  {items inlined : List Item}

theorem Trace.inFile_andThen (file : FilePath) (t : Trace) (u : Unit → Trace) :
    (t.andThen u).inFile file = (t.inFile file).andThen fun _ => (u ()).inFile file := by
  rcases ht : t.failure with _ | err
  · rw [andThen_of_ok ht, andThen_of_ok (t := t.inFile file) ht, Trace.inFile,
      List.filterMap_append]
    rfl
  · rw [andThen, andThen, ht, Trace.inFile, ht]

/-! ### The scan of inlined items -/

theorem DataItem.scan_inFile {d : DataItem} (hns : q.ns = p.ns) (hok : (d.scan p).failure = none) :
    d.scan q = (d.scan p).inFile q.file := by
  rw [scan, scan, Trace.inFile_andThen]
  obtain ⟨hmarker, -⟩ := Trace.failure_andThen.1 hok
  congr 1
  · rw [scanMarker, scanMarker] at *
    split
    · rename_i hd
      rw [if_pos hd] at hmarker
      split
      · rw [hns]
        rfl
      · rename_i h
        rw [h] at hmarker
        cases hmarker
    · rfl
  · funext
    rw [scanTag, scanTag, hns]
    split <;> rfl

theorem scanAll_cons_inFile (hok : (Item.scanAll f p (i :: items)).failure = none)
    (hitem : (Item.scan f p i).failure = none → Item.scan g q i' = (Item.scan f p i).inFile q.file)
    (hitems : (Item.scanAll f p items).failure = none →
      Item.scanAll g q inlined = (Item.scanAll f p items).inFile q.file) :
    Item.scanAll g q (i' :: inlined) = (Item.scanAll f p (i :: items)).inFile q.file := by
  rw [Item.scanAll] at hok ⊢
  obtain ⟨hi, hrest⟩ := Trace.failure_andThen.1 hok
  rw [Item.scanAll, Trace.inFile_andThen, hitem hi, hitems hrest]

/-- The scan of a crate goes through the same as that of its inlined items, whatever that does about
modules in other files. -/
theorem Inlined.scanAll_eq (h : Inlined tree p items inlined)
    (hok : (Item.scanAll (tree.follow (scanFile tree depth)) p items).failure = none)
    (hns : q.ns = p.ns) (g : Follow) : Item.scanAll g q inlined =
      (Item.scanAll (tree.follow (scanFile tree depth)) p items).inFile q.file := by
  induction h generalizing depth q with
  | nil => rfl
  | @data p d items inlined _ ih =>
    refine scanAll_cons_inFile hok (fun hd => ?_) fun hok => ih hok hns
    rw [Item.scan] at hd ⊢
    rw [Item.scan]
    split
    · rw [hns]
      rfl
    · rename_i hlive
      rw [if_neg hlive] at hd
      exact DataItem.scan_inFile hns hd
  | other _ ih => exact scanAll_cons_inFile hok (fun _ => rfl) fun hok => ih hok hns
  | @block p attrs name own ownInlined items inlined hlive _ _ ihOwn ih =>
    refine scanAll_cons_inFile hok (fun hown => ?_) fun hok => ih hok hns
    rw [Item.scan_inlineModule hlive] at hown
    rw [Item.scan_inlineModule hlive, Item.scan_inlineModule hlive]
    exact ihOwn hown (congrArg (·.child name) hns)
  | @file p attrs name file source own items inlined hlive ho _ _ ihOwn ih =>
    refine scanAll_cons_inFile hok (fun hfollow => ?_) fun hok => ih hok hns
    rw [Item.scan_fileModule hlive] at hfollow
    rw [Item.scan_fileModule hlive, Item.scan_inlineModule hlive]
    -- the block holds what the follow has scanned, and only the opened file is not told of
    obtain ⟨n, file', source', -, -, ho', hscan, hevents⟩ := FileTree.exists_of_follow_ok hfollow
    obtain ⟨rfl, rfl⟩ := Prod.mk.inj (Option.some.inj (ho.symm.trans ho'))
    rw [ihOwn hscan (q := q.inside attrs name) (congrArg (·.child name) hns), Trace.inFile,
      Trace.inFile, hevents, hscan, hfollow]
    rfl
  | skippedBlock htest _ ih =>
    refine scanAll_cons_inFile hok (fun _ => ?_) fun hok => ih hok hns
    rw [Item.scan, Item.scan, if_pos htest, if_pos htest, hns]
    rfl
  | skippedFile htest _ ih =>
    refine scanAll_cons_inFile hok (fun _ => ?_) fun hok => ih hok hns
    rw [Item.scan, Item.scan, if_pos htest, if_pos htest, hns]
    rfl

/-! ### The inlined items -/

/-- Items are inlined in one way at most. -/
theorem Inlined.unique {other : List Item} (h : Inlined tree p items inlined)
    (h' : Inlined tree p items other) : inlined = other := by
  induction h generalizing other with
  | nil =>
    cases h'
    rfl
  | data _ ih =>
    cases h' with
    | data h' => rw [ih h']
  | other _ ih =>
    cases h' with
    | other h' => rw [ih h']
  | block hlive _ _ ihOwn ih =>
    cases h' with
    | block _ hown h' => rw [ihOwn hown, ih h']
    | skippedBlock htest => cases hlive.symm.trans htest
  | file hlive ho _ _ ihOwn ih =>
    cases h' with
    | file _ ho' hown h' =>
      obtain ⟨rfl, rfl⟩ := Prod.mk.inj (Option.some.inj (ho.symm.trans ho'))
      rw [ihOwn hown, ih h']
    | skippedFile htest => cases hlive.symm.trans htest
  | skippedBlock htest _ ih =>
    cases h' with
    | block hlive => cases hlive.symm.trans htest
    | skippedBlock _ h' => rw [ih h']
  | skippedFile htest _ ih =>
    cases h' with
    | file hlive => cases hlive.symm.trans htest
    | skippedFile _ h' => rw [ih h']

/-- An item can be inlined in front of items that are. -/
def Inlines (tree : FileTree) (p : Place) (i : Item) : Prop :=
  ∃ i', ∀ {items inlined}, Inlined tree p items inlined →
    Inlined tree p (i :: items) (i' :: inlined)

theorem exists_inlined_of_inlines (h : (Item.scanAll f p items).failure = none)
    (hitem : ∀ i ∈ items, (Item.scan f p i).failure = none → Inlines tree p i) :
    ∃ inlined, Inlined tree p items inlined := by
  induction items with
  | nil => exact ⟨[], .nil⟩
  | cons i items ih =>
    rw [Item.scanAll] at h
    obtain ⟨hi, hrest⟩ := Trace.failure_andThen.1 h
    obtain ⟨inlined, hinlined⟩ := ih hrest fun j hj => hitem j (List.mem_cons_of_mem _ hj)
    obtain ⟨i', hi'⟩ := hitem i List.mem_cons_self hi
    exact ⟨_, hi' hinlined⟩

/-- Items whose scan succeeds can be inlined. -/
theorem exists_inlined_of_scanAll
    (h : (Item.scanAll (tree.follow (scanFile tree depth)) p items).failure = none) :
    ∃ inlined, Inlined tree p items inlined := by
  -- files are inlined by induction on the depth, and the items of one file on their structure
  induction depth using Nat.strongRecOn generalizing p items with
  | _ depth ihDepth =>
    refine exists_inlined_of_inlines h fun i hi => ?_
    clear h hi
    induction i using Item.induction generalizing p with
    | data d => exact fun _ => ⟨_, .data⟩
    | other => exact fun _ => ⟨_, .other⟩
    | inlineModule attrs name own ih =>
      intro h
      by_cases htest : isTestOnly attrs = true
      · exact ⟨_, .skippedBlock htest⟩
      · rw [Bool.not_eq_true] at htest
        rw [Item.scan_inlineModule htest] at h
        obtain ⟨ownInlined, hown⟩ := exists_inlined_of_inlines h fun i hi => ih i hi
        exact ⟨_, .block htest hown⟩
    | fileModule attrs name =>
      intro h
      by_cases htest : isTestOnly attrs = true
      · exact ⟨_, .skippedFile htest⟩
      · rw [Bool.not_eq_true] at htest
        rw [Item.scan_fileModule htest] at h
        obtain ⟨n, file, source, rfl, -, ho, hscan, -⟩ := FileTree.exists_of_follow_ok h
        obtain ⟨own, hown⟩ := ihDepth n (Nat.lt_succ_self n) hscan
        exact ⟨_, .file htest ho hown⟩

/-- A crate whose scan succeeds can be inlined in exactly one way, and the scan of the inlined items
as one text finds the same in the same order. So the same marker decides about mode and
namespace. -/
theorem findings_of_inlined {root : FilePath} {found : Findings}
    (h : (scanCrate tree root).findings = .ok found) : ∃ source inlined,
      tree.source? root = some source ∧
      (∀ other, Inlined tree (.ofRoot root) source.items other ↔ other = inlined) ∧
      (∀ file, (SourceScan.ofItems inlined .root file).findings = .ok (found.inFile file) ∧
        (found.inFile file).package = found.package.map (Marker.inFile file)) ∧
      ∀ text attrs file, SourceFile.ofText? text.toList = some ⟨attrs, inlined⟩ →
        (SourceScan.ofText text .root file).findings = .ok (found.inFile file) := by
  obtain ⟨hok, rfl⟩ := Trace.findings_eq_ok.1 h
  obtain ⟨n, source, -, hsource, hscan, hevents⟩ := exists_of_scanFile_ok hok
  obtain ⟨inlined, hinlined⟩ := exists_inlined_of_scanAll hscan
  have hitems (file : FilePath) : (SourceScan.ofItems inlined .root file).findings =
      .ok ((Findings.ofEvents (scanCrate tree root).events).inFile file) := by
    rw [SourceScan.ofItems, hinlined.scanAll_eq hscan (by rfl), SourceScan.findings_inFile hscan,
      scanCrate, hevents]
    rfl
  refine ⟨source, inlined, hsource, fun other => ⟨fun h => (hinlined.unique h).symm, ?_⟩,
    fun file => ⟨hitems file, Findings.package_inFile file _⟩, fun text attrs file htext => ?_⟩
  · rintro rfl
    exact hinlined
  · rw [SourceScan.ofText, htext]
    exact hitems file

/-- A crate with modules in files that are found in three ways, one of them inside a block, and with
one that is for tests alone and has no file. -/
def nestedCrate : FileTree :=
  ⟨[], [(["src"], .directory),
    (["src", "lib.rs"],
      .file (.text "mod a; mod b { mod c; } #[path = \"e.rs\"] mod x; #[cfg(test)] mod t;")),
    (["src", "e.rs"], .file (.text "#[derive(Sanitize)] struct E(u8);")),
    (["src", "a"], .directory),
    (["src", "a", "mod.rs"], .file (.text "#[derive(Sanitize)] struct A(u8); mod d;")),
    (["src", "a", "d.rs"],
      .file (.text "#[derive(PackageId)] #[package_id(debug = true)] struct D;")),
    (["src", "b"], .directory),
    (["src", "b", "c.rs"], .file (.text "#[derive(Sanitize)] struct C(u8);"))]⟩

/-- What is found in the files of `nestedCrate` is found in its inlined items. -/
theorem findings_inlined_nestedCrate : ∃ found source inlined,
    (scanCrate nestedCrate ⟨"src/lib.rs"⟩).findings = .ok found ∧
    found.tagged.map (·.file) = [⟨"src/a/mod.rs"⟩, ⟨"src/b/c.rs"⟩, ⟨"src/e.rs"⟩] ∧
    found.package.map (·.file) = some ⟨"src/a/d.rs"⟩ ∧
    nestedCrate.source? ⟨"src/lib.rs"⟩ = some source ∧
    Inlined nestedCrate (.ofRoot ⟨"src/lib.rs"⟩) source.items inlined ∧
    (SourceScan.ofItems inlined .root ⟨"src/lib.rs"⟩).findings =
      .ok (found.inFile ⟨"src/lib.rs"⟩) := by
  have h : ((scanCrate nestedCrate ⟨"src/lib.rs"⟩).findings.toOption.any fun found =>
      found.tagged.map (·.file) == [⟨"src/a/mod.rs"⟩, ⟨"src/b/c.rs"⟩, ⟨"src/e.rs"⟩] &&
      found.package.map (·.file) == some ⟨"src/a/d.rs"⟩) = true := by decide +kernel
  rcases hf : (scanCrate nestedCrate ⟨"src/lib.rs"⟩).findings with e | found
  · rw [hf] at h
    cases h
  · rw [hf] at h
    simp only [Except.toOption, Option.any_some, Bool.and_eq_true, beq_iff_eq] at h
    obtain ⟨source, inlined, hsource, hinlined, hitems, -⟩ := findings_of_inlined hf
    exact ⟨found, source, inlined, rfl, h.1, h.2, hsource, (hinlined inlined).2 rfl,
      (hitems ⟨"src/lib.rs"⟩).1⟩

end SanitizeGen
