import SanitizeGen.Proofs.PrintedFiles

/-!
# Items for tests alone

An item that only tests have is skipped before anything else is done about it: it is not read as a
marker, its module is not looked for, and no error comes from it. So two crates that differ in such
items alone (`TestsAdded`) have one scan, except that it tells of what it skips (`Trace.shown`), and
the scans find the same or fail alike (`findings_of_testsAdded`).
-/

namespace SanitizeGen

open FileTree

/-- The items `padded` are `items` with hidden ones put in anywhere, also inside modules. -/
inductive Padded : List Item → List Item → Prop where
  | nil : Padded [] []
  | keep {i items padded} : Padded items padded → Padded (i :: items) (i :: padded)
  | block {attrs name own ownPadded items padded} : Padded own ownPadded → Padded items padded →
      Padded (.inlineModule attrs name own :: items) (.inlineModule attrs name ownPadded :: padded)
  | insert {i items padded} : i.isHidden = true → Padded items padded → Padded items (i :: padded)

namespace Padded

theorem refl : (items : List Item) → Padded items items
  | [] => .nil
  | _ :: items => .keep (refl items)

theorem filter (items : List Item) : Padded (items.filter fun i => !i.isHidden) items := by
  induction items with
  | nil => exact .nil
  | cons i items ih =>
    cases h : i.isHidden
    · simpa [h] using ih.keep
    · simpa [h] using ih.insert h

end Padded

/-! ### What a trace shows -/

/-- Whether something is skipped for tests. -/
def Event.isSkip : Event → Bool
  | .testOnly _ _ => true
  | _ => false

/-- The trace without what is skipped. -/
def Trace.shown (t : Trace) : Trace := ⟨t.events.filter fun e => !e.isSkip, t.failure⟩

namespace Trace

variable {t t' : Trace} {u u' : Unit → Trace}

theorem shown_andThen (t : Trace) (u : Unit → Trace) :
    (t.andThen u).shown = t.shown.andThen fun _ => (u ()).shown := by
  rcases ht : t.failure with _ | err
  · rw [andThen_of_ok ht, andThen_of_ok (t := t.shown) ht, shown, List.filter_append]
    rfl
  · rw [andThen, andThen, ht, shown, ht]

theorem andThen_shown_congr (ht : t'.shown = t.shown) (hu : (u' ()).shown = (u ()).shown) :
    (t'.andThen u').shown = (t.andThen u).shown := by
  rw [shown_andThen, shown_andThen, ht, hu]

theorem andThen_of_shown_nil (ht : t.shown = nil) : (t.andThen u).shown = (u ()).shown := by
  rw [shown_andThen, ht]
  rfl

theorem findings_shown (t : Trace) : t.shown.findings = t.findings := by
  have hevents (es : List Event) :
      Findings.ofEvents (es.filter fun e => !e.isSkip) = Findings.ofEvents es := by
    simp only [Findings.ofEvents, List.filterMap_filter]
    congr <;> funext e <;> cases e <;> rfl
  rw [findings, findings, shown, hevents]

end Trace

/-! ### Scans of padded items -/

section

variable {f g : Follow} {p : Place} {i : Item} {items padded : List Item}

theorem shown_of_isHidden (h : i.isHidden = true) : (Item.scan f p i).shown = .nil := by
  rcases scan_of_isHidden (f := f) (p := p) h with heq | heq <;> rw [heq] <;> rfl

theorem scanAll_shown_of_forall
    (h : ∀ i ∈ items, (Item.scan g p i).shown = (Item.scan f p i).shown) :
    (Item.scanAll g p items).shown = (Item.scanAll f p items).shown := by
  induction items with
  | nil => rfl
  | cons i items ih =>
    obtain ⟨hi, hitems⟩ := List.forall_mem_cons.1 h
    rw [Item.scanAll, Item.scanAll]
    exact Trace.andThen_shown_congr hi (ih hitems)

variable (hfollow : ∀ p attrs name, (g p attrs name).shown = (f p attrs name).shown)

include hfollow

theorem scan_shown_congr (i : Item) : (Item.scan g p i).shown = (Item.scan f p i).shown := by
  induction i using Item.induction generalizing p with
  | data d => rw [Item.scan, Item.scan]
  | inlineModule attrs name own ih =>
    rw [Item.scan, Item.scan]
    split
    · rfl
    · exact scanAll_shown_of_forall fun j hj => ih j hj
  | fileModule attrs name =>
    rw [Item.scan, Item.scan]
    split
    · rfl
    · exact hfollow p attrs name
  | other => rw [Item.scan, Item.scan]

theorem Padded.scanAll_shown (h : Padded items padded) :
    (Item.scanAll g p padded).shown = (Item.scanAll f p items).shown := by
  induction h generalizing p with
  | nil => rfl
  | keep _ ih =>
    rw [Item.scanAll, Item.scanAll]
    exact Trace.andThen_shown_congr (scan_shown_congr hfollow _) ih
  | block _ _ ihOwn ih =>
    rw [Item.scanAll, Item.scanAll]
    refine Trace.andThen_shown_congr ?_ ih
    rw [Item.scan, Item.scan]
    split
    · rfl
    · exact ihOwn
  | insert hi _ ih => rw [Item.scanAll, Trace.andThen_of_shown_nil (shown_of_isHidden hi), ih]

end

/-! ### Crates with hidden items -/

/-- Some source files of `after` have the items of `before` with hidden ones put in. All else is the
same in both. -/
structure TestsAdded (before after : FileTree) : Prop where
  working : after.working = before.working
  length : after.entries.length = before.entries.length
  get? : ∀ l, after.get? l = before.get? l ∨ ∃ s s' source source',
    before.get? l = some (.file (.text s)) ∧ after.get? l = some (.file (.text s')) ∧
    SourceFile.ofText? s.toList = some source ∧ SourceFile.ofText? s'.toList = some source' ∧
    Padded source.items source'.items

namespace TestsAdded

variable {before after : FileTree} (h : TestsAdded before after)

include h

theorem editedApart : EditedApart before after [] where
  working := h.working
  get? l := by
    rcases h.get? l with heq | ⟨s, s', -, -, hs, hs', -⟩
    · exact .inl heq
    · exact .inr ⟨_, _, hs, hs', List.forall_mem_nil _⟩

theorem readText_cases (p : FilePath) :
    after.readText p = before.readText p ∨ ∃ s s' source source',
      before.readText p = some s ∧ after.readText p = some s' ∧
      SourceFile.ofText? s.toList = some source ∧ SourceFile.ofText? s'.toList = some source' ∧
      Padded source.items source'.items := by
  rw [readText, readText, entry?, entry?, h.editedApart.locate_eq]
  rcases before.locate p with e | l
  · exact .inl rfl
  · rcases h.get? l with heq | ⟨s, s', source, source', hs, hs', hrest⟩
    · simp only [heq, true_or]
    · simp only [hs, hs']
      exact .inr ⟨s, s', source, source', rfl, rfl, hrest⟩

theorem follow_shown {next next' : Place → Trace} (hnext : ∀ p, (next' p).shown = (next p).shown)
    (p : Place) (attrs : List Attribute) (name : Ident) :
    (after.follow next' p attrs name).shown = (before.follow next p attrs name).shown := by
  rw [follow, follow, funext h.editedApart.isFile_eq]
  split
  · rfl
  · exact hnext _

theorem scanFile_shown (n : Nat) (p : Place) :
    (scanFile after n p).shown = (scanFile before n p).shown := by
  induction n generalizing p with
  | zero => rfl
  | succ n ih =>
    have hitems {items padded : List Item} (hpadded : Padded items padded) :=
      hpadded.scanAll_shown (p := p) (h.follow_shown ih)
    rw [scanFile, scanFile]
    rcases h.readText_cases p.file with heq | ⟨s, s', source, source', hs, hs', hx, hx', hpadded⟩
    · rw [heq]
      split
      · rfl
      split
      · rfl
      · exact Trace.andThen_shown_congr rfl (hitems (.refl _))
    · rw [hs, hs']
      simp only [hx, hx']
      exact Trace.andThen_shown_congr rfl (hitems hpadded)

end TestsAdded

/-- Whatever stands in items for tests alone, be it a malformed marker or a module without a file,
and wherever they stand in the sources: with them, the scan of a crate finds what it finds without
them, or it fails in the same way. -/
theorem findings_of_testsAdded {before after : FileTree} (h : TestsAdded before after)
    (root : FilePath) : (scanCrate after root).findings = (scanCrate before root).findings := by
  have hdepth : after.depthLimit = before.depthLimit := by rw [depthLimit, depthLimit, h.length]
  rw [← Trace.findings_shown, ← Trace.findings_shown (scanCrate before root), scanCrate, scanCrate,
    hdepth, h.scanFile_shown]

theorem TestsAdded.set {tree : FileTree} {l : Location} {s s' : String} {source source' : SourceFile}
    (hl : tree.get? l = some (.file (.text s))) (hs : SourceFile.ofText? s.toList = some source)
    (hs' : SourceFile.ofText? s'.toList = some source') (h : Padded source.items source'.items) :
    TestsAdded tree (tree.set l (.file (.text s'))) := by
  have hne : l ≠ [] := by
    rintro rfl
    cases hl
  refine ⟨working_set, ?_, fun m => ?_⟩
  · have hmem := (mem_entries_of_get? hl).resolve_left hne
    rw [FileTree.set, if_pos (List.any_eq_true.2 ⟨_, hmem, beq_self_eq_true l⟩), List.length_map]
  · rw [get?_set hne]
    split
    · rename_i hm
      exact .inr ⟨s, s', source, source', hm ▸ hl, rfl, hs, hs', h⟩
    · exact .inl rfl

/-- Whether both are one module in another file, without attributes and of the same name. -/
def isSameModule : List Item → List Item → Bool
  | [.fileModule [] name], [.fileModule [] other] => name = other
  | _, _ => false

theorem eq_of_isSameModule {items other : List Item} (h : isSameModule items other = true) :
    items = other := by
  unfold isSameModule at h
  split at h
  · rw [of_decide_eq_true h]
  · cases h

/-- A crate with a module in another file, and what else its root holds. -/
def keysCrate (text : String) : FileTree :=
  ⟨[], [(["src"], .directory), (["src", "lib.rs"], .file (.text text)),
    (["src", "keys.rs"], .file (.text "#[derive(Sanitize)] struct Key(u8);"))]⟩

/-- The root with a module that has no file and a malformed marker, both for tests alone. -/
def keysWithTests : String :=
  "#[cfg(test)] mod fixtures; mod keys; " ++
    "#[cfg(all(test, unix))] #[derive(PackageId)] #[package_id(debug = 1)] struct Probe;"

theorem testsAdded_keysCrate : TestsAdded (keysCrate "mod keys;") (keysCrate keysWithTests) := by
  have h : ((SourceFile.ofText? "mod keys;".toList).any fun source =>
      (SourceFile.ofText? keysWithTests.toList).any fun source' =>
        isSameModule source.items (source'.items.filter fun i => !i.isHidden)) = true := by
    decide +kernel
  obtain ⟨source, hsource, h⟩ := (Option.any_eq_true _ _).1 h
  obtain ⟨source', hsource', h⟩ := (Option.any_eq_true _ _).1 h
  have hset : keysCrate keysWithTests =
      (keysCrate "mod keys;").set ["src", "lib.rs"] (.file (.text keysWithTests)) := by
    simp [keysCrate, FileTree.set]
  rw [hset]
  refine .set rfl hsource hsource' ?_
  rw [eq_of_isSameModule h]
  exact .filter _

/-- The tagged struct in the module is found with the tests and without them. -/
theorem findings_of_testsAdded_keysCrate : ∃ found,
    TestsAdded (keysCrate "mod keys;") (keysCrate keysWithTests) ∧
    found.tagged.map (·.path) = ["keys::Key"] ∧
    (scanCrate (keysCrate "mod keys;") ⟨"src/lib.rs"⟩).findings = .ok found ∧
    (scanCrate (keysCrate keysWithTests) ⟨"src/lib.rs"⟩).findings = .ok found := by
  have h : (scanCrate (keysCrate "mod keys;") ⟨"src/lib.rs"⟩).findings.map
      (fun found => found.tagged.map (·.path)) = .ok ["keys::Key"] := by decide +kernel
  have hsame := findings_of_testsAdded testsAdded_keysCrate ⟨"src/lib.rs"⟩
  rcases hf : (scanCrate (keysCrate "mod keys;") ⟨"src/lib.rs"⟩).findings with e | found
  · rw [hf] at h
    cases h
  · rw [hf] at h hsame
    exact ⟨found, testsAdded_keysCrate, Except.ok.inj h, rfl, hsame⟩

end SanitizeGen
