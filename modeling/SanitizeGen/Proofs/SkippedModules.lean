import SanitizeGen.Proofs.ScanProgress

/-!
# Modules that are skipped

A module whose item has a condition that is false without tests is skipped with all it holds, on
every way to it. Nothing else is: what a scan finds is exactly what is in the modules that no
skipped module leads to (`foundIn_of_findings`). The attributes at the top of a file are not among
those of the module's item, and no file is skipped for them.
-/

namespace SanitizeGen

/-- What the scan has found, as events. -/
def Findings.Has (found : Findings) : Event → Prop
  | .marker m => m ∈ found.markers
  | .tagged t => t ∈ found.tagged
  | _ => False

/-- Whether no file on the way is for tests alone by the attributes at its top, the first one with
`attrs` included. -/
def KeptFiles (attrs : List Attribute) (path : List Step) : Prop :=
  isTestOnly attrs = false ∧ ∀ s ∈ path, isTestOnly s.fileAttrs = false

/-- What is found in a source is what stands in its modules that are not skipped. -/
structure FoundIn (o : Opener) (p : Place) (source : SourceFile) (found : Findings) : Prop where
  told : ∀ e, found.Has e ↔ Told o p source.items e
  /-- It all stands in modules that are not for tests alone, unless some of it stands in files only
  that are by the attributes at their top. -/
  kept_iff : (∀ e, found.Has e → ∃ path, Kept path ∧ KeptFiles source.attrs path ∧
      ToldAt o p source.items path e) ↔
    ∀ path e, Kept path → ¬KeptFiles source.attrs path → ToldAt o p source.items path e →
      ∃ path', Kept path' ∧ KeptFiles source.attrs path' ∧ ToldAt o p source.items path' e

/-- Steps into files that are not for tests alone lead to modules in such files. -/
theorem Leads.isTestOnly_source {tree : FileTree} {p q : Place} {items inner : List Item}
    {path : List Step} (h : Leads tree.opener p items path q inner)
    (hpath : ∀ s ∈ path, isTestOnly s.fileAttrs = false)
    (hp : ∀ source, tree.source? p.file = some source → isTestOnly source.attrs = false)
    (source : SourceFile) (hsource : tree.source? q.file = some source) :
    isTestOnly source.attrs = false := by
  induction h with
  | here => exact hp source hsource
  | block _ _ ih => exact ih (List.forall_mem_cons.1 hpath).2 hp hsource
  | file _ ho _ ih =>
    obtain ⟨hfile, hpath⟩ := List.forall_mem_cons.1 hpath
    refine ih hpath (fun source' hsource' => ?_) hsource
    obtain rfl := Option.some.inj (hsource'.symm.trans (FileTree.opener_eq_some.1 ho).2)
    exact hfile

/-- The first part of `FoundIn` implies the second. -/
theorem FoundIn.of_told {o : Opener} {p : Place} {source : SourceFile} {found : Findings}
    (h : ∀ e, found.Has e ↔ Told o p source.items e) : FoundIn o p source found where
  told := h
  kept_iff := by
    constructor
    · intro hall path e hkept _ htold
      exact hall e ((h e).2 ⟨path, hkept, htold⟩)
    · intro hfiles e he
      obtain ⟨path, hkept, htold⟩ := (h e).1 he
      by_cases hpath : KeptFiles source.attrs path
      · exact ⟨path, hkept, hpath, htold⟩
      · exact hfiles path e hkept hpath htold

theorem follows_noFiles : Follows noFiles (· = leaveFiles) := by
  rintro f p attrs name file source - ho
  cases ho

theorem told_of_mem_scanFile {tree : FileTree} {depth : Nat} {p : Place} {source : SourceFile}
    {e : Event} (hfind : e.isFinding = true) (hsource : tree.source? p.file = some source)
    (h : e ∈ (scanFile tree depth p).events) : Told tree.opener p source.items e := by
  have hskip (ns : Namespace) (file : FilePath) : e ≠ .testOnly ns file := by
    rintro rfl
    cases hfind
  rcases yields_scanFile (x := .inl e) h with
    ⟨-, heq⟩ | ⟨_, -, heq⟩ | ⟨m, source', -, hsource', heq | hscan⟩
  · cases heq
  · cases heq
  · cases heq
    cases hfind
  obtain rfl := Option.some.inj (hsource.symm.trans hsource')
  obtain ⟨path, q, i, k, hgets, -, hi⟩ :=
    yieldsInTurn_of_scanAll hscan fun ns file heq => hskip ns file (Sum.inl.inj heq)
  obtain ⟨inner, hleads, hkept, hmem, hlive⟩ := hgets.exists_leads
  cases hi with
  | data hd => exact ⟨path, hkept, q, inner, _, hleads, hmem, hlive, DataItem.shows_of_mem hd⟩
  | opens => cases hfind

theorem told_of_mem_scanAll {p : Place} {items : List Item} {e : Event}
    (hfind : e.isFinding = true) (h : e ∈ (Item.scanAll leaveFiles p items).events) :
    Told noFiles p items e := by
  refine told_of_yieldsWithin hfind ?_ (yieldsWithin_of_scanAll (x := .inl e) h)
  intro q attrs name h
  obtain rfl := List.mem_singleton.1 h
  cases hfind

theorem Findings.has_ofEvents {es : List Event} {e : Event} :
    (Findings.ofEvents es).Has e ↔ e.isFinding = true ∧ e ∈ es := by
  cases e with
  | marker m => exact mem_markers_ofEvents.trans (by simp [Event.isFinding])
  | tagged t => exact mem_tagged_ofEvents.trans (by simp [Event.isFinding])
  | _ => simp [Has, Event.isFinding]

theorem Findings.has_with_files {es : List Event} {files : List FilePath} {e : Event} :
    Has { ofEvents es with files := files } e ↔ e.isFinding = true ∧ e ∈ es := by
  rw [← has_ofEvents]
  cases e <;> rfl

/-- The scan of a crate, or of one text, finds what stands in the modules that are not skipped by
the attributes of a module on the way, be they in front of it or inside its braces. The attributes
at the top of its file make no difference. -/
theorem foundIn_of_findings (tree : FileTree) (root : FilePath) (text : String) (ns : Namespace)
    (file : FilePath) (found : Findings) :
    ((scanCrate tree root).findings = .ok found → ∃ source, tree.source? root = some source ∧
      FoundIn tree.opener (.ofRoot root) source found) ∧
    ((SourceScan.ofText text ns file).findings = .ok found → ∃ source,
      SourceFile.ofText? text.toList = some source ∧
      FoundIn noFiles ⟨ns, file.directory, file, false⟩ source found) := by
  constructor
  · intro h
    obtain ⟨hok, rfl⟩ := Trace.findings_eq_ok.1 h
    obtain ⟨n, source, -, hsource, hscan, hevents⟩ := exists_of_scanFile_ok hok
    refine ⟨source, hsource, .of_told fun e => Findings.has_ofEvents.trans ⟨?_, fun htold => ?_⟩⟩
    · rintro ⟨he, hmem⟩
      exact told_of_mem_scanFile he hsource hmem
    · obtain ⟨path, hkept, hat⟩ := htold
      refine ⟨hat.isFinding, ?_⟩
      rw [scanCrate, hevents]
      have hmem := Told.mem_events tree.follows_opener ⟨n, rfl⟩ hscan ⟨path, hkept, hat⟩
      exact List.mem_cons_of_mem _ hmem
  · intro h
    rw [SourceScan.ofText] at h
    split at h
    · cases h
    rename_i source hsource
    refine ⟨source, hsource, ?_⟩
    obtain ⟨hok, rfl⟩ := SourceScan.findings_eq_ok.1 h
    refine .of_told fun e => Findings.has_with_files.trans ⟨?_, fun htold => ?_⟩
    · rintro ⟨he, hmem⟩
      exact told_of_mem_scanAll he hmem
    · obtain ⟨path, hkept, hat⟩ := htold
      exact ⟨hat.isFinding, Told.mem_events follows_noFiles rfl hok ⟨path, hkept, hat⟩⟩

/-- A crate with a module that a condition at the top of its file keeps for tests. -/
def probeCrate : FileTree :=
  ⟨[], [(["src"], .directory), (["src", "lib.rs"], .file (.text "mod probe;")),
    (["src", "probe.rs"], .file (.text "#![cfg(test)] #[derive(Sanitize)] struct Key(u8);"))]⟩

/-- The struct in the module of `probeCrate` is found, though it is for tests alone. -/
theorem not_keptFiles_probeCrate : ∃ found source t,
    (scanCrate probeCrate ⟨"src/lib.rs"⟩).findings = .ok found ∧
    probeCrate.source? ⟨"src/lib.rs"⟩ = some source ∧ found.Has (.tagged t) ∧
    Told probeCrate.opener (.ofRoot ⟨"src/lib.rs"⟩) source.items (.tagged t) ∧
    ∀ path, ToldAt probeCrate.opener (.ofRoot ⟨"src/lib.rs"⟩) source.items path (.tagged t) →
      ¬KeptFiles source.attrs path := by
  have h : ((scanCrate probeCrate ⟨"src/lib.rs"⟩).findings.toOption.any fun found =>
      found.tagged.any fun t => (probeCrate.source? t.file).any fun source =>
        isTestOnly source.attrs) = true := by decide +kernel
  rcases hf : (scanCrate probeCrate ⟨"src/lib.rs"⟩).findings with e | found
  · rw [hf] at h
    cases h
  rw [hf] at h
  obtain ⟨t, ht, hfile⟩ := List.any_eq_true.1 h
  obtain ⟨own, hown, htest⟩ := (Option.any_eq_true _ _).1 hfile
  obtain ⟨source, hsource, hfound⟩ :=
    (foundIn_of_findings probeCrate ⟨"src/lib.rs"⟩ "" .root ⟨"src/lib.rs"⟩ found).1 hf
  refine ⟨found, source, t, rfl, hsource, ht, (hfound.told _).1 ht, ?_⟩
  rintro path ⟨q, inner, d, hleads, -, -, hshows⟩ ⟨hroot, hpath⟩
  cases hshows
  have hlive := hleads.isTestOnly_source hpath (fun s hs => ?_) own hown
  · cases hlive.symm.trans htest
  · obtain rfl := Option.some.inj (hsource.symm.trans hs)
    exact hroot

end SanitizeGen
