import SanitizeGen.Proofs.EditedMarkers

/-!
# Writing over an edited crate

One plan is installed in two trees that differ in contents of files alone. Where the first run
succeeds the second one makes the same directories and writes the same files, unless one of these
was itself edited, so that it has to be staged, and a directory is where its contents would wait
(`Plan.install_edited`). So markers behind the first one do not matter
(`generate_of_editedMarkers`).
-/

namespace SanitizeGen

open FileTree

/-! ### Directories of edited trees -/

namespace EditedApart

variable {before after : FileTree} (h : EditedApart before after [])

include h

theorem directory_iff (l : Location) :
    after.get? l = some .directory ↔ before.get? l = some .directory := by
  rcases h.get? l with heq | ⟨c, c', hbefore, hafter, -⟩
  · rw [heq]
  · simp [hbefore, hafter]

theorem isSome_eq (l : Location) : (after.get? l).isSome = (before.get? l).isSome := by
  rcases h.get? l with heq | ⟨c, c', hbefore, hafter, -⟩
  · rw [heq]
  · simp [hbefore, hafter]

theorem isDirectory_eq (p : FilePath) : after.isDirectory p = before.isDirectory p := by
  rw [Bool.eq_iff_iff, isDirectory_iff, isDirectory_iff, h.locate_eq]
  simp only [h.directory_iff]

theorem opens {dir : FilePath} {d : Location} (hd : before.Opens dir d) : after.Opens dir d :=
  ⟨by rw [start, h.working, h.walk_eq]; exact hd.walk, (h.directory_iff d).2 hd.directory⟩

theorem setDirectory {l : Location} (hl : l ≠ []) :
    EditedApart (before.set l .directory) (after.set l .directory) [] where
  working := by simp [h.working]
  get? m := by
    rw [get?_set hl, get?_set hl]
    split
    · exact .inl rfl
    · exact (h.get? m).imp_right fun ⟨c, c', hc, hc', _⟩ => ⟨c, c', hc, hc', nofun⟩

theorem makeDirectory (p : FilePath) :
    (∃ e, before.makeDirectory p = .error e ∧ after.makeDirectory p = .error e) ∨
    ∃ made made', before.makeDirectory p = .ok made ∧ after.makeDirectory p = .ok made' ∧
      EditedApart made made' [] := by
  rw [FileTree.makeDirectory, FileTree.makeDirectory, start, start, h.working, h.walk_eq]
  split
  · exact .inl ⟨_, rfl, rfl⟩
  split
  · exact .inl ⟨_, rfl, rfl⟩
  split
  · exact .inl ⟨_, rfl, rfl⟩
  · rename_i l _
    rw [h.isSome_eq]
    split
    · exact .inl ⟨_, rfl, rfl⟩
    · rename_i hnone
      have hl : l ≠ [] := by
        rintro rfl
        exact hnone rfl
      exact .inr ⟨_, _, rfl, rfl, h.setDirectory hl⟩

theorem makeFirst (ps : List FilePath) : (after.makeFirst ps).2 = (before.makeFirst ps).2 ∧
    EditedApart (before.makeFirst ps).1 (after.makeFirst ps).1 [] := by
  induction ps with
  | nil => exact ⟨rfl, h⟩
  | cons p up ih =>
    rw [FileTree.makeFirst, FileTree.makeFirst]
    split
    · exact ⟨rfl, h⟩
    rcases h.makeDirectory p with ⟨_ | _, he, he'⟩ | ⟨made, made', hm, hm', hmade⟩
    · -- the directory of `p` is made first
      rw [he, he']
      obtain ⟨hok, hup⟩ := ih
      rcases hb : before.makeFirst up with ⟨t, b⟩
      rcases ha : after.makeFirst up with ⟨t', b'⟩
      rw [hb, ha] at hok hup
      obtain rfl : b' = b := hok
      rcases b' with _ | _
      · exact ⟨rfl, hup⟩
      · have hup : EditedApart t t' [] := hup
        rcases hup.makeDirectory p with ⟨e, he, he'⟩ | ⟨made, made', hm, hm', hmade⟩
        · simp only [he, he']
          exact ⟨hup.isDirectory_eq p, hup⟩
        · simp only [hm, hm']
          exact ⟨trivial, hmade⟩
    · rw [he, he']
      exact ⟨h.isDirectory_eq p, h⟩
    · rw [hm, hm']
      exact ⟨rfl, hmade⟩

theorem exists_made {made : FileTree} {p : FilePath} (hm : before.makeDirectories p = (made, true)) :
    ∃ made', after.makeDirectories p = (made', true) ∧ EditedApart made made' [] := by
  obtain ⟨hok, hmade⟩ := h.makeFirst (ancestors p)
  rw [makeDirectories] at hm
  rw [hm] at hok hmade
  exact ⟨_, Prod.ext rfl hok, hmade⟩

end EditedApart

/-! ### One plan in both trees -/

def Report.files (r : Report) : List FilePath := r.rootFile :: r.sanitizations.toList

/-- Writing what `r` reports, which has left `result` over the tree `before`, cannot be done again
over the tree `after`: a file is edited, and a directory is where its contents would wait. -/
def Obstructed (before after result : FileTree) (r : Report) : Prop :=
  ∃ f ∈ r.files, ∃ l, result.locate f = .ok l ∧ after.get? l ≠ before.get? l ∧
    result.isDirectory (Artifact.stagingPath f) = true

namespace Plan

def artifacts (p : Plan) : List Artifact := .root p.ns p.mode :: p.artifact.toList

variable {p : Plan} {d : Location} {before after made made' : FileTree} {a : Artifact} {r : Report}

theorem files_report (hp : p.Sound) :
    p.report.files = p.artifacts.map fun a => p.dir.child a.fileName := by
  rcases ha : p.artifact with _ | a
  · simp [Report.files, report, artifacts, ha, Artifact.root]
  · simp [Report.files, report, artifacts, ha, Artifact.root, (hp a ha).2, sanitizationsPath, dir]

theorem Sound.isGeneratedName_of_mem (hp : p.Sound) (ha : a ∈ p.artifacts) :
    IsGeneratedName a.fileName := by
  rcases List.mem_cons.1 ha with rfl | ha
  · exact .root
  · exact hp.isGeneratedName (Option.mem_toList.1 ha)

theorem written_of_mem (hp : p.Sound) (hmade : MadeOnly before made (ancestors p.dir.folder))
    (hd : made.Opens p.dir d) (hk : KeepsDirs made (p.done d made)) (ha : a ∈ p.artifacts) :
    Written before (p.done d made) p.dir d a.fileName a.contents := by
  rcases List.mem_cons.1 ha with rfl | ha
  · exact written_root hp hmade hd hk
  · have hart : p.artifact = some a := Option.mem_toList.1 ha
    rw [(hp a hart).2]
    exact written_functions hp hmade hd hk hart

/-- Files are written, but no directories made, where the files belong. -/
theorem directory_of_done (hp : p.Sound) {l : Location}
    (hl : (p.done d made).get? l = some .directory) : made.get? l = some .directory := by
  by_cases hs : l = d ++ [sanitizationsFile]
  · subst hs
    rcases ha : p.artifact with _ | a
    · rw [get?_done_of_none hp ha] at hl
      split at hl
      · cases hl
      · exact hl
    · rw [get?_done_functions hp ha] at hl
      cases hl
  · rw [get?_done hp hs] at hl
    split at hl
    · cases hl
    split at hl
    · cases hl
    split at hl
    · cases hl
    · exact hl

/-- Functions that wait are those of one of the files. -/
theorem exists_slot_eq {t : FileTree} (hw : (p.functionsSlot d t).waits = true) :
    ∃ a ∈ p.artifacts, p.functionsSlot d t = a.slot p.dir d t := by
  rcases ha : p.artifact with _ | a
  · rw [waits_functionsSlot_of_none ha] at hw
    cases hw
  · exact ⟨a, by simp [artifacts, ha], functionsSlot_eq ha⟩

/-- Where no file is taken, writing succeeds unless one is blocked. -/
theorem WritesIn.ok_iff {t t' : FileTree} {o : Except Error Report} (h : p.WritesIn d t t' o)
    (htaken : ∀ a ∈ p.artifacts, ¬(a.slot p.dir d t).Taken t) :
    o = .ok p.report ↔ ∀ a ∈ p.artifacts, ¬(a.slot p.dir d t).Blocked t := by
  cases h with
  | rootBlocked hr => exact ⟨nofun, fun hfree => absurd hr (hfree _ List.mem_cons_self)⟩
  | functionsBlocked _ hf =>
    obtain ⟨a, ha, heq⟩ := exists_slot_eq hf.1
    exact ⟨nofun, fun hfree => absurd (heq ▸ hf) (hfree a ha)⟩
  | rootTaken _ _ ht => exact absurd ht (htaken _ List.mem_cons_self)
  | functionsTaken _ _ _ ht =>
    obtain ⟨a, ha, heq⟩ := exists_slot_eq ht.1
    exact absurd (heq ▸ ht) (htaken a ha)
  | done hr hf _ _ =>
    refine ⟨fun _ a ha => ?_, fun _ => rfl⟩
    rcases List.mem_cons.1 ha with rfl | ha
    · exact hr
    · rwa [functionsSlot_eq (Option.mem_toList.1 ha)] at hf

section

variable (hp : p.Sound) (hmade : MadeOnly before made (ancestors p.dir.folder))
  (hd : made.Opens p.dir d) (hk : KeepsDirs made (p.done d made))
  (hedited : EditedApart made made' [])

include hp hmade hd hk hedited

/-- Where the first run has written a file, the second one finds no directory. -/
theorem not_taken_edited (ha : a ∈ p.artifacts) : ¬(a.slot p.dir d made').Taken made' := by
  rintro ⟨-, htaken⟩
  have hdir := hk.directory _ ((hedited.directory_iff _).1 htaken)
  have htext := (written_of_mem hp hmade hd hk ha).text
  rw [(hd.keep hk).readText_child (hp.isGeneratedName_of_mem ha).name] at htext
  cases hdir.symm.trans htext

/-- A directory beside a file that the first run has written blocks the second one if the file was
edited: the first one has not had to stage it. -/
theorem blocked_edited_iff (hmade' : MadeOnly after made' (ancestors p.dir.folder))
    (ha : a ∈ p.artifacts) : (a.slot p.dir d made').Blocked made' ↔
      after.get? (d ++ [a.fileName]) ≠ before.get? (d ++ [a.fileName]) ∧
      (p.done d made).get? (d ++ [waitingName a.fileName]) = some .directory := by
  have hbeside : (p.done d made).get? (d ++ [waitingName a.fileName]) = some .directory ↔
      made'.get? (d ++ [waitingName a.fileName]) = some .directory :=
    ⟨fun h => (hedited.directory_iff _).2 (directory_of_done hp h),
      fun h => hk.directory _ ((hedited.directory_iff _).1 h)⟩
  have hhas (h : (p.done d made).get? (d ++ [waitingName a.fileName]) = some .directory) :
      before.get? (d ++ [a.fileName]) = some (.file (.text a.contents)) := by
    by_contra hother
    have hnone := (written_of_mem hp hmade hd hk ha).beside
    rw [if_neg hother, h] at hnone
    cases hnone
  have hwaits : (a.slot p.dir d made').waits = true ↔
      after.get? (d ++ [a.fileName]) ≠ some (.file (.text a.contents)) :=
    decide_eq_true_iff.trans (hmade'.get?_file _).not
  rw [Slot.Blocked, hwaits]
  constructor
  · rintro ⟨hother, hdir⟩
    have hdir := hbeside.2 hdir
    exact ⟨by rwa [hhas hdir], hdir⟩
  · rintro ⟨hother, hdir⟩
    exact ⟨by rwa [hhas hdir] at hother, hbeside.1 hdir⟩

theorem obstructed_iff (hmade' : MadeOnly after made' (ancestors p.dir.folder)) :
    Obstructed before after (p.done d made) p.report ↔
      ∃ a ∈ p.artifacts, (a.slot p.dir d made').Blocked made' := by
  rw [Obstructed, files_report hp]
  simp only [List.mem_map, exists_exists_and_eq_and]
  refine exists_congr fun a => and_congr_right fun ha => ?_
  have hname := hp.isGeneratedName_of_mem ha
  have hopens := hd.keep hk
  rw [blocked_edited_iff hp hmade hd hk hedited hmade' ha, hopens.locate_child hname.name,
    hname.stagingPath_child, hopens.isDirectory_child hname.waiting]
  simp only [Except.ok.injEq, exists_eq_left']

end

/-- Where a plan has been installed, it is installed in an edited tree as well, with the same files,
unless an edited one is obstructed. -/
theorem install_edited (hp : p.Sound) (hedited : EditedApart before after [])
    (h : (p.install before).2.result = .ok r) :
    ((p.install after).2.result = .ok r ↔ ¬Obstructed before after (p.install before).1 r) ∧
    ((p.install after).2.result = .ok r → ∀ f ∈ r.files,
      (p.install after).1.readText f = (p.install before).1.readText f) := by
  obtain ⟨made, d, hm, hd, hk, htree, rfl⟩ := exists_made_of_install hp h
  obtain ⟨made', hm', hmadeEdited⟩ := hedited.exists_made hm
  have hmade := makeDirectories_madeOnly before p.dir.folder
  have hmade' := makeDirectories_madeOnly after p.dir.folder
  rw [hm] at hmade
  rw [hm'] at hmade'
  rw [htree]
  constructor
  · rw [obstructed_iff hp hmade hd hk hmadeEdited hmade', not_exists]
    simp only [not_and]
    have hd' := hmadeEdited.opens hd
    have hwrites := install_writes hp after
    generalize (p.install after).1 = t', (p.install after).2.result = o at hwrites
    cases hwrites with
    | notMade hm'' => cases hm'.symm.trans hm''
    | notOpen hm'' hclosed =>
      cases hm'.symm.trans hm''
      exact absurd hd' (hclosed d)
    | opens hm'' hd'' hin =>
      cases hm'.symm.trans hm''
      obtain rfl := Except.ok.inj (hd'.walk.symm.trans hd''.walk)
      exact hin.ok_iff fun a => not_taken_edited hp hmade hd hk hmadeEdited
  · intro hok f hf
    obtain ⟨made'', d', hm'', hd', hk', htree', -⟩ := exists_made_of_install hp hok
    cases hm'.symm.trans hm''
    rw [files_report hp] at hf
    obtain ⟨a, ha, rfl⟩ := List.mem_map.1 hf
    rw [htree', (written_of_mem hp hmade hd hk ha).text, (written_of_mem hp hmade' hd' hk' ha).text]

end Plan

/-- A run over a crate with other markers behind the first one reports the same and writes the same
files, unless a file that it writes is edited and obstructed. With mode and namespace in the
settings the first marker may be another one too. If the manifest itself is edited, it still has to
tell the same about the runtime crate. -/
theorem generate_of_editedMarkers {c : Config} {env : Environment} {before after : FileTree}
    {root : FilePath} {r : Report} (h : (generate env c before).2.result = .ok r)
    (hroot : c.root env before = .ok root)
    (hcrate : CrateEdited before after c.needsNoMarker root)
    (hedited : EditedApart before after [])
    (hruntime : c.runtime.getD (runtimePath env after) = c.runtime.getD (runtimePath env before)) :
    ((generate env c after).2.result = .ok r ∧ ∀ f ∈ r.files,
      (generate env c after).1.readText f = (generate env c before).1.readText f) ↔
      ¬Obstructed before after (generate env c before).1 r := by
  rcases hplan : (c.plan env before).result with e | p
  · rw [(generate_of_no_plan hplan).2] at h
    cases h
  have hplan' := plan_of_editedMarkers hplan hroot hcrate hedited hruntime
  obtain ⟨htree, hresult⟩ := generate_of_plan hplan
  obtain ⟨htree', hresult'⟩ := generate_of_plan hplan'
  obtain ⟨_, _, _, -, -, -, -, ha, -⟩ := Config.exists_of_plan hplan
  rw [hresult] at h
  rw [htree, htree', hresult']
  obtain ⟨hiff, hfiles⟩ := Plan.install_edited (Plan.sound_of_artifact ha) hedited h
  exact ⟨fun hok => hiff.1 hok.1, fun hfree => ⟨hiff.2 hfree, hfiles (hiff.2 hfree)⟩⟩

/-! ### A module behind a marker -/

/-- Whether the item is found to be one that may be added. -/
def Item.isExtra : Item → Bool
  | .data d => !derives d.attrs "Sanitize" &&
      (!derives d.attrs "PackageId" || (packageFlag d.attrs).toBool)
  | .other => true
  | _ => false

theorem Item.isExtra_of_isExtra {i : Item} (h : i.isExtra = true) : i.IsExtra := by
  cases i with
  | data d =>
    rw [isExtra, Bool.and_eq_true, Bool.not_eq_true'] at h
    refine .data h.1 fun hmarker => ?_
    rw [hmarker] at h
    rcases hflag : packageFlag d.attrs with e | flag
    · simp [hflag, Except.toBool] at h
    · exact ⟨flag, rfl⟩
  | other => exact .other
  | inlineModule _ _ _ => cases h
  | fileModule _ _ => cases h

theorem MarkersEdited.of_isExtra {before after : FileTree} {p : Place} {items edited : List Item}
    (h : items.all Item.isExtra = true) (h' : edited.all Item.isExtra = true) :
    MarkersEdited before after true p items edited true := by
  rw [List.all_eq_true] at h h'
  induction items with
  | nil =>
    induction edited with
    | nil => exact .nil
    | cons i edited ih =>
      obtain ⟨hi, hedited⟩ := List.forall_mem_cons.1 h'
      exact .insert (Item.isExtra_of_isExtra hi) (ih hedited)
  | cons i items ih =>
    obtain ⟨hi, hitems⟩ := List.forall_mem_cons.1 h
    exact .remove (Item.isExtra_of_isExtra hi) (ih hitems)

/-- Whether a source file with this text holds nothing but items that may be added. -/
def holdsExtras (text : String) : Bool :=
  (SourceFile.ofText? text.toList).any (·.items.all Item.isExtra)

/-- Whether the root file declares a marker and behind it one module, which is in `file`. -/
def declaresModule (tree : FileTree) (root file : FilePath) : Bool :=
  (tree.source? root).any fun source =>
    match source.items with
    | [.data d, .fileModule attrs name] =>
      d.isMarker && !isTestOnly attrs &&
        ((Place.ofRoot root).candidates attrs name).find? tree.isFile == some file
    | _ => false

section

variable {before after : FileTree} {root file : FilePath} {old new : String}
  (hedited : EditedApart before after [root])

include hedited

theorem EditedApart.source?_eq : after.source? root = before.source? root := by
  rw [FileTree.source?, FileTree.source?, readText_eq, readText_eq,
    hedited.contents?_eq List.mem_cons_self]

theorem EditedApart.declaresModule_eq :
    declaresModule after root file = declaresModule before root file := by
  rw [declaresModule, declaresModule, hedited.source?_eq, funext hedited.isFile_eq]

/-- The module's file may hold other items. -/
theorem CrateEdited.of_declaresModule (h : declaresModule before root file = true)
    (hbefore : before.readText file = some old) (hold : holdsExtras old = true)
    (hafter : after.readText file = some new) (hnew : holdsExtras new = true) :
    CrateEdited before after false root := by
  obtain ⟨source, hsource, h⟩ := (Option.any_eq_true _ _).1 h
  obtain ⟨own, hown, hextras⟩ := (Option.any_eq_true _ _).1 hold
  obtain ⟨own', hown', hextras'⟩ := (Option.any_eq_true _ _).1 hnew
  refine ⟨source, source, true, hsource, hedited.source?_eq.trans hsource, ?_⟩
  split at h
  · rename_i d attrs name hitems
    simp only [Bool.and_eq_true, Bool.not_eq_true', beq_iff_eq] at h
    obtain ⟨⟨hmarker, hlive⟩, hfile⟩ := h
    have hopener : before.opener (.ofRoot root) attrs name = some (file, own) := by
      rw [FileTree.opener, hfile, Option.bind_some, FileTree.source?, hbefore, Option.bind_some,
        hown, Option.map_some]
    have hsource' : after.source? file = some own' := by
      rw [FileTree.source?, hafter, Option.bind_some, hown']
    rw [hitems]
    refine .data ?_
    rw [hmarker, Bool.or_true]
    exact .file hlive hopener hsource' (.of_isExtra hextras hextras') .nil
  · cases h

end

/-- A crate whose marker is a tagged struct, with a module in the file at `l`. -/
def markedCrate (module : String) (l : Location) (others : List (Location × Entry))
    (text : String) : FileTree :=
  ⟨[], [(["src"], .directory),
    (["src", "lib.rs"], .file (.text
      ("#[derive(PackageId, Sanitize)] #[package_id(debug = false)] struct Key(u8); " ++ module))),
    (l, .file (.text text))] ++ others⟩

theorem editedApart_markedCrate (module : String) {l : Location}
    (h : l ∉ [[], ["src"], ["src", "lib.rs"]]) (others : List (Location × Entry))
    (old new : String) : EditedApart (markedCrate module l others old)
      (markedCrate module l others new) [⟨"src/lib.rs"⟩] := by
  simp only [List.mem_cons, List.not_mem_nil, or_false, not_or] at h
  obtain ⟨hnil, hdir, hroot⟩ := h
  have hlocate : (markedCrate module l others old).locate ⟨"src/lib.rs"⟩ = .ok ["src", "lib.rs"] :=
    rfl
  have hget (text : String) (m : Location) : (markedCrate module l others text).get? m =
      if m = l then some (.file (.text text)) else (markedCrate module l others "").get? m := by
    by_cases hm : m = l
    · subst hm
      simp [FileTree.get?, markedCrate, List.lookup_cons, hnil, beq_eq_false_iff_ne.2 hdir,
        beq_eq_false_iff_ne.2 hroot]
    · simp [FileTree.get?, markedCrate, List.lookup_cons, beq_eq_false_iff_ne.2 hm, hm]
  refine ⟨rfl, fun m => ?_⟩
  rw [hget old, hget new]
  split
  · rename_i hm
    exact .inr ⟨_, _, rfl, rfl, by simpa [hlocate, hm] using Ne.symm hroot⟩
  · exact .inl rfl

theorem edited_markedCrate {module : String} {l : Location} {others : List (Location × Entry)}
    (file : FilePath) {old new : String} (hl : l ∉ [[], ["src"], ["src", "lib.rs"]])
    (h : declaresModule (markedCrate module l others "") ⟨"src/lib.rs"⟩ file = true)
    (hread : ∀ text, (markedCrate module l others text).readText file = some text)
    (hold : holdsExtras old = true) (hnew : holdsExtras new = true) :
    CrateEdited (markedCrate module l others old) (markedCrate module l others new) false
      ⟨"src/lib.rs"⟩ ∧
    EditedApart (markedCrate module l others old) (markedCrate module l others new) [] := by
  have hedited := editedApart_markedCrate module hl others
  rw [← (hedited "" old).declaresModule_eq] at h
  exact ⟨.of_declaresModule (hedited old new) h (hread old) hold (hread new) hnew,
    (hedited old new).mono (List.forall_mem_nil _)⟩

def markedRun (outDir : FilePath) : Config where
  sourceRoot := some ⟨"src/lib.rs"⟩
  outDir := some outDir

def markedReport (outDir : FilePath) : Report where
  mode := .release
  ns := .root
  rootFile := outDir.child rootFile
  sanitizations := some (outDir.child sanitizationsFile)
  functions := 1

def secondMarker : String := "#[derive(PackageId)] #[package_id(debug = false)]\nstruct Second;"

/-- The second marker with another flag, and a third one. -/
def otherMarkers : String :=
  "#[derive(PackageId)] #[package_id(debug = true)] struct Second; " ++
    "#[derive(PackageId)] #[package_id(debug = true)] struct Third;"

def extraCrate : String → FileTree := markedCrate "mod extra;" ["src", "extra.rs"] []

theorem edited_extraCrate {old new : String} (hold : holdsExtras old = true)
    (hnew : holdsExtras new = true) :
    CrateEdited (extraCrate old) (extraCrate new) false ⟨"src/lib.rs"⟩ ∧
    EditedApart (extraCrate old) (extraCrate new) [] :=
  edited_markedCrate ⟨"src/extra.rs"⟩ (by decide) (by decide +kernel) (fun _ => rfl) hold hnew

theorem generate_of_editedMarkers_extraCrate : ∃ before after outDir,
    before = extraCrate secondMarker ∧ after = extraCrate otherMarkers ∧
    (generate {} (markedRun outDir) before).2.result = .ok (markedReport outDir) ∧
    (generate {} (markedRun outDir) after).2.result = .ok (markedReport outDir) ∧
    ∀ f ∈ (markedReport outDir).files, (generate {} (markedRun outDir) after).1.readText f =
      (generate {} (markedRun outDir) before).1.readText f := by
  obtain ⟨hmarker, hmarkers⟩ : holdsExtras secondMarker = true ∧
      holdsExtras otherMarkers = true := by decide +kernel
  obtain ⟨hcrate, hedited⟩ := edited_extraCrate hmarker hmarkers
  obtain ⟨h, hfree⟩ : (generate {} (markedRun ⟨"out"⟩) (extraCrate secondMarker)).2.result =
        .ok (markedReport ⟨"out"⟩) ∧
      ∀ f ∈ (markedReport ⟨"out"⟩).files,
        (generate {} (markedRun ⟨"out"⟩) (extraCrate secondMarker)).1.isDirectory
          (Artifact.stagingPath f) ≠ true := by decide +kernel
  obtain ⟨hresult, hfiles⟩ := (generate_of_editedMarkers h rfl hcrate hedited rfl).2
    fun ⟨f, hf, _, _, _, hdir⟩ => hfree f hf hdir
  exact ⟨_, _, _, rfl, rfl, h, hresult, hfiles⟩

/-- A crate that has its own root file for a module, and a directory where that would be staged. -/
def rootModuleCrate : String → FileTree :=
  markedCrate "mod root_sanitize_function;" ["src", "root_sanitize_function.rs"]
    [(["src", "root_sanitize_function.rs.tmp"], .directory)]

theorem edited_rootModuleCrate {old new : String} (hold : holdsExtras old = true)
    (hnew : holdsExtras new = true) :
    CrateEdited (rootModuleCrate old) (rootModuleCrate new) false ⟨"src/lib.rs"⟩ ∧
    EditedApart (rootModuleCrate old) (rootModuleCrate new) [] :=
  edited_markedCrate ⟨"src/root_sanitize_function.rs"⟩ (by decide) (by decide +kernel)
    (fun _ => rfl) hold hnew

theorem holdsExtras_rootFile : holdsExtras (Template.rootFile .release) = true ∧
    holdsExtras (Template.rootFile .release ++ secondMarker) = true := by
  unfold holdsExtras Template.rootFile Template.rootHeader Template.notice Template.rootBound
    Template.rootBody Mode.name secondMarker
  simp only [String.toList_append]
  decide +kernel

theorem generate_rootModuleCrate :
    (generate {} (markedRun ⟨"src"⟩) (rootModuleCrate (Template.rootFile .release))).2.result =
      .ok (markedReport ⟨"src"⟩) ∧
    (generate {} (markedRun ⟨"src"⟩)
      (rootModuleCrate (Template.rootFile .release ++ secondMarker))).2.result =
        .error (.file .write ⟨"src/root_sanitize_function.rs.tmp"⟩) := by
  -- both crates have the plan of the one whose module is empty
  have hplan {p : Plan} {text : String} (htext : holdsExtras text = true)
      (h : ((markedRun ⟨"src"⟩).plan {} (rootModuleCrate "")).result = .ok p) :
      ((markedRun ⟨"src"⟩).plan {} (rootModuleCrate text)).result = .ok p :=
    let ⟨hcrate, hedited⟩ := edited_rootModuleCrate rfl htext
    plan_of_editedMarkers h rfl hcrate hedited rfl
  have h : ((markedRun ⟨"src"⟩).plan {} (rootModuleCrate "")).result.toOption.any fun p =>
      (p.install (rootModuleCrate (Template.rootFile .release))).2.result =
        .ok (markedReport ⟨"src"⟩) ∧
      (p.install (rootModuleCrate (Template.rootFile .release ++ secondMarker))).2.result =
        .error (.file .write ⟨"src/root_sanitize_function.rs.tmp"⟩) := by decide +kernel
  rcases hempty : ((markedRun ⟨"src"⟩).plan {} (rootModuleCrate "")).result with e | p
  · rw [hempty] at h
    cases h
  rw [hempty] at h
  obtain ⟨hinstall, hinstall'⟩ := of_decide_eq_true h
  rw [(generate_of_plan (hplan holdsExtras_rootFile.1 hempty)).2,
    (generate_of_plan (hplan holdsExtras_rootFile.2 hempty)).2]
  exact ⟨hinstall, hinstall'⟩

/-- A manifest that reads as a source file, too. -/
def sourceManifest : String :=
  "#![doc = \"\n[dependencies]\nhidden = \x7b package = 'mrclean', version = '1' \x7d\n#\"]\n"

def manifestModuleCrate : String → FileTree :=
  markedCrate "#[path = \"../Cargo.toml\"] mod manifest;" ["Cargo.toml"] []

theorem edited_manifestModuleCrate {old new : String} (hold : holdsExtras old = true)
    (hnew : holdsExtras new = true) :
    CrateEdited (manifestModuleCrate old) (manifestModuleCrate new) false ⟨"src/lib.rs"⟩ ∧
    EditedApart (manifestModuleCrate old) (manifestModuleCrate new) [] :=
  edited_markedCrate ⟨"src/../Cargo.toml"⟩ (by decide) (by decide +kernel) (fun _ => rfl) hold hnew

theorem generate_manifestModuleCrate :
    (generate manifestHere (markedRun ⟨"out"⟩) (manifestModuleCrate sourceManifest)).2.result =
      .ok (markedReport ⟨"out"⟩) ∧
    (generate manifestHere (markedRun ⟨"out"⟩)
        (manifestModuleCrate (sourceManifest ++ secondMarker))).1.readText
          ⟨"out/sanitizations.rs"⟩ ≠
      (generate manifestHere (markedRun ⟨"out"⟩)
        (manifestModuleCrate sourceManifest)).1.readText ⟨"out/sanitizations.rs"⟩ := by
  decide +kernel

/-- A marker that is added to the root file cannot be written over where a directory is in the way.
And one in the manifest hides what that says about the runtime crate. -/
theorem not_generate_of_editedMarkers :
    (∃ before after outDir e,
      CrateEdited before after (markedRun outDir).needsNoMarker ⟨"src/lib.rs"⟩ ∧
      EditedApart before after [] ∧ runtimePath {} after = runtimePath {} before ∧
      (generate {} (markedRun outDir) before).2.result = .ok (markedReport outDir) ∧
      (generate {} (markedRun outDir) after).2.result = .error e) ∧
    ∃ before after outDir,
      CrateEdited before after (markedRun outDir).needsNoMarker ⟨"src/lib.rs"⟩ ∧
      EditedApart before after [] ∧
      (generate manifestHere (markedRun outDir) before).2.result = .ok (markedReport outDir) ∧
      ∃ f ∈ (markedReport outDir).files,
        (generate manifestHere (markedRun outDir) after).1.readText f ≠
          (generate manifestHere (markedRun outDir) before).1.readText f := by
  obtain ⟨hroot, hedited⟩ := edited_rootModuleCrate holdsExtras_rootFile.1 holdsExtras_rootFile.2
  obtain ⟨hmanifest, hmanifest'⟩ : holdsExtras sourceManifest = true ∧
      holdsExtras (sourceManifest ++ secondMarker) = true := by decide +kernel
  obtain ⟨hroot', hedited'⟩ := edited_manifestModuleCrate hmanifest hmanifest'
  have hruntime (t t' : FileTree) : runtimePath {} t' = runtimePath {} t := rfl
  obtain ⟨h, herror⟩ := generate_rootModuleCrate
  obtain ⟨h', hother⟩ := generate_manifestModuleCrate
  exact ⟨⟨_, _, _, _, hroot, hedited, hruntime _ _, h, herror⟩,
    ⟨_, _, _, hroot', hedited', h', ⟨"out/sanitizations.rs"⟩, by decide, hother⟩⟩

end SanitizeGen
