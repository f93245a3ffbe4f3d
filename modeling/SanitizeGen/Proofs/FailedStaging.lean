import SanitizeGen.Proofs.GenerateFailure
import SanitizeGen.Proofs.GenerateSuccess
import SanitizeGen.Proofs.ScanProgress

/-!
# What a run leaves that cannot stage its files

A plan fails only over what is read, so a run that cannot make a directory or write a file fails
while it stages (`Config.isEarly_of_plan`). It leaves new directories on the way to its files, and
no file that was not there before. One file can be gone: what an earlier run has left waiting for
the root file, if this run has put its own contents there before it fails
(`leavesUnstaged_of_error`).
-/

namespace SanitizeGen

open FileTree

/-! ### Plans that fail -/

theorem FileTree.Refuses.isEarly {tree : FileTree} {file : FilePath} {e : Error}
    (h : tree.Refuses file e) : e.isEarly = true := by
  cases h <;> rfl

theorem isEarly_of_scanCrate {tree : FileTree} {root : FilePath} {e : Error}
    (h : (scanCrate tree root).failure = some e) : e.isEarly = true := by
  by_cases he : ∀ last, e ≠ .endlessModules last
  · rcases (failure_scanFile_iff he).1 h with hrefuses | ⟨path, q, i, -, hfails⟩
    · exact hrefuses.isEarly
    · cases hfails with
      | marker | missing => rfl
      | refused _ hrefuses => exact hrefuses.isEarly
  · push Not at he
    obtain ⟨last, rfl⟩ := he
    rfl

namespace Config

variable {c : Config} {env : Environment} {tree : FileTree} {e : Error}

theorem isEarly_of_root (h : c.root env tree = .error e) : e.isEarly = true := by
  unfold root at h
  split at h
  · cases h
  · obtain rfl := Except.error.inj h
    rfl
  · simp only at h
    split at h
    · cases h
    · obtain rfl := Except.error.inj h
      rfl

theorem isEarly_of_target (h : c.target env = .error e) : e.isEarly = true := by
  unfold target at h
  split at h
  · cases h
  · cases h
  · obtain rfl := Except.error.inj h
    rfl

theorem isEarly_of_planFor {outDir : FilePath} {found : Findings}
    (h : c.planFor env tree outDir found = .error e) : e.isEarly = true := by
  rw [planFor_eq] at h
  rcases error_of_bind h with h | ⟨mode, -, h⟩
  · split at h
    · cases h
    · cases h
    · obtain rfl := Except.error.inj h
      rfl
  rcases error_of_bind h with h | ⟨ns, -, h⟩
  · split at h
    · obtain ⟨e', -, rfl⟩ := exists_of_mapError h
      rfl
    · cases h
    · obtain rfl := Except.error.inj h
      rfl
  rcases error_of_bind h with h | ⟨artifact, -, h⟩
  · obtain ⟨e', -, rfl⟩ := exists_of_mapError h
    rfl
  · cases h

/-- Planning fails over settings, over the sources, or over a file that cannot be read. -/
theorem isEarly_of_plan (h : (c.plan env tree).result = .error e) : e.isEarly = true := by
  unfold plan at h
  split at h
  · rename_i hroot
    obtain rfl := Except.error.inj h
    exact isEarly_of_root hroot
  · rename_i root hroot
    split at h
    · rename_i htarget
      obtain rfl := Except.error.inj h
      exact isEarly_of_target htarget
    · simp only at h
      split at h
      · rename_i e' hfound
        obtain rfl := Except.error.inj h
        rw [Trace.findings] at hfound
        split at hfound
        · rename_i hfailure
          obtain rfl := Except.error.inj hfound
          exact isEarly_of_scanCrate hfailure
        · cases hfound
      · exact isEarly_of_planFor h

end Config

/-! ### Runs that cannot stage -/

theorem FilePath.IsName.child_inj {n k : String} (hn : IsName n) (hk : IsName k) {p : FilePath} :
    p.child n = p.child k ↔ n = k := by
  constructor
  · intro h
    have hpieces := congrArg FilePath.pieces h
    rw [hn.pieces_child, hk.pieces_child, List.append_cancel_left_eq] at hpieces
    exact String.toList_inj.1 (List.singleton_inj.1 hpieces)
  · exact congrArg p.child

namespace Plan

/-- What waited at `l` for the root file is gone: a run that ends with `e` has put the contents of
its own root file there before it could not write the functions. -/
structure Discards (p : Plan) (e : Error) (after : FileTree) (l : Location) : Prop where
  functions : e = .file .write (p.dir.child (waitingName sanitizationsFile))
  beside : after.locate (p.dir.child (waitingName rootFile)) = .ok l
  /-- The root file is not what it shall be, so it was staged. -/
  root : after.readText (p.dir.child rootFile) ≠ some (Template.rootFile p.mode)

/-- What a run leaves that ends with `e` while it stages. -/
structure LeavesUnstaged (p : Plan) (e : Error) (before after : FileTree) : Prop where
  working : after.working = before.working
  /-- No file is made or changed. -/
  noNewFile : ∀ l c, after.get? l = some (.file c) → before.get? l = some (.file c)
  /-- No file is removed but one. -/
  file : ∀ l c, before.get? l = some (.file c) →
    (after.get? l = some (.file c) ∧ ¬p.Discards e after l) ∨
      (after.get? l = none ∧ p.Discards e after l)
  directory : ∀ l, before.get? l = some .directory → after.get? l = some .directory
  /-- What is new is a directory on the way to the files of the run. -/
  made : ∀ l, before.get? l = none → after.get? l = none ∨
    after.get? l = some .directory ∧ ∃ q ∈ ancestors p.dir.folder, after.locate q = .ok l

variable {p : Plan} {d : Location} {t made : FileTree} {e : Error}

theorem leavesUnstaged_of_madeOnly (h : MadeOnly t made (ancestors p.dir.folder))
    (he : e ≠ .file .write (p.dir.child (waitingName sanitizationsFile))) :
    p.LeavesUnstaged e t made where
  working := h.working
  noNewFile _ c := (h.get?_file c).1
  file l c hc := .inl ⟨(h.get?_file c).2 hc, fun hd => he hd.functions⟩
  directory := h.keepsDirs.directory
  made l hl := by
    rcases h.get? l with heq | ⟨-, hdir, hway⟩
    · exact .inl (heq.trans hl)
    · exact .inr ⟨hdir, hway⟩

theorem leavesUnstaged_of_unwait (h : MadeOnly t made (ancestors p.dir.folder))
    (hd : made.Opens p.dir d) (hr : ¬(p.rootSlot d made).Blocked made) :
    p.LeavesUnstaged (.file .write (p.dir.child (waitingName sanitizationsFile))) t
      ((p.rootSlot d made).unwait ((p.rootSlot d made).wait made)) := by
  obtain ⟨after, hafter⟩ : ∃ after,
      (p.rootSlot d made).unwait ((p.rootSlot d made).wait made) = after := ⟨_, rfl⟩
  have hk : KeepsDirs made after := hafter ▸ (Slot.keepsDirs_wait hr).trans
    (Slot.keepsDirs_unwait (Artifact.awaited_slot .root hd hr).not_blocked)
  have hopens := hd.keep hk
  -- writing the root file and taking it away again leaves a hole where something waited
  have hget (l : Location) : after.get? l =
      if (p.rootSlot d made).waits = true ∧ l = d ++ [waitingName rootFile] then none
      else made.get? l := by
    rw [← hafter, Slot.get?_unwait]
    split
    · rename_i hl
      exact (if_pos hl).symm
    · rename_i hl
      rw [Slot.get?_wait, if_neg hl]
      exact (if_neg hl).symm
  have hroot : after.readText (p.dir.child rootFile) = some (Template.rootFile p.mode) ↔
      (p.rootSlot d made).waits = false := by
    have hne : rootFile ≠ waitingName rootFile := IsGeneratedName.ne_waitingName _
    rw [hopens.readText_child IsGeneratedName.root.name, hget, if_neg (by simp [hne]),
      ← Bool.not_eq_true, waits_rootSlot, not_not]
  have hdiscards (l : Location) :
      p.Discards (.file .write (p.dir.child (waitingName sanitizationsFile))) after l ↔
        (p.rootSlot d made).waits = true ∧ l = d ++ [waitingName rootFile] := by
    have hloc := hopens.locate_child IsGeneratedName.root.waiting
    constructor
    · rintro ⟨-, hbeside, hread⟩
      rw [ne_eq, hroot, Bool.not_eq_false] at hread
      exact ⟨hread, (Except.ok.inj (hloc.symm.trans hbeside)).symm⟩
    · rintro ⟨hw, rfl⟩
      refine ⟨rfl, hloc, fun hread => ?_⟩
      cases hw.symm.trans (hroot.1 hread)
  rw [hafter]
  refine ⟨hk.working.trans h.working, fun l c hc => ?_, fun l c hc => ?_, fun l hl => ?_,
    fun l hl => ?_⟩
  · rw [hget] at hc
    split at hc
    · cases hc
    · exact (h.get?_file c).1 hc
  · rw [hdiscards, hget]
    by_cases hl : (p.rootSlot d made).waits = true ∧ l = d ++ [waitingName rootFile]
    · exact .inr ⟨if_pos hl, hl⟩
    · exact .inl ⟨(if_neg hl).trans ((h.get?_file c).2 hc), hl⟩
  · exact hk.directory l (h.keepsDirs.directory l hl)
  · rcases h.get? l with heq | ⟨-, hdir, q, hq, hloc⟩
    · refine .inl ?_
      rw [hget, heq, hl, ite_self]
    · exact .inr ⟨hk.directory l hdir, q, hq, hk.locate hloc⟩

/-- A run that cannot make a directory or write a file has not begun to move files into place. -/
theorem leavesUnstaged_of_install {action : FileAction} {path : FilePath} (hp : p.Sound)
    (h : (p.install t).2.result = .error (.file action path))
    (ha : action = .makeDirectory ∨ action = .write) :
    p.LeavesUnstaged (.file action path) t (p.install t).1 := by
  have hnames : waitingName rootFile ≠ waitingName sanitizationsFile := by decide
  have hroot : (.file .write (p.dir.child (waitingName rootFile)) : Error) ≠
      .file .write (p.dir.child (waitingName sanitizationsFile)) := by
    intro he
    injection he with _ hpath
    exact hnames ((IsGeneratedName.root.waiting.child_inj
      IsGeneratedName.sanitizations.waiting).1 hpath)
  have hmade := makeDirectories_madeOnly t p.dir.folder
  have hw := install_writes hp t
  rw [h] at hw
  generalize (p.install t).1 = t' at hw ⊢
  cases hw with
  | notMade hm =>
    rw [hm] at hmade
    exact leavesUnstaged_of_madeOnly hmade (by simp)
  | notOpen hm =>
    rw [hm] at hmade
    exact leavesUnstaged_of_madeOnly hmade hroot
  | opens hm hopens hin =>
    rw [hm] at hmade
    cases hin with
    | rootBlocked => exact leavesUnstaged_of_madeOnly hmade hroot
    | functionsBlocked hr => exact leavesUnstaged_of_unwait hmade hopens hr
    | rootTaken => simp at ha
    | functionsTaken => simp at ha

end Plan

/-- A run that cannot make a directory or write a file leaves directories on the way to its files
and no new or changed file. Nothing is removed but what waited for the root file, exactly if the run
has staged its own root file and cannot write the functions. -/
theorem leavesUnstaged_of_error {c : Config} {env : Environment} {tree : FileTree}
    {action : FileAction} {path : FilePath}
    (h : (generate env c tree).2.result = .error (.file action path))
    (ha : action = .makeDirectory ∨ action = .write) : ∃ p, (c.plan env tree).result = .ok p ∧
      p.LeavesUnstaged (.file action path) tree (generate env c tree).1 := by
  rcases hplan : (c.plan env tree).result with e | p
  · rw [(generate_of_no_plan hplan).2] at h
    obtain rfl := Except.error.inj h
    have hread : action = .read := by simpa [Error.isEarly] using Config.isEarly_of_plan hplan
    rw [hread] at ha
    simp at ha
  · obtain ⟨htree, hresult⟩ := generate_of_plan hplan
    obtain ⟨root, found, ts, -, -, -, -, hartifact, -⟩ := Config.exists_of_plan hplan
    rw [hresult] at h
    rw [htree]
    exact ⟨p, rfl, Plan.leavesUnstaged_of_install (Plan.sound_of_artifact hartifact) h ha⟩

/-- A crate with one tagged struct. A run has left a root file waiting, and a directory is where the
functions would wait. -/
def jammedCrate : FileTree :=
  ⟨[], [(["src"], .directory),
    (["src", "lib.rs"], .file (.text "#[derive(Sanitize)] struct Key(u8);")),
    (["out"], .directory), (["out", "root_sanitize_function.rs.tmp"], .file (.text "stale")),
    (["out", "sanitizations.rs.tmp"], .directory)]⟩

/-- A debug run over it cannot write the functions. The stale root file is gone, and nothing
else. -/
theorem leavesUnstaged_jammedCrate :
    (generate {} debugRun jammedCrate).2.result =
      .error (.file .write ⟨"out/sanitizations.rs.tmp"⟩) ∧
    (∃ p : Plan, p.LeavesUnstaged (.file .write ⟨"out/sanitizations.rs.tmp"⟩) jammedCrate
      (generate {} debugRun jammedCrate).1) ∧
    (generate {} debugRun jammedCrate).1.get? ["out", "root_sanitize_function.rs.tmp"] = none := by
  have h : (generate {} debugRun jammedCrate).2.result =
      .error (.file .write ⟨"out/sanitizations.rs.tmp"⟩) := by decide +kernel
  obtain ⟨p, -, hleaves⟩ := leavesUnstaged_of_error h (.inr rfl)
  exact ⟨h, ⟨p, hleaves⟩, by decide +kernel⟩

end SanitizeGen
