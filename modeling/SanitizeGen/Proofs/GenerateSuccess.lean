import SanitizeGen.Proofs.Installing
import SanitizeGen.Proofs.Planning

/-!
# What a successful run leaves

After a run that succeeds, the root file and the functions of all tagged structs are in place, and
no functions of an earlier run are left without tagged structs. Nothing waits any more that the run
has staged, and everything else is as before, but for directories on the way (`generate_delivers`).
-/

namespace SanitizeGen

open FileTree

/-- A place is as before, or it is a new directory on the way to the files of `dir`. -/
def KeptOrMade (before after : FileTree) (dir : FilePath) (l : Location) : Prop :=
  after.get? l = before.get? l ∨
    before.get? l = none ∧ after.get? l = some .directory ∧
      ∃ q ∈ ancestors dir.folder, after.locate q = .ok l

section

variable (before after : FileTree) (dir : FilePath) (d : Location) (f : String)

/-- The file `f` has the contents `c`. Nothing waits of them if the run had to stage them. -/
structure Written (c : String) : Prop where
  text : after.readText (dir.child f) = some c
  beside : if before.get? (d ++ [f]) = some (.file (.text c)) then
      KeptOrMade before after dir (d ++ [waitingName f])
    else after.get? (d ++ [waitingName f]) = none

/-- There is no file `f`, whatever was there before, and no other change. -/
structure NotWritten : Prop where
  noFile : after.isFile (dir.child f) = false
  place : (∀ c, before.get? (d ++ [f]) ≠ some (.file c)) → KeptOrMade before after dir (d ++ [f])
  beside : KeptOrMade before after dir (d ++ [waitingName f])

end

/-- What a run leaves that reports `r` of the targets `ts`. The files are in the directory `d`. -/
structure Delivers (runtime : String) (outDir : FilePath) (ts : List Target) (d : Location)
    (before after : FileTree) (r : Report) : Prop where
  working : after.working = before.working
  opens : after.Opens (r.ns.dirIn outDir) d
  rootPath : r.rootFile = (r.ns.dirIn outDir).child rootFile
  root : Written before after (r.ns.dirIn outDir) d rootFile (Template.rootFile r.mode)
  count : r.functions = ts.length
  path : r.sanitizations =
    if ts.isEmpty then none else some ((r.ns.dirIn outDir).child sanitizationsFile)
  written : ts ≠ [] → Written before after (r.ns.dirIn outDir) d sanitizationsFile
    (Template.sanitizations ts r.mode runtime)
  notWritten : ts = [] → NotWritten before after (r.ns.dirIn outDir) d sanitizationsFile
  kept : ∀ l, l ≠ d ++ [rootFile] → l ≠ d ++ [waitingName rootFile] →
    l ≠ d ++ [sanitizationsFile] → l ≠ d ++ [waitingName sanitizationsFile] →
    KeptOrMade before after (r.ns.dirIn outDir) l

namespace Plan

variable {p : Plan} {d : Location} {t made : FileTree}

/-- The tree that is left when both files are written. -/
def done (p : Plan) (d : Location) (made : FileTree) : FileTree :=
  p.sweep d ((p.functionsSlot d made).deliver (p.halfway d made))

section

variable (hp : p.Sound)

include hp

/-- Where no functions of an earlier run were, all is as both files have been delivered. -/
theorem get?_done {l : Location} (hl : l ≠ d ++ [sanitizationsFile]) :
    (p.done d made).get? l =
      if (p.rootSlot d made).waits = true ∧ l = d ++ [rootFile] then some (p.rootSlot d made).entry
      else if (p.rootSlot d made).waits = true ∧ l = d ++ [waitingName rootFile] then none
      else if (p.functionsSlot d made).waits = true ∧ l = d ++ [waitingName sanitizationsFile] then
        none
      else made.get? l := by
  rw [done, get?_sweep_of_ne hl, get?_delivered, place_functionsSlot hp, if_neg fun h => hl h.2,
    get?_unwait_halfway hp, beside_functionsSlot hp]
  rfl

theorem get?_done_root :
    (p.done d made).get? (d ++ [rootFile]) = some (.file (.text (Template.rootFile p.mode))) := by
  have hne : rootFile ≠ sanitizationsFile ∧ rootFile ≠ waitingName rootFile ∧
      rootFile ≠ waitingName sanitizationsFile := by decide
  rw [get?_done hp (by simp [hne])]
  by_cases hw : (p.rootSlot d made).waits = true
  · rw [if_pos ⟨hw, rfl⟩]
    rfl
  · have hhas := not_not.1 (waits_rootSlot.not.1 hw)
    simp [hw, hne, hhas]

theorem get?_delivered_place :
    ((p.functionsSlot d made).deliver (p.halfway d made)).get? (d ++ [sanitizationsFile]) =
      if (p.functionsSlot d made).waits = true then some (p.functionsSlot d made).entry
      else made.get? (d ++ [sanitizationsFile]) := by
  have hne : sanitizationsFile ≠ rootFile ∧ sanitizationsFile ≠ waitingName rootFile ∧
      sanitizationsFile ≠ waitingName sanitizationsFile := by decide
  rw [get?_delivered, place_functionsSlot hp, get?_unwait_halfway hp, beside_functionsSlot hp]
  by_cases hw : (p.functionsSlot d made).waits = true
  · simp [hw]
  · have hroot : (p.rootSlot d made).place = d ++ [rootFile] := rfl
    have hbeside : (p.rootSlot d made).beside = d ++ [waitingName rootFile] := rfl
    simp [hw, hroot, hbeside, hne]

theorem get?_done_functions {a : Artifact} (ha : p.artifact = some a) :
    (p.done d made).get? (d ++ [sanitizationsFile]) = some (.file (.text a.contents)) := by
  rw [done, sweep, if_pos (by simp [ha]), get?_delivered_place hp]
  by_cases hw : (p.functionsSlot d made).waits = true
  · rw [if_pos hw, entry_functionsSlot ha]
  · rw [if_neg hw, not_not.1 ((waits_functionsSlot hp ha).not.1 hw)]

theorem get?_done_of_none (ha : p.artifact = none) :
    (p.done d made).get? (d ++ [sanitizationsFile]) =
      match made.get? (d ++ [sanitizationsFile]) with
      | some (.file _) => none
      | e => e := by
  have hplace : ((p.functionsSlot d made).deliver (p.halfway d made)).get?
      (d ++ [sanitizationsFile]) = made.get? (d ++ [sanitizationsFile]) := by
    rw [get?_delivered_place hp, if_neg (by simp [waits_functionsSlot_of_none ha])]
  rw [done, ← hplace]
  exact get?_sweep_of_none ha

end

section

variable (hp : p.Sound) (hmade : MadeOnly t made (ancestors p.dir.folder)) (h : made.Opens p.dir d)
  (hk : KeepsDirs made (p.done d made))

include hmade hk

theorem keptOrMade_of_eq {l : Location} (hl : (p.done d made).get? l = made.get? l) :
    KeptOrMade t (p.done d made) p.dir l := by
  rcases hmade.get? l with he | ⟨hn, hd, q, hq, hloc⟩
  · exact .inl (hl.trans he)
  · exact .inr ⟨hn, hl.trans hd, q, hq, hk.locate hloc⟩

include hp

theorem keptOrMade_done {l : Location} (hr : l ≠ d ++ [rootFile])
    (hrb : l ≠ d ++ [waitingName rootFile]) (hs : l ≠ d ++ [sanitizationsFile])
    (hsb : l ≠ d ++ [waitingName sanitizationsFile]) : KeptOrMade t (p.done d made) p.dir l := by
  refine keptOrMade_of_eq hmade hk ?_
  rw [get?_done hp hs, if_neg fun h => hr h.2, if_neg fun h => hrb h.2, if_neg fun h => hsb h.2]

theorem beside_done : if (p.functionsSlot d made).waits = true then
      (p.done d made).get? (d ++ [waitingName sanitizationsFile]) = none
    else KeptOrMade t (p.done d made) p.dir (d ++ [waitingName sanitizationsFile]) := by
  have hne : waitingName sanitizationsFile ≠ sanitizationsFile ∧
      waitingName sanitizationsFile ≠ rootFile ∧
      waitingName sanitizationsFile ≠ waitingName rootFile := by decide
  have hg : (p.done d made).get? (d ++ [waitingName sanitizationsFile]) = _ :=
    get?_done hp (by simp [hne])
  split
  · rename_i hw
    rw [hg]
    simp [hne, hw]
  · rename_i hw
    refine keptOrMade_of_eq hmade hk ?_
    rw [hg]
    simp [hne, hw]

include h

theorem written_root :
    Written t (p.done d made) p.dir d rootFile (Template.rootFile p.mode) := by
  have hne : waitingName rootFile ≠ sanitizationsFile ∧ waitingName rootFile ≠ rootFile ∧
      waitingName rootFile ≠ waitingName sanitizationsFile := by decide
  have hg : (p.done d made).get? (d ++ [waitingName rootFile]) = _ :=
    get?_done hp (by simp [hne])
  have hw : (p.rootSlot d made).waits = true ↔ _ := waits_rootSlot
  rw [ne_eq, hmade.get?_file] at hw
  refine ⟨((h.keep hk).readText_child IsGeneratedName.root.name _).2 (get?_done_root hp), ?_⟩
  split
  · rename_i hhas
    have hw : (p.rootSlot d made).waits = false := Bool.eq_false_iff.2 fun h => hw.1 h hhas
    refine keptOrMade_of_eq hmade hk ?_
    rw [hg]
    simp [hne, hw]
  · rename_i hhas
    rw [hg]
    simp [hne, hw.2 hhas]

theorem written_functions {a : Artifact} (ha : p.artifact = some a) :
    Written t (p.done d made) p.dir d sanitizationsFile a.contents := by
  have hname := IsGeneratedName.sanitizations.name
  have hb := beside_done hp hmade hk
  have hw : (p.functionsSlot d made).waits = true ↔ _ := waits_functionsSlot hp ha
  rw [ne_eq, hmade.get?_file] at hw
  refine ⟨((h.keep hk).readText_child hname _).2 (get?_done_functions hp ha), ?_⟩
  split
  · rename_i hhas
    rwa [if_neg fun h => hw.1 h hhas] at hb
  · rename_i hhas
    rwa [if_pos (hw.2 hhas)] at hb

theorem notWritten_functions (ha : p.artifact = none) :
    NotWritten t (p.done d made) p.dir d sanitizationsFile := by
  have hname := IsGeneratedName.sanitizations.name
  have hg : (p.done d made).get? (d ++ [sanitizationsFile]) = _ := get?_done_of_none hp ha
  have hb := beside_done hp hmade hk
  rw [if_neg (by simp [waits_functionsSlot_of_none ha])] at hb
  refine ⟨Bool.eq_false_iff.2 fun hf => ?_, fun hn => ?_, hb⟩
  · obtain ⟨c, hc⟩ := ((h.keep hk).isFile_child hname).1 hf
    rw [hg] at hc
    split at hc
    · cases hc
    · rename_i hfile
      exact hfile c hc
  · refine keptOrMade_of_eq hmade hk (hg.trans ?_)
    split
    · rename_i c hc
      exact absurd ((hmade.get?_file c).1 hc) (hn c)
    · rfl

end

/-- The tree that is left agrees with the report. -/
theorem delivers_of_done {runtime : String} {ts : List Target}
    (ha : p.artifact = Pass.artifact? ⟨p.mode, p.ns, runtime⟩ ts) (hcount : p.count = ts.length)
    (hmade : MadeOnly t made (ancestors p.dir.folder)) (h : made.Opens p.dir d)
    (hk : KeepsDirs made (p.done d made)) :
    Delivers runtime p.outDir ts d t (p.done d made) p.report := by
  have hp := sound_of_artifact ha
  refine ⟨hk.working.trans hmade.working, h.keep hk, rfl, written_root hp hmade h hk, ?_, ?_,
    fun hts => ?_, fun hts => ?_, fun l => keptOrMade_done hp hmade hk⟩
  · rcases ts with _ | ⟨u, us⟩
    · simp [report, ha, Pass.artifact?]
    · simp [report, ha, Pass.artifact?, hcount]
  · rcases ts with _ | ⟨u, us⟩
    · simp [report, ha, Pass.artifact?]
    · simp [report, ha, Pass.artifact?, sanitizationsPath]
  · rw [Pass.artifact?, if_neg (by simpa using hts)] at ha
    exact written_functions hp hmade h hk ha
  · rw [Pass.artifact?, if_pos (by simpa using hts)] at ha
    exact notWritten_functions hp hmade h hk ha

/-- A run that succeeds has made the directory and ends with everything written. -/
theorem exists_made_of_install {r : Report} (hp : p.Sound) (h : (p.install t).2.result = .ok r) :
    ∃ made d, t.makeDirectories p.dir.folder = (made, true) ∧ made.Opens p.dir d ∧
      KeepsDirs made (p.done d made) ∧ (p.install t).1 = p.done d made ∧ r = p.report := by
  have hw := install_writes hp t
  rw [h] at hw
  generalize htree : (p.install t).1 = t' at hw ⊢
  cases hw with
  | opens hm hopens hin =>
    rename_i made d
    cases hin with
    | done hr hf ht htf =>
      exact ⟨made, d, hm, hopens, keepsDirs_done hp hopens hr hf ht htf, rfl, rfl⟩

theorem done_of_install {r : Report} (hp : p.Sound) (h : (p.install t).2.result = .ok r) :
    ∃ made d, MadeOnly t made (ancestors p.dir.folder) ∧ made.Opens p.dir d ∧
      KeepsDirs made (p.done d made) ∧ (p.install t).1 = p.done d made ∧ r = p.report := by
  obtain ⟨made, d, hm, hdone⟩ := exists_made_of_install hp h
  have hmade := makeDirectories_madeOnly t p.dir.folder
  rw [hm] at hmade
  exact ⟨made, d, hmade, hdone⟩

end Plan

/-- After a run that succeeds, both files hold what the report says, and nothing but these, what
waited of them and directories on the way has changed. -/
theorem generate_delivers {c : Config} {env : Environment} {tree : FileTree} {r : Report}
    (h : (generate env c tree).2.result = .ok r) : ∃ root outDir found ts d,
      c.root env tree = .ok root ∧ c.target env = .ok outDir ∧
      (scanCrate tree root).findings = .ok found ∧
      List.Forall₂ (fun x t => x.resolve = .ok t) found.tagged ts ∧
      Delivers (c.runtime.getD (runtimePath env tree)) outDir ts d tree (generate env c tree).1 r := by
  rcases hplan : (c.plan env tree).result with e | p
  · rw [(generate_of_no_plan hplan).2] at h
    cases h
  · obtain ⟨htree, hresult⟩ := generate_of_plan hplan
    obtain ⟨root, found, ts, hroot, hout, hfound, hts, ha, hcount⟩ := Config.exists_of_plan hplan
    rw [hresult] at h
    obtain ⟨made, d, hmade, hopens, hk, hdone, rfl⟩ :=
      Plan.done_of_install (Plan.sound_of_artifact ha) h
    refine ⟨root, p.outDir, found, ts, d, hroot, hout, hfound, hts, ?_⟩
    rw [htree, hdone]
    exact Plan.delivers_of_done ha (hcount.trans hts.length_eq) hmade hopens hk

/-- A crate with one tagged struct, where an earlier run has left other functions. -/
def staleCrate : FileTree :=
  ⟨[], [(["src"], .directory),
    (["src", "lib.rs"], .file (.text "#[derive(Sanitize)] struct Key(u8);")),
    (["out"], .directory), (["out", "sanitizations.rs"], .file (.text "stale"))]⟩

/-- A debug run over `src/lib.rs` into `out`. -/
def debugRun : Config where
  sourceRoot := some ⟨"src/lib.rs"⟩
  outDir := some ⟨"out"⟩
  mode := some .debug
  ns := some "crate"

/-- The stale functions give way to the one of the struct. -/
theorem generate_delivers_staleCrate : ∃ ts d, ts.length = 1 ∧
    Delivers "::mrclean" ⟨"out"⟩ ts d staleCrate (generate {} debugRun staleCrate).1
      ⟨.debug, .root, ⟨"out/root_sanitize_function.rs"⟩, some ⟨"out/sanitizations.rs"⟩, 1⟩ := by
  have h : (generate {} debugRun staleCrate).2.result = .ok
      ⟨.debug, .root, ⟨"out/root_sanitize_function.rs"⟩, some ⟨"out/sanitizations.rs"⟩, 1⟩ := by
    decide +kernel
  obtain ⟨root, outDir, found, ts, d, -, hout, -, -, hdel⟩ := generate_delivers h
  obtain rfl := Except.ok.inj hout
  exact ⟨ts, d, hdel.count.symm, hdel⟩

end SanitizeGen
