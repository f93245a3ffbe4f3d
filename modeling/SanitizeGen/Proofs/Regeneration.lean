import SanitizeGen.Proofs.GenerateSuccess
import SanitizeGen.Proofs.ScanAgreement

/-!
# Running again

A run that succeeds leaves its plan settled: to install the plan once more changes nothing
(`Plan.install_of_settled`). The next run has the same plan as long as the sources and the manifest
do not come to lie where the first one writes, so it reports the same and leaves the tree as it is
(`generate_again`).
-/

namespace SanitizeGen

open FileTree FilePath

/-- The names of the files that a run writes. -/
def writtenNames : List String :=
  [rootFile, waitingName rootFile, sanitizationsFile, waitingName sanitizationsFile]

/-- The places in the directory at `d` that a run writes to. -/
def places (d : Location) : List Location := writtenNames.map (d ++ [·])

/-- The paths of the generated files in `dir`, each with the one at which its contents wait. -/
def outputPaths (dir : FilePath) : List FilePath :=
  [rootFile, sanitizationsFile].flatMap fun name =>
    [dir.child name, Artifact.stagingPath (dir.child name)]

theorem exists_outputPath {t : FileTree} {dir : FilePath} {d l : Location} (h : t.Opens dir d)
    (hl : l ∈ places d) : ∃ o ∈ outputPaths dir, t.locate o = .ok l := by
  have hroot := IsGeneratedName.root
  have hfunctions := IsGeneratedName.sanitizations
  simp only [outputPaths, List.flatMap_cons, List.flatMap_nil, List.append_nil,
    hroot.stagingPath_child, hfunctions.stagingPath_child]
  simp only [places, writtenNames, List.map_cons, List.map_nil, List.mem_cons, List.not_mem_nil,
    or_false] at hl
  rcases hl with rfl | rfl | rfl | rfl
  · exact ⟨_, by simp, h.locate_child hroot.name⟩
  · exact ⟨_, by simp, h.locate_child hroot.waiting⟩
  · exact ⟨_, by simp, h.locate_child hfunctions.name⟩
  · exact ⟨_, by simp, h.locate_child hfunctions.waiting⟩

/-! ### Plans that are settled -/

namespace Plan

/-- Both files are in place, so that nothing has to wait for either, and nothing is left of an
earlier run. -/
structure Settled (p : Plan) (t : FileTree) : Prop where
  staged : p.stageAll t = (t, .ok (⟨none, p.dir.child rootFile⟩,
    p.artifact.map fun _ => ⟨none, p.sanitizationsPath⟩))
  noStale : p.artifact = none → t.isFile p.sanitizationsPath = false

variable {p : Plan} {t made : FileTree} {d : Location}

theorem finish_of_settled (h : p.Settled t) :
    (p.finish (p.artifact.map fun _ => ⟨none, p.sanitizationsPath⟩) t).1 = t ∧
    (p.finish (p.artifact.map fun _ => ⟨none, p.sanitizationsPath⟩) t).2.result =
      .ok (p.artifact.map fun _ => p.sanitizationsPath) := by
  rcases ha : p.artifact with _ | a
  · have hstale : p.removeStale t = (t, ⟨[], [], .ok ()⟩) := by
      rw [removeStale, if_neg (by simp [h.noStale ha])]
    simp [finish, hstale]
  · exact ⟨rfl, rfl⟩

/-- What is settled is installed without a change. -/
theorem install_of_settled (h : p.Settled t) :
    (p.install t).1 = t ∧ (p.install t).2.result = .ok p.report := by
  obtain ⟨htree, hresult⟩ := install_of_commit h.staged rfl
  obtain ⟨hsame, hpath⟩ := finish_of_settled h
  rw [htree, hresult, hsame, hpath, Except.map, report]
  simp

section

variable (hp : p.Sound) (hm : t.makeDirectories p.dir.folder = (made, true))
  (h : made.Opens p.dir d) (hk : KeepsDirs made (p.done d made))

include hp

theorem waits_rootSlot_done : (p.rootSlot d (p.done d made)).waits = false :=
  Bool.eq_false_iff.2 fun hw => waits_rootSlot.1 hw (get?_done_root hp)

theorem waits_functionsSlot_done : (p.functionsSlot d (p.done d made)).waits = false := by
  rcases ha : p.artifact with _ | a
  · exact waits_functionsSlot_of_none ha
  · exact Bool.eq_false_iff.2 fun hw =>
      (waits_functionsSlot hp ha).1 hw (get?_done_functions hp ha)

include hm h hk

/-- Once all is written, the plan is settled. -/
theorem settled_done : p.Settled (p.done d made) := by
  have hroot : (p.rootSlot d (p.done d made)).waits = false := waits_rootSlot_done hp
  have hfunctions : (p.functionsSlot d (p.done d made)).waits = false :=
    waits_functionsSlot_done hp
  have hagain := makeDirectories_again hm hk
  have hmade := makeDirectories_madeOnly t p.dir.folder
  rw [hm] at hmade
  refine ⟨?_, fun ha => (notWritten_functions hp hmade h hk ha).noFile⟩
  rw [(stageAll_of_opens hp hagain (h.keep hk)).2.2 (fun hb => by simp [hb.1] at hroot)
    (fun hb => by simp [hb.1] at hfunctions)]
  have hstaged : p.staged d (p.done d made) = p.done d made := by
    simp only [staged, Slot.wait, hroot, hfunctions, Bool.false_eq_true, if_false]
  have hrootStaged : (p.rootSlot d (p.done d made)).staged = ⟨none, p.dir.child rootFile⟩ := by
    rw [Slot.staged, hroot]
    rfl
  have hfunctionsStaged : (p.functionsSlot d (p.done d made)).staged =
      ⟨none, p.sanitizationsPath⟩ := by
    rw [Slot.staged, hfunctions, dir_functionsSlot, name_functionsSlot hp]
    rfl
  rw [hstaged, hrootStaged, hfunctionsStaged]

end

/-- What is elsewhere holds what it did. -/
theorem contents_done (hp : p.Sound) (hm : t.makeDirectories p.dir.folder = (made, true))
    (hk : KeepsDirs made (p.done d made)) {l : Location} (hl : l ∉ places d) :
    ((p.done d made).get? l).bind Entry.contents? = (t.get? l).bind Entry.contents? := by
  have hmade := makeDirectories_madeOnly t p.dir.folder
  rw [hm] at hmade
  simp only [places, writtenNames, List.map_cons, List.map_nil, List.mem_cons,
    List.not_mem_nil, or_false, not_or] at hl
  obtain ⟨hr, hrb, hs, hsb⟩ := hl
  rcases keptOrMade_done hp hmade hk hr hrb hs hsb with heq | ⟨hnone, hdir, -⟩
  · rw [heq]
  · rw [hnone, hdir]
    rfl

end Plan

/-! ### Files that are read -/

/-- A candidate in vain is in front of a file in the module's own directory. -/
theorem Place.eq_child_of_missed {tree : FileTree} {p : Place} {attrs : List Attribute}
    {name : Ident} {file q : FilePath} {missed rest : List FilePath}
    (heq : p.candidates attrs name = missed ++ q :: rest)
    (hmissed : ∀ f ∈ missed, tree.isFile f = false) (hq : ¬tree.isFile q = true)
    (hfind : (p.candidates attrs name).find? tree.isFile = some file) :
    q = p.dir.child (name.name ++ ".rs") ∧ file = (p.dir.child name.name).child "mod.rs" := by
  have hfile := List.find?_some hfind
  have hmem := List.mem_of_find?_eq_some hfind
  have hne : q ≠ file := by
    rintro rfl
    exact hq hfile
  have hnot : file ∉ missed := fun h => by simp [hmissed file h] at hfile
  rw [candidates] at heq hmem
  cases hpath : pathOverride? attrs with
  | some path =>
    rw [hpath] at heq hmem
    obtain rfl := List.mem_singleton.1 hmem
    rcases missed with _ | ⟨f, missed⟩
    · exact absurd (List.cons.inj heq).1.symm hne
    · simp at heq
  | none =>
    rw [hpath] at heq hmem
    rcases missed with _ | ⟨f, _ | ⟨g, missed⟩⟩
    · obtain ⟨rfl, -⟩ := List.cons.inj heq
      rcases List.mem_cons.1 hmem with rfl | hmem
      · exact absurd rfl hne
      · exact ⟨rfl, List.mem_singleton.1 hmem⟩
    · obtain ⟨rfl, hrest⟩ := List.cons.inj heq
      obtain ⟨rfl, -⟩ := List.cons.inj hrest
      rcases List.mem_cons.1 hmem with rfl | hmem
      · exact absurd List.mem_cons_self hnot
      · exact absurd (List.mem_singleton.1 hmem).symm hne
    · simp at heq

/-- One tree has what another one has, but for new directories and the places in the directory at
`d` that a run writes to. -/
structure Rewritten (before after : FileTree) (d : Location) : Prop where
  keeps : KeepsDirs before after
  contents : ∀ l, l ∉ places d →
    (after.get? l).bind Entry.contents? = (before.get? l).bind Entry.contents?

namespace Rewritten

variable {before after : FileTree} {d m : Location} {p q root : FilePath} {name : String}
  (h : Rewritten before after d)

include h

theorem contents?_eq (hloc : after.locate q = before.locate q)
    (hout : ∀ l, after.locate q = .ok l → l ∉ places d) :
    after.contents? q = before.contents? q := by
  rw [FileTree.contents?, FileTree.contents?, ← hloc]
  rcases hl : after.locate q with e | l
  · rfl
  · exact h.contents l (hout l hl)

/-- A path to a file that was there leads to it, unless the run writes there. -/
theorem contents?_of_isFile (hfile : before.isFile q = true)
    (hout : ∀ l, after.locate q = .ok l → l ∉ places d) :
    after.contents? q = before.contents? q := by
  refine h.contents?_eq ?_ hout
  rcases hl : before.locate q with e | l
  · rw [isFile, entry?, hl] at hfile
    cases hfile
  · exact h.keeps.locate hl

/-- A name that no file has which is written leads where it did. -/
theorem contents?_child (hd : before.dirAt p = some m) (hn : FilePath.IsName name)
    (hother : name ∉ writtenNames) :
    after.contents? (p.child name) = before.contents? (p.child name) := by
  have hloc := h.keeps.locate_child hn.isComponent hd
  refine h.contents?_eq hloc fun l hl hmem => ?_
  rw [hloc, locate_child_of_dirAt hn.isComponent hd, walk_name hn (enter_eq_some.1 hd).2] at hl
  obtain rfl := Except.ok.inj hl
  obtain ⟨other, hmem, heq⟩ := List.mem_map.1 hmem
  have hlast := congrArg List.getLast? heq
  simp only [List.getLast?_append, List.getLast?_singleton, Option.some_or, Option.some.injEq]
    at hlast
  exact hother (hlast ▸ hmem)

/-- What a scan that succeeds looks at is as it was, unless the run writes there. -/
theorem contents?_of_probes (hok : (scanCrate before root).failure = none)
    (hprobes : Probes before root q) (hout : ∀ l, after.locate q = .ok l → l ∉ places d) :
    after.contents? q = before.contents? q := by
  by_cases hfile : before.isFile q = true
  · exact h.contents?_of_isFile hfile hout
  cases hprobes with
  | root =>
    obtain ⟨-, source, -, hsource, -⟩ := scanFile_ok_iff.1 hok
    rw [isFile_eq, Option.isSome_iff_exists] at hfile
    exact absurd (exists_contents?_of_source? hsource) hfile
  | @candidate path r attrs name missed _ rest hreached heq hmissed =>
    obtain ⟨file, hfind, -⟩ := hreached.exists_opened hok
    obtain ⟨rfl, rfl⟩ := r.eq_child_of_missed heq hmissed hfile hfind
    -- the file that is found shows that the directory of the other one is there
    have hmod := List.find?_some hfind
    rw [isFile_eq] at hmod
    obtain ⟨own, hown⟩ := exists_dirAt_of_contents? isComponent_mod.isAbsolute_eq_false hmod
    rw [dirAt_child name.isComponent_name.isAbsolute_eq_false] at hown
    obtain ⟨m, hm, -⟩ := Option.bind_eq_some_iff.1 hown
    exact h.contents?_eq (h.keeps.locate_child name.isComponent_rs hm) hout

end Rewritten

/-! ### The next plan -/

section

variable {c : Config} {env : Environment} {before after : FileTree} {d : Location} {root : FilePath}
  {p : Plan}

/-- The root file is found again. -/
theorem Rewritten.root_eq (h : Rewritten before after d) (hroot : c.root env before = .ok root) :
    c.root env after = .ok root := by
  unfold Config.root at hroot ⊢
  split at hroot
  · exact hroot
  · cases hroot
  · rename_i dir _ _
    dsimp only at hroot ⊢
    split at hroot
    · rename_i file hfind
      obtain ⟨name, hname, rfl⟩ := List.mem_map.1 (List.mem_of_find?_eq_some hfind)
      have hfile := List.find?_some hfind
      rw [isFile_eq] at hfile
      have hnames : ∀ n ∈ ["lib.rs", "main.rs"], FilePath.IsName n ∧ n ∉ writtenNames := by
        intro n hn
        simp only [List.mem_cons, List.not_mem_nil, or_false] at hn
        rcases hn with rfl | rfl
        · exact ⟨⟨by decide, by decide, by decide, by decide, by decide, by decide⟩, by decide⟩
        · exact ⟨⟨by decide, by decide, by decide, by decide, by decide, by decide⟩, by decide⟩
      obtain ⟨m, hm⟩ := exists_dirAt_of_contents?
        (hnames name hname).1.isComponent.isAbsolute_eq_false hfile
      rw [find?_isFile_congr (fun missed f rest heq _ => ?_) hfind]
      · exact hroot
      · have hf : f ∈ missed ++ f :: rest := by simp
        obtain ⟨n, hn, rfl⟩ := List.mem_map.1 (heq ▸ hf)
        exact h.contents?_child hm (hnames n hn).1 (hnames n hn).2
    · cases hroot

/-- The runtime crate is found again, unless a manifest has come up. -/
theorem Rewritten.runtimePath_eq (h : Rewritten before after d)
    (hmanifest : ∀ dir, env.manifestDir = some dir →
      after.isFile (dir.child "Cargo.toml") = true →
        before.isFile (dir.child "Cargo.toml") = true) :
    runtimePath env after = runtimePath env before := by
  have hn : FilePath.IsName "Cargo.toml" :=
    ⟨by decide, by decide, by decide, by decide, by decide, by decide⟩
  unfold runtimePath
  rcases hdir : env.manifestDir with _ | dir
  · rfl
  · have hsame : after.contents? (dir.child "Cargo.toml") =
        before.contents? (dir.child "Cargo.toml") := by
      by_cases hfile : before.isFile (dir.child "Cargo.toml") = true
      · rw [isFile_eq] at hfile
        obtain ⟨m, hm⟩ := exists_dirAt_of_contents? hn.isComponent.isAbsolute_eq_false hfile
        exact h.contents?_child hm hn (by decide)
      · have hafter : ¬after.isFile (dir.child "Cargo.toml") = true :=
          fun hf => hfile (hmanifest dir hdir hf)
        simp only [isFile_eq, Bool.not_eq_true, Option.isSome_eq_false_iff,
          Option.isNone_iff_eq_none] at hfile hafter
        rw [hfile, hafter]
    simp only [Option.bind_some, readText_eq, hsame]

/-- Without a difference in what it is made of, the plan is the same. -/
theorem Config.plan_congr (hroot : c.root env after = c.root env before)
    (hscan : ∀ root, c.root env before = .ok root → scanCrate after root = scanCrate before root)
    (hruntime : c.runtime.getD (runtimePath env after) = c.runtime.getD (runtimePath env before)) :
    c.plan env after = c.plan env before := by
  unfold plan
  rw [hroot]
  rcases hr : c.root env before with e | root
  · rfl
  · simp only [hscan root hr, planFor, hruntime]

end

/-- A run that follows one that succeeds has a plan that is settled, so it reports the same and
leaves the tree as it is. No path that the scan looks at may lead to where the first run writes, and
if the runtime crate is looked up in the manifest, that may not come into reach through a directory
that is new. -/
theorem generate_again {c : Config} {env : Environment} {tree after : FileTree} {r : Report}
    (hafter : (generate env c tree).1 = after) (h : (generate env c tree).2.result = .ok r)
    (hscan : ∀ root outDir q, c.root env tree = .ok root → c.target env = .ok outDir →
      Probes tree root q → ∀ o ∈ outputPaths (r.ns.dirIn outDir), after.locate q ≠ after.locate o)
    (hmanifest : c.runtime = none → ∀ dir, env.manifestDir = some dir →
      after.isFile (dir.child "Cargo.toml") = true → tree.isFile (dir.child "Cargo.toml") = true) :
    ∃ p, (c.plan env after).result = .ok p ∧ p.Settled after ∧
      (generate env c after).1 = after ∧ (generate env c after).2.result = .ok r := by
  rcases hplan : (c.plan env tree).result with e | p
  · rw [(generate_of_no_plan hplan).2] at h
    cases h
  obtain ⟨htree, hresult⟩ := generate_of_plan hplan
  obtain ⟨root, found, ts, hroot, hout, hfound, -, ha, -⟩ := Config.exists_of_plan hplan
  have hok : (scanCrate tree root).failure = none := (Trace.findings_eq_ok.1 hfound).1
  have hp := Plan.sound_of_artifact ha
  rw [hresult] at h
  obtain ⟨made, d, hm, hopens, hk, hdone, rfl⟩ := Plan.exists_made_of_install hp h
  obtain rfl : after = p.done d made := by rw [← hafter, htree, hdone]
  have hsettled := Plan.settled_done hp hm hopens hk
  have hmade := makeDirectories_madeOnly tree p.dir.folder
  rw [hm] at hmade
  have hrewritten : Rewritten tree (p.done d made) d :=
    ⟨hmade.keepsDirs.trans hk, fun l hl => Plan.contents_done hp hm hk hl⟩
  have hsame : c.plan env (p.done d made) = c.plan env tree := by
    refine Config.plan_congr ((hrewritten.root_eq hroot).trans hroot.symm)
      (fun root' hroot' => ?_) ?_
    · obtain rfl := Except.ok.inj (hroot.symm.trans hroot')
      refine scanCrate_congr
        (fun q hq => hrewritten.contents?_of_probes hok hq fun l hl hmem => ?_) hok
      obtain ⟨o, ho, hlo⟩ := exists_outputPath (hopens.keep hk) hmem
      exact hscan root p.outDir q hroot hout hq o ho (hl.trans hlo.symm)
    · rcases hruntime : c.runtime with _ | runtime
      · rw [Option.getD_none, Option.getD_none, hrewritten.runtimePath_eq (hmanifest hruntime)]
      · rfl
  have hagain : (c.plan env (p.done d made)).result = .ok p := by rw [hsame, hplan]
  obtain ⟨htree', hresult'⟩ := generate_of_plan hagain
  obtain ⟨hinstall, hreport⟩ := Plan.install_of_settled hsettled
  exact ⟨p, hagain, hsettled, htree'.trans hinstall, hresult'.trans hreport⟩

/-- Whether the root file declares nothing but data. -/
def declaresData (tree : FileTree) (root : FilePath) : Bool :=
  (tree.source? root).all fun source => source.items.all fun
    | .data _ => true
    | _ => false

/-- A root file that declares nothing but data is all that is looked at. -/
theorem Probes.eq_root {tree : FileTree} {root q : FilePath} (hdata : declaresData tree root = true)
    (h : Probes tree root q) : q = root := by
  cases h with
  | root => rfl
  | candidate hreached =>
    obtain ⟨source, inner, hsource, hleads, -, hmem, -⟩ := hreached
    rw [declaresData, hsource, Option.all_some, List.all_eq_true] at hdata
    cases hleads with
    | here => cases hdata _ hmem
    | block hblock => cases hdata _ hblock
    | file hfile => cases hdata _ hfile

/-- A crate without tagged structs, where an earlier run has left functions. -/
def untaggedCrate : FileTree :=
  ⟨[], [(["src"], .directory), (["src", "lib.rs"], .file (.text "struct Key(u8);")),
    (["out"], .directory), (["out", "sanitizations.rs"], .file (.text "stale"))]⟩

def untaggedRun : Config where
  sourceRoot := some ⟨"src/lib.rs"⟩
  outDir := some ⟨"out"⟩
  mode := some .release
  ns := some "crate"

/-- Once the stale functions are gone, nothing is left to do. -/
theorem generate_again_untaggedCrate : ∃ (p : Plan) (after : FileTree),
    (generate {} untaggedRun untaggedCrate).1 = after ∧ p.artifact = none ∧ p.Settled after ∧
    untaggedCrate ≠ after ∧ (generate {} untaggedRun after).1 = after ∧
    (generate {} untaggedRun after).2.result =
      .ok ⟨.release, .root, ⟨"out/root_sanitize_function.rs"⟩, none, 0⟩ := by
  have h : (generate {} untaggedRun untaggedCrate).2.result =
      .ok ⟨.release, .root, ⟨"out/root_sanitize_function.rs"⟩, none, 0⟩ := by decide +kernel
  have hdata : declaresData untaggedCrate ⟨"src/lib.rs"⟩ = true := by decide +kernel
  obtain ⟨hapart, hartifact, hchange⟩ :
      (∀ o ∈ outputPaths (Namespace.root.dirIn ⟨"out"⟩),
        (generate {} untaggedRun untaggedCrate).1.locate ⟨"src/lib.rs"⟩ ≠
          (generate {} untaggedRun untaggedCrate).1.locate o) ∧
      (untaggedRun.plan {} (generate {} untaggedRun untaggedCrate).1).result.map Plan.artifact =
        .ok none ∧
      (generate {} untaggedRun untaggedCrate).1.entries ≠ untaggedCrate.entries := by
    decide +kernel
  obtain ⟨p, hplan, hsettled, htree, hresult⟩ := generate_again rfl h
    (fun root outDir q hroot hout hq => by
      obtain rfl := Except.ok.inj hroot
      obtain rfl := Except.ok.inj hout
      obtain rfl := hq.eq_root hdata
      exact hapart) nofun
  rw [hplan] at hartifact
  exact ⟨p, _, rfl, Except.ok.inj hartifact, hsettled,
    fun heq => hchange (congrArg FileTree.entries heq.symm), htree, hresult⟩

/-- A crate with a manifest in the directory for generated files. -/
def detourCrate : FileTree :=
  ⟨[], [(["src"], .directory),
    (["src", "lib.rs"], .file (.text "#[derive(Sanitize)] struct Key(u8);")),
    (["out"], .directory), (["out", "Cargo.toml"], .file (.text
      "[dependencies]\nhidden = \x7b package = \"mrclean\", version = \"1\" \x7d\n"))]⟩

def detourRun : Config where
  sourceRoot := some ⟨"src/lib.rs"⟩
  outDir := some ⟨"out"⟩
  mode := some .release
  ns := some "x"

/-- The manifest is reached through the directory of the namespace. -/
def detour : Environment where
  manifestDir := some ⟨"out/x/.."⟩

/-- The second run finds a manifest that the first one has not found, though the scan looks only at
a file that neither writes. -/
theorem not_generate_again_detour : ∃ after r,
    (generate detour detourRun detourCrate).1 = after ∧
    (generate detour detourRun detourCrate).2.result = .ok r ∧
    (∀ q, Probes detourCrate ⟨"src/lib.rs"⟩ q → after.locate q = .ok ["src", "lib.rs"]) ∧
    after.locate r.rootFile = .ok ["out", "x", "root_sanitize_function.rs"] ∧
    (generate detour detourRun after).1 ≠ after := by
  have h : (generate detour detourRun detourCrate).2.result = .ok ⟨.release, ⟨[.plain "x"]⟩,
      ⟨"out/x/root_sanitize_function.rs"⟩, some ⟨"out/x/sanitizations.rs"⟩, 1⟩ := by decide +kernel
  have hdata : declaresData detourCrate ⟨"src/lib.rs"⟩ = true := by decide +kernel
  obtain ⟨hsource, hroot, hchange⟩ :
      (generate detour detourRun detourCrate).1.locate ⟨"src/lib.rs"⟩ = .ok ["src", "lib.rs"] ∧
      (generate detour detourRun detourCrate).1.locate ⟨"out/x/root_sanitize_function.rs"⟩ =
        .ok ["out", "x", "root_sanitize_function.rs"] ∧
      (generate detour detourRun (generate detour detourRun detourCrate).1).1.entries ≠
        (generate detour detourRun detourCrate).1.entries := by decide +kernel
  refine ⟨_, _, rfl, h, fun q hq => ?_, hroot, fun heq => hchange (congrArg FileTree.entries heq)⟩
  obtain rfl := hq.eq_root hdata
  exact hsource

end SanitizeGen