import SanitizeGen.Proofs.Regeneration

/-!
# What the printed files cover

A run prints the files that its scan has read, so that the build system runs it again when one of
them changes. These are all files that the scan depends on (`findings_of_agrees`): it finds the same
over any tree with the same contents of them, as long as no file comes up where the scan has looked
for one in vain. A run depends on one file more, the manifest, unless the runtime crate is named in
its settings (`not_printed_manifest`).
-/

namespace SanitizeGen

open FileTree

variable {before after : FileTree} {root q : FilePath} {found : Findings}

theorem Findings.mem_files_ofEvents {es : List Event} {file : FilePath} :
    file ∈ (ofEvents es).files ↔ ∃ ns, .opened ns file ∈ es := by
  simp only [ofEvents, List.mem_filterMap]
  constructor
  · rintro ⟨e, he, hf⟩
    cases e <;> cases hf
    exact ⟨_, he⟩
  · rintro ⟨ns, h⟩
    exact ⟨_, h, rfl⟩

/-- A path that the scan looks at is one of those it has read, if there is a file. -/
theorem Probes.mem_files (h : Probes before root q) (hfile : before.isFile q = true)
    (hfound : (scanCrate before root).findings = .ok found) : q ∈ found.files := by
  obtain ⟨hok, rfl⟩ := Trace.findings_eq_ok.1 hfound
  rw [Findings.mem_files_ofEvents]
  cases h with
  | root =>
    obtain ⟨n, source, -, -, -, hevents⟩ := exists_of_scanFile_ok hok
    exact ⟨.root, by rw [scanCrate, hevents]; exact List.mem_cons_self⟩
  | candidate hreached heq hmissed =>
    obtain ⟨file, hfind, hopened⟩ := hreached.exists_opened hok
    have hq : List.find? before.isFile _ = some q :=
      List.find?_eq_some_iff_append.2 ⟨hfile, _, _, heq, by simpa using hmissed⟩
    obtain rfl := Option.some.inj (hq.symm.trans hfind)
    exact ⟨_, hopened⟩

/-- The files that a scan has read hold the same, and there is still no file where it has looked for
one in vain. -/
structure Agrees (before after : FileTree) (root : FilePath) (found : Findings) : Prop where
  files : ∀ f ∈ found.files, after.contents? f = before.contents? f
  missing : ∀ q, Probes before root q → before.isFile q = false → after.isFile q = false

theorem Agrees.scanCrate_eq (h : Agrees before after root found)
    (hfound : (scanCrate before root).findings = .ok found) :
    scanCrate after root = scanCrate before root := by
  refine scanCrate_congr (fun q hq => ?_) (Trace.findings_eq_ok.1 hfound).1
  rcases hfile : before.isFile q with _ | _
  · have hafter := h.missing q hq hfile
    rw [isFile_eq, Option.isSome_eq_false_iff, Option.isNone_iff_eq_none] at hfile hafter
    rw [hfile, hafter]
  · exact h.files q (hq.mem_files hfile hfound)

/-! ### Other contents -/

/-- Only the contents of files differ, and none of the paths `ps` leads to one of these files. -/
structure EditedApart (before after : FileTree) (ps : List FilePath) : Prop where
  working : after.working = before.working
  get? : ∀ l, after.get? l = before.get? l ∨ ∃ c c', before.get? l = some (.file c) ∧
    after.get? l = some (.file c') ∧ ∀ p ∈ ps, before.locate p ≠ .ok l

namespace EditedApart

variable {ps : List FilePath} {p : FilePath} (h : EditedApart before after ps)

include h

theorem walk_eq (l : Location) (parts : List (List Char)) :
    after.walk l parts = before.walk l parts := by
  induction parts generalizing l with
  | nil => rfl
  | cons part parts ih =>
    rw [walk, walk]
    rcases h.get? l with heq | ⟨c, c', hbefore, hafter, -⟩
    · rw [heq]
      simp only [ih]
    · rw [hbefore, hafter]

theorem locate_eq (p : FilePath) : after.locate p = before.locate p := by
  simp only [locate, start, h.working, h.walk_eq]

theorem isFile_eq (p : FilePath) : after.isFile p = before.isFile p := by
  rw [isFile, isFile, entry?, entry?, h.locate_eq]
  rcases before.locate p with e | l
  · rfl
  · rcases h.get? l with heq | ⟨c, c', hbefore, hafter, -⟩
    · simp only [heq]
    · simp only [hbefore, hafter]

theorem contents?_eq (hp : p ∈ ps) : after.contents? p = before.contents? p := by
  rw [contents?, contents?, h.locate_eq]
  rcases hl : before.locate p with e | l
  · rfl
  · rcases h.get? l with heq | ⟨-, -, -, -, hapart⟩
    · simp only [heq]
    · exact absurd hl (hapart p hp)

end EditedApart

theorem EditedApart.mono {ps qs : List FilePath} (h : EditedApart before after ps)
    (hqs : ∀ q ∈ qs, q ∈ ps) : EditedApart before after qs where
  working := h.working
  get? l := (h.get? l).imp_right fun ⟨c, c', hc, hc', hapart⟩ =>
    ⟨c, c', hc, hc', fun q hq => hapart q (hqs q hq)⟩

/-- One file is edited that no path leads to. -/
theorem EditedApart.set {ps : List FilePath} {l : Location} {c : Contents} (c' : Contents)
    (hl : before.get? l = some (.file c)) (hapart : ∀ p ∈ ps, before.locate p ≠ .ok l) :
    EditedApart before (before.set l (.file c')) ps := by
  have hne : l ≠ [] := by
    rintro rfl
    cases hl
  refine ⟨working_set, fun m => ?_⟩
  rw [get?_set hne]
  split
  · rename_i hm
    exact .inr ⟨c, c', hm ▸ hl, rfl, hm ▸ hapart⟩
  · exact .inl rfl

/-- The manifest, if the runtime crate is looked up in it. -/
def Config.manifests (c : Config) (env : Environment) : List FilePath :=
  if c.runtime.isSome then [] else (env.manifestDir.map (·.child "Cargo.toml")).toList

/-- The line that names a file for the build system. -/
def printedLine (file : FilePath) : String := "cargo:rerun-if-changed=" ++ file.text

section

variable {c : Config} {env : Environment} {outDir : FilePath}

theorem Config.printed_plan (hroot : c.root env before = .ok root)
    (hout : c.target env = .ok outDir) (hprint : c.printFiles = true)
    (hfound : (scanCrate before root).findings = .ok found) :
    (c.plan env before).printed = found.files.map printedLine := by
  unfold plan
  simp only [hroot, hout, hfound, hprint, if_true]
  rfl

/-- Where the manifest is not edited, the runtime crate is found as before. -/
theorem EditedApart.runtime_eq (h : EditedApart before after (c.manifests env)) :
    c.runtime.getD (runtimePath env after) = c.runtime.getD (runtimePath env before) := by
  rcases hruntime : c.runtime with _ | runtime
  · rcases hdir : env.manifestDir with _ | dir
    · simp only [runtimePath, hdir, Option.bind_none]
    · have hmem : dir.child "Cargo.toml" ∈ c.manifests env := by
        simp [Config.manifests, hruntime, hdir]
      simp only [runtimePath, hdir, Option.bind_some, readText_eq, h.contents?_eq hmem]
  · rfl

theorem EditedApart.plan_eq (hroot : c.root env before = .ok root)
    (hfound : (scanCrate before root).findings = .ok found)
    (h : EditedApart before after (found.files ++ c.manifests env)) :
    c.plan env after = c.plan env before := by
  have hfile : after.isFile = before.isFile := funext h.isFile_eq
  have hagrees : Agrees before after root found :=
    ⟨fun f hf => h.contents?_eq (List.mem_append_left _ hf), fun q _ hq => (h.isFile_eq q).trans hq⟩
  refine Config.plan_congr (by simp only [Config.root, hfile]) (fun root' hroot' => ?_) ?_
  · obtain rfl := Except.ok.inj (hroot.symm.trans hroot')
    exact hagrees.scanCrate_eq hfound
  · exact (h.mono fun q hq => List.mem_append_right _ hq).runtime_eq

end

/-- A scan that succeeds finds the same over any tree that agrees with the first one on the files
that it has read and has no file where there was none. So what a run decides to write depends on the
contents of no files but those that it prints and, if the runtime crate is looked up there, of the
manifest. -/
theorem findings_of_agrees (hfound : (scanCrate before root).findings = .ok found) :
    (∀ after, Agrees before after root found → (scanCrate after root).findings = .ok found) ∧
    ∀ (c : Config) (env : Environment) (outDir : FilePath), c.root env before = .ok root →
      c.target env = .ok outDir → c.printFiles = true →
      (c.plan env before).printed = found.files.map printedLine ∧
      ∀ after, EditedApart before after (found.files ++ c.manifests env) →
        c.plan env after = c.plan env before := by
  refine ⟨fun after h => ?_, fun c env outDir hroot hout hprint => ⟨?_, fun after h => ?_⟩⟩
  · rw [h.scanCrate_eq hfound, hfound]
  · exact Config.printed_plan hroot hout hprint hfound
  · exact h.plan_eq hroot hfound

/-- A crate with a module in a directory of its own, and a file that is no part of it. -/
def memberCrate : FileTree :=
  ⟨[], [(["src"], .directory), (["src", "lib.rs"], .file (.text "mod keys;")),
    (["src", "keys"], .directory),
    (["src", "keys", "mod.rs"], .file (.text "#[derive(Sanitize)] struct Key(u8);")),
    (["notes"], .file (.text "old"))]⟩

def memberRun : Config where
  sourceRoot := some ⟨"src/lib.rs"⟩
  outDir := some ⟨"out"⟩
  mode := some .release
  ns := some "crate"

/-- Its other file can be edited. -/
theorem findings_of_agrees_memberCrate : ∃ found after,
    memberCrate.set ["notes"] (.file (.text "new")) = after ∧ after ≠ memberCrate ∧
    (scanCrate memberCrate ⟨"src/lib.rs"⟩).findings = .ok found ∧
    found.files = [⟨"src/lib.rs"⟩, ⟨"src/keys/mod.rs"⟩] ∧
    (scanCrate after ⟨"src/lib.rs"⟩).findings = .ok found ∧
    (memberRun.plan {} memberCrate).printed =
      ["cargo:rerun-if-changed=src/lib.rs", "cargo:rerun-if-changed=src/keys/mod.rs"] ∧
    memberRun.plan {} after = memberRun.plan {} memberCrate := by
  have hfiles : (scanCrate memberCrate ⟨"src/lib.rs"⟩).findings.map Findings.files =
      .ok [⟨"src/lib.rs"⟩, ⟨"src/keys/mod.rs"⟩] := by decide +kernel
  obtain ⟨hlocate, hchange⟩ : (∀ p ∈ [⟨"src/lib.rs"⟩, ⟨"src/keys/mod.rs"⟩],
      memberCrate.locate p ≠ .ok ["notes"]) ∧
      (memberCrate.set ["notes"] (.file (.text "new"))).entries ≠ memberCrate.entries := by
    decide +kernel
  rcases hfound : (scanCrate memberCrate ⟨"src/lib.rs"⟩).findings with e | found
  · rw [hfound] at hfiles
    cases hfiles
  rw [hfound] at hfiles
  have hfiles : found.files = [⟨"src/lib.rs"⟩, ⟨"src/keys/mod.rs"⟩] := Except.ok.inj hfiles
  have hedited : EditedApart memberCrate (memberCrate.set ["notes"] (.file (.text "new")))
      (found.files ++ memberRun.manifests {}) :=
    .set _ rfl (by rwa [hfiles])
  obtain ⟨hscan, hrun⟩ := findings_of_agrees hfound
  obtain ⟨hprinted, hplan⟩ := hrun memberRun {} ⟨"out"⟩ rfl rfl rfl
  rw [hfiles] at hprinted
  exact ⟨found, _, rfl, fun heq => hchange (congrArg FileTree.entries heq), rfl, hfiles,
    hscan _ ⟨fun f hf => hedited.contents?_eq (List.mem_append_left _ hf),
      fun q _ hq => (hedited.isFile_eq q).trans hq⟩, hprinted, hplan _ hedited⟩

/-- A crate with a tagged struct and a manifest with some dependencies. -/
def manifestCrate (dependencies : String) : FileTree :=
  ⟨[], [(["src"], .directory),
    (["src", "lib.rs"], .file (.text "#[derive(Sanitize)] struct Key(u8);")),
    (["Cargo.toml"], .file (.text ("[dependencies]\n" ++ dependencies)))]⟩

/-- The source file is apart from the manifest. -/
theorem editedApart_manifestCrate (old new : String) :
    EditedApart (manifestCrate old) (manifestCrate new) [⟨"src/lib.rs"⟩] := by
  have heq : manifestCrate new = (manifestCrate old).set ["Cargo.toml"]
      (.file (.text ("[dependencies]\n" ++ new))) := by
    simp [manifestCrate, FileTree.set]
  have hget : (manifestCrate old).get? ["Cargo.toml"] =
      some (.file (.text ("[dependencies]\n" ++ old))) := rfl
  have hlocate : (manifestCrate old).locate ⟨"src/lib.rs"⟩ = .ok ["src", "lib.rs"] := rfl
  rw [heq]
  exact .set _ hget (by simp [hlocate])

/-- The package is in the working directory. -/
def manifestHere : Environment where
  manifestDir := some ⟨"."⟩

/-- Under another name for the runtime crate in the manifest, a run writes other functions. It
prints its one source file, which is the same. -/
theorem not_printed_manifest : ∃ before after found,
    before = manifestCrate "mrclean = \"1\"" ∧
    after = manifestCrate "hidden = \x7b package = \"mrclean\", version = \"1\" \x7d" ∧
    (scanCrate before ⟨"src/lib.rs"⟩).findings = .ok found ∧
    EditedApart before after found.files ∧
    (generate manifestHere memberRun before).2.printed = found.files.map printedLine ∧
    (generate manifestHere memberRun before).1.readText ⟨"out/sanitizations.rs"⟩ ≠
      (generate manifestHere memberRun after).1.readText ⟨"out/sanitizations.rs"⟩ := by
  obtain ⟨hfiles, hprinted, htext⟩ :
      (scanCrate (manifestCrate "mrclean = \"1\"") ⟨"src/lib.rs"⟩).findings.map Findings.files =
        .ok [⟨"src/lib.rs"⟩] ∧
      (generate manifestHere memberRun (manifestCrate "mrclean = \"1\"")).2.printed =
        ["cargo:rerun-if-changed=src/lib.rs"] ∧
      (generate manifestHere memberRun (manifestCrate "mrclean = \"1\"")).1.readText
          ⟨"out/sanitizations.rs"⟩ ≠
        (generate manifestHere memberRun (manifestCrate
          "hidden = \x7b package = \"mrclean\", version = \"1\" \x7d")).1.readText
            ⟨"out/sanitizations.rs"⟩ := by decide +kernel
  rcases hfound : (scanCrate (manifestCrate "mrclean = \"1\"") ⟨"src/lib.rs"⟩).findings
    with e | found
  · rw [hfound] at hfiles
    cases hfiles
  rw [hfound] at hfiles
  have hfiles : found.files = [⟨"src/lib.rs"⟩] := Except.ok.inj hfiles
  refine ⟨_, _, found, rfl, rfl, hfound, ?_, ?_, htext⟩
  · rw [hfiles]
    exact editedApart_manifestCrate _ _
  · rw [hfiles, hprinted]
    rfl

end SanitizeGen
