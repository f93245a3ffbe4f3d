import SanitizeGen.Build.RootTask
import SanitizeGen.Proofs.Installing
import SanitizeGen.Proofs.Planning

/-!
# What a failed run leaves

A run that fails leaves all generated files as they were, with one exception: where a directory is
in the place of the functions, the root file is in place already when that is noticed
(`sameGenerated_iff_of_error`). A run that fails over its settings or its sources has not begun to
write, so it leaves the whole tree as it was (`tree_eq_of_isEarly`).
-/

namespace SanitizeGen

open FileTree

/-- No file with the name of a generated file is made, changed or removed anywhere. -/
def SameGenerated (before after : FileTree) : Prop :=
  ∀ (d : Location) (f : String), f = rootFile ∨ f = sanitizationsFile →
    ∀ c, after.get? (d ++ [f]) = some (.file c) ↔ before.get? (d ++ [f]) = some (.file c)

namespace Plan

/-- The root file is written and then the functions cannot be: a directory is in their place, and
nothing else is in the way. -/
structure Torn (p : Plan) (t : FileTree) : Prop where
  functions : p.artifact.isSome = true
  made : (t.makeDirectories p.dir.folder).2 = true
  /-- The root file is not what it shall be. -/
  root : (t.makeDirectories p.dir.folder).1.readText (p.dir.child rootFile) ≠
    some (Template.rootFile p.mode)
  place : (t.makeDirectories p.dir.folder).1.isDirectory (p.dir.child rootFile) = false
  rootBeside :
    (t.makeDirectories p.dir.folder).1.isDirectory (p.dir.child (waitingName rootFile)) = false
  beside : (t.makeDirectories p.dir.folder).1.isDirectory
    (p.dir.child (waitingName sanitizationsFile)) = false
  taken : (t.makeDirectories p.dir.folder).1.isDirectory (p.dir.child sanitizationsFile) = true

instance (p : Plan) (t : FileTree) : Decidable (p.Torn t) :=
  decidable_of_iff
    (p.artifact.isSome = true ∧ (t.makeDirectories p.dir.folder).2 = true ∧
      (t.makeDirectories p.dir.folder).1.readText (p.dir.child rootFile) ≠
        some (Template.rootFile p.mode) ∧
      (t.makeDirectories p.dir.folder).1.isDirectory (p.dir.child rootFile) = false ∧
      (t.makeDirectories p.dir.folder).1.isDirectory (p.dir.child (waitingName rootFile)) =
        false ∧
      (t.makeDirectories p.dir.folder).1.isDirectory
        (p.dir.child (waitingName sanitizationsFile)) = false ∧
      (t.makeDirectories p.dir.folder).1.isDirectory (p.dir.child sanitizationsFile) = true)
    ⟨fun ⟨hf, hm, hr, hp, hrb, hb, ht⟩ => ⟨hf, hm, hr, hp, hrb, hb, ht⟩,
      fun ⟨hf, hm, hr, hp, hrb, hb, ht⟩ => ⟨hf, hm, hr, hp, hrb, hb, ht⟩⟩

variable {p : Plan} {d : Location} {t made : FileTree}

theorem torn_iff (hp : p.Sound) (hm : t.makeDirectories p.dir.folder = (made, true))
    (h : made.Opens p.dir d) : p.Torn t ↔ (p.rootSlot d made).waits = true ∧
      ¬(p.rootSlot d made).Blocked made ∧ ¬(p.functionsSlot d made).Blocked made ∧
      ¬(p.rootSlot d made).Taken made ∧ (p.functionsSlot d made).Taken made := by
  have hread := h.readText_child IsGeneratedName.root.name (Template.rootFile p.mode)
  have hplace := h.isDirectory_child IsGeneratedName.root.name
  have hrb := h.isDirectory_child IsGeneratedName.root.waiting
  have hb := h.isDirectory_child IsGeneratedName.sanitizations.waiting
  have htaken := h.isDirectory_child IsGeneratedName.sanitizations.name
  constructor
  · rintro ⟨hfun, -, root, place, rootBeside, beside, taken⟩
    rw [hm] at root place rootBeside beside taken
    obtain ⟨a, ha⟩ := Option.isSome_iff_exists.1 hfun
    have hdir := htaken.1 taken
    refine ⟨waits_rootSlot.2 fun hhas => root (hread.2 hhas), fun hblocked => ?_,
      fun hblocked => ?_, fun htk => ?_, (waits_functionsSlot hp ha).2 (by simp [hdir]), ?_⟩
    · rw [hrb.2 hblocked.2] at rootBeside
      cases rootBeside
    · have hd := hblocked.2
      rw [beside_functionsSlot hp] at hd
      rw [hb.2 hd] at beside
      cases beside
    · rw [hplace.2 htk.2] at place
      cases place
    · rw [place_functionsSlot hp, hdir]
  · rintro ⟨hw, hrblocked, hblocked, hrtaken, hftaken⟩
    have hdir := hftaken.2
    rw [place_functionsSlot hp] at hdir
    refine ⟨?_, by rw [hm], ?_, ?_, ?_, ?_, ?_⟩
    · rcases ha : p.artifact with _ | a
      · have hnone := hftaken.1
        rw [waits_functionsSlot_of_none ha] at hnone
        cases hnone
      · rfl
    · rw [hm]
      exact fun hr => waits_rootSlot.1 hw (hread.1 hr)
    · rw [hm]
      exact Bool.eq_false_iff.2 fun hd => hrtaken ⟨hw, hplace.1 hd⟩
    · rw [hm]
      exact Bool.eq_false_iff.2 fun hd => hrblocked ⟨hw, hrb.1 hd⟩
    · rw [hm]
      refine Bool.eq_false_iff.2 fun hd => hblocked ⟨hftaken.1, ?_⟩
      rw [beside_functionsSlot hp, hb.1 hd]
    · rw [hm]
      exact htaken.2 hdir

/-! ### What is left of generated files -/

theorem sameGenerated_of_eq {t' : FileTree} (hmade : MadeOnly t made (ancestors p.dir.folder))
    (h : ∀ (d' : Location) (f : String), f = rootFile ∨ f = sanitizationsFile →
      t'.get? (d' ++ [f]) = made.get? (d' ++ [f])) : SameGenerated t t' := by
  intro d' f hf c
  rw [h d' f hf, hmade.get?_file]

/-- Contents wait under other names than those of generated files. -/
theorem ne_beside {f : String} (hp : p.Sound) (hf : f = rootFile ∨ f = sanitizationsFile)
    (d d' : Location) (made : FileTree) : d' ++ [f] ≠ (p.rootSlot d made).beside ∧
      d' ++ [f] ≠ (p.functionsSlot d made).beside := by
  have hne : ∀ f ∈ [rootFile, sanitizationsFile],
      f ≠ waitingName rootFile ∧ f ≠ waitingName sanitizationsFile := by decide
  obtain ⟨hr, hs⟩ := hne f (by simpa using hf)
  have hlast {d d' : Location} {f g : String} (he : d' ++ [f] = d ++ [g]) : f = g := by
    simpa using congrArg List.getLast? he
  rw [beside_functionsSlot hp]
  exact ⟨fun he => hr (hlast he), fun he => hs (hlast he)⟩

/-- A run that fails leaves generated files as they are unless it is torn. -/
theorem sameGenerated_or_torn {e : Error} (hp : p.Sound) (h : (p.install t).2.result = .error e) :
    (SameGenerated t (p.install t).1 ∧ ¬p.Torn t) ∨
    (∃ made d, t.makeDirectories p.dir.folder = (made, true) ∧ made.Opens p.dir d ∧ p.Torn t ∧
      (p.install t).1 = (p.functionsSlot d made).unwait (p.halfway d made)) := by
  have hw := install_writes hp t
  rw [h] at hw
  have hmade := makeDirectories_madeOnly t p.dir.folder
  generalize (p.install t).1 = t' at hw ⊢
  cases hw with
  | notMade hm =>
    rw [hm] at hmade
    refine .inl ⟨sameGenerated_of_eq hmade fun _ _ _ => rfl, fun ht => ?_⟩
    have hok := ht.made
    rw [hm] at hok
    cases hok
  | notOpen hm hclosed =>
    rw [hm] at hmade
    refine .inl ⟨sameGenerated_of_eq hmade fun _ _ _ => rfl, fun ht => ?_⟩
    have htaken := ht.taken
    rw [hm] at htaken
    obtain ⟨l, hl, -⟩ := isDirectory_iff.1 htaken
    obtain ⟨d, hd, -⟩ := exists_opens_of_locate IsGeneratedName.sanitizations.name hl
    exact hclosed d hd
  | opens hm hopens hin =>
    rename_i made d
    rw [hm] at hmade
    rw [torn_iff hp hm hopens]
    cases hin with
    | rootBlocked hr =>
      exact .inl ⟨sameGenerated_of_eq hmade fun _ _ _ => rfl, fun ht => ht.2.1 hr⟩
    | functionsBlocked hr hf =>
      refine .inl ⟨sameGenerated_of_eq hmade fun d' f hname => ?_, fun ht => ht.2.2.1 hf⟩
      obtain ⟨hrb, -⟩ := ne_beside hp hname d d' made
      rw [Slot.get?_unwait, if_neg fun h => hrb h.2, Slot.get?_wait, if_neg fun h => hrb h.2]
    | rootTaken hr hf ht =>
      refine .inl ⟨sameGenerated_of_eq hmade fun d' f hname => ?_, fun htorn => htorn.2.2.2.1 ht⟩
      obtain ⟨hrb, hfb⟩ := ne_beside hp hname d d' made
      rw [Slot.get?_unwait, if_neg fun h => hfb h.2, Slot.get?_unwait, if_neg fun h => hrb h.2,
        staged, Slot.get?_wait, if_neg fun h => hfb h.2, Slot.get?_wait, if_neg fun h => hrb h.2]
    | functionsTaken hr hf ht htf =>
      by_cases hw : (p.rootSlot d made).waits = true
      · exact .inr ⟨made, d, hm, hopens, ⟨hw, hr, hf, ht, htf⟩, rfl⟩
      · refine .inl ⟨sameGenerated_of_eq hmade fun d' f hname => ?_, fun htorn => hw htorn.1⟩
        obtain ⟨hrb, hfb⟩ := ne_beside hp hname d d' made
        rw [get?_unwait_halfway hp, if_neg fun h => hw h.1, if_neg fun h => hrb h.2,
          if_neg fun h => hfb h.2]

/-- A torn run leaves the new root file. -/
theorem readText_of_torn {e : Error} (hp : p.Sound) (h : (p.install t).2.result = .error e)
    (ht : p.Torn t) : ¬SameGenerated t (p.install t).1 ∧
      (p.install t).1.readText (p.dir.child rootFile) = some (Template.rootFile p.mode) := by
  rcases sameGenerated_or_torn hp h with ⟨-, hnot⟩ | ⟨made, d, hm, hopens, -, htree⟩
  · exact absurd ht hnot
  · have hmade := makeDirectories_madeOnly t p.dir.folder
    rw [hm] at hmade
    obtain ⟨hw, hr, hf, htaken, -⟩ := (torn_iff hp hm hopens).1 ht
    have hk := (keepsDirs_staged hp hr hf).trans (keepsDirs_halfway hp hopens hr hf htaken)
    have hb := (awaited_functions_halfway hp hopens hr hf htaken).not_blocked
    have hget : (p.install t).1.get? (d ++ [rootFile]) =
        some (.file (.text (Template.rootFile p.mode))) := by
      rw [htree, get?_unwait_halfway hp, if_pos ⟨hw, rfl⟩]
      rfl
    constructor
    · intro hsame
      have hold := (hsame d rootFile (.inl rfl) _).1 hget
      exact waits_rootSlot.1 hw ((hmade.get?_file _).2 hold)
    · have hafter := hopens.keep (hk.trans (Slot.keepsDirs_unwait hb))
      rw [← htree] at hafter
      exact (hafter.readText_child IsGeneratedName.root.name _).2 hget

end Plan

/-- A run that fails leaves all generated files as they are, exactly if it is not torn. A torn run
leaves the new root file. -/
theorem sameGenerated_iff_of_error {c : Config} {env : Environment} {tree : FileTree} {e : Error}
    (h : (generate env c tree).2.result = .error e) :
    (SameGenerated tree (generate env c tree).1 ↔
      ∀ p, (c.plan env tree).result = .ok p → ¬p.Torn tree) ∧
    ∀ p, (c.plan env tree).result = .ok p → p.Torn tree →
      (generate env c tree).1.readText (p.dir.child rootFile) = some (Template.rootFile p.mode) := by
  rcases hplan : (c.plan env tree).result with e' | p
  · rw [(generate_of_no_plan hplan).1]
    exact ⟨⟨fun _ _ => nofun, fun _ _ _ _ _ => .rfl⟩, nofun⟩
  · obtain ⟨htree, hresult⟩ := generate_of_plan hplan
    obtain ⟨root, found, ts, -, -, -, -, ha, -⟩ := Config.exists_of_plan hplan
    have hp := Plan.sound_of_artifact ha
    rw [hresult] at h
    rw [htree]
    refine ⟨⟨fun hsame q hq ht => ?_, fun hnot => ?_⟩, fun q hq ht => ?_⟩
    · obtain rfl := Except.ok.inj hq
      exact (Plan.readText_of_torn hp h ht).1 hsame
    · rcases Plan.sameGenerated_or_torn hp h with ⟨hsame, -⟩ | ⟨-, -, -, -, ht, -⟩
      · exact hsame
      · exact absurd ht (hnot p rfl)
    · obtain rfl := Except.ok.inj hq
      exact (Plan.readText_of_torn hp h ht).2

/-- A crate with one tagged struct, where a directory is in the place of the functions. -/
def blockedCrate : FileTree :=
  ⟨[], [(["src"], .directory),
    (["src", "lib.rs"], .file (.text "#[derive(Sanitize)] struct Key(u8);")),
    (["out"], .directory), (["out", "sanitizations.rs"], .directory)]⟩

/-- A debug run over `src/lib.rs` into `out` fails there and leaves a new root file. -/
theorem not_sameGenerated_blockedCrate :
    let c : Config := ⟨some ⟨"src/lib.rs"⟩, some ⟨"out"⟩, some .debug, some "crate", none, false⟩
    (generate {} c blockedCrate).2.result =
        .error (.file .rename ⟨"out/sanitizations.rs.tmp"⟩) ∧
      ¬SameGenerated blockedCrate (generate {} c blockedCrate).1 := by
  intro c
  have h : (generate {} c blockedCrate).2.result =
      .error (.file .rename ⟨"out/sanitizations.rs.tmp"⟩) := by decide +kernel
  have htorn : ((c.plan {} blockedCrate).result.toOption.any fun p =>
      decide (p.Torn blockedCrate)) = true := by decide +kernel
  refine ⟨h, fun hsame => ?_⟩
  have hnot := (sameGenerated_iff_of_error h).1.1 hsame
  rcases hp : (c.plan {} blockedCrate).result with e | p
  · rw [hp] at htorn
    cases htorn
  · rw [hp] at htorn
    exact hnot p hp (of_decide_eq_true htorn)

/-! ### Failures before the first change -/

/-- Whether a run fails so before it writes: over its settings, over the sources, or since it cannot
read a file. -/
def Error.isEarly : Error → Bool
  | .missingConfig _ => true
  | .resolve _ => true
  | .file action _ => action = .read
  | .parse _ => true
  | .moduleNotFound _ _ _ => true
  | .endlessModules _ => true
  | .invalidMarker _ _ _ => true
  | .invalidNamespace _ => true

theorem Artifact.isEarly_of_stage {a : Artifact} {outDir : FilePath} {t : FileTree} {e : Error}
    (hf : IsGeneratedName a.fileName) (h : (a.stage outDir t).2 = .error e) :
    e.isEarly = false := by
  rw [stage_eq rfl hf rfl] at h
  split at h
  · obtain rfl := Except.error.inj h
    rfl
  · split at h
    · cases h
    · split at h
      · cases h
      · obtain rfl := Except.error.inj h
        rfl

theorem Staged.isEarly_of_commit {s : Staged} {t : FileTree} {e : Error}
    (h : (s.commit t).2 = .error e) : e.isEarly = false := by
  unfold commit at h
  split at h
  · cases h
  · split at h
    · cases h
    · obtain rfl := Except.error.inj h
      rfl

theorem Artifact.isEarly_of_writeTo {a : Artifact} {outDir : FilePath} {t : FileTree} {e : Error}
    (hf : IsGeneratedName a.fileName) (h : (a.writeTo outDir t).2 = .error e) :
    e.isEarly = false := by
  unfold writeTo at h
  split at h
  · exact Staged.isEarly_of_commit h
  · rename_i hs
    obtain rfl := Except.error.inj h
    exact isEarly_of_stage hf (congrArg Prod.snd hs)

theorem RootTask.fileName_of_artifact (t : RootTask) {outDir : FilePath} {a : Artifact}
    (h : t.artifact = .ok (outDir, a)) : a.fileName = rootFile := by
  unfold artifact at h
  split at h
  · cases h
  · cases h
  · cases h
  · split at h
    · obtain ⟨-, rfl⟩ := Prod.mk.inj (Except.ok.inj h)
      rfl
    · cases h

/-- Once a run writes, it fails over a directory, a file that it writes, or a file that it moves. -/
theorem Plan.Writes.isEarly_eq_false {p : Plan} {t t' : FileTree} {e : Error}
    (h : p.Writes t t' (.error e)) : e.isEarly = false := by
  cases h with
  | notMade => rfl
  | notOpen => rfl
  | opens _ _ hin => cases hin <;> rfl

/-- A run that fails before it writes leaves the whole tree as it was: a run over a crate, and one
that writes a root file only. -/
theorem tree_eq_of_isEarly {e : Error} (he : e.isEarly = true) :
    (∀ (env : Environment) (c : Config) (tree : FileTree),
      (generate env c tree).2.result = .error e → (generate env c tree).1 = tree) ∧
    ∀ (t : RootTask) (tree : FileTree), (t.run tree).2 = .error e → (t.run tree).1 = tree := by
  refine ⟨fun env c tree h => ?_, fun t tree h => ?_⟩
  · rcases hplan : (c.plan env tree).result with e' | p
    · exact (generate_of_no_plan hplan).1
    · obtain ⟨root, found, ts, -, -, -, -, ha, -⟩ := Config.exists_of_plan hplan
      have hw := p.install_writes (Plan.sound_of_artifact ha) tree
      rw [← (generate_of_plan hplan).2, h] at hw
      exact absurd he (by simp [hw.isEarly_eq_false])
  · unfold RootTask.run at h ⊢
    split at h
    · rename_i outDir a ha
      have hf : IsGeneratedName a.fileName := by
        rw [t.fileName_of_artifact ha]
        exact .root
      exact absurd he (by simp [Artifact.isEarly_of_writeTo hf h])
    · rfl

/-- A crate with a tagged enum, where an earlier run has left functions. -/
def enumCrate : FileTree :=
  ⟨[], [(["src"], .directory),
    (["src", "lib.rs"], .file (.text "#[derive(Sanitize)] enum Key { Short }")),
    (["out"], .directory), (["out", "sanitizations.rs"], .file (.text "stale"))]⟩

/-- A run over it fails over the enum, and one for a namespace that is none over that. The functions
of the earlier run stay, and no directory is made. -/
theorem tree_eq_enumCrate :
    let c : Config := ⟨some ⟨"src/lib.rs"⟩, some ⟨"out/new"⟩, some .debug, some "x", none, false⟩
    let t : RootTask := ⟨some ⟨"out/new"⟩, some "com.user", some true⟩
    (generate {} c enumCrate).2.result = .error (.resolve (.isEnum "Key")) ∧
      (generate {} c enumCrate).1 = enumCrate ∧
      (t.run enumCrate).2 = .error (.invalidNamespace ⟨"com.user", "com.user"⟩) ∧
      (t.run enumCrate).1 = enumCrate := by
  intro c t
  have hc : (generate {} c enumCrate).2.result = .error (.resolve (.isEnum "Key")) := by
    decide +kernel
  have ht : (t.run enumCrate).2 = .error (.invalidNamespace ⟨"com.user", "com.user"⟩) := by
    decide +kernel
  exact ⟨hc, (tree_eq_of_isEarly rfl).1 _ _ _ hc, ht, (tree_eq_of_isEarly rfl).2 _ _ ht⟩

end SanitizeGen
