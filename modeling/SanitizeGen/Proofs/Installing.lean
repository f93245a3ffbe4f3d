import SanitizeGen.Build.Generate
import SanitizeGen.Proofs.StagedFiles

/-!
# What installing a plan does

`Plan.Writes` lists the ways in which `Plan.install` can go, each with what holds in the tree, the
tree that is left and the result. Every run is one of them (`install_writes`). The root file and the
file with the functions are slots of one directory whose four places differ (`apart_slots`).
-/

namespace SanitizeGen

open FileTree

namespace Slot

structure Apart (s r : Slot) : Prop where
  place_place : s.place ≠ r.place
  place_beside : s.place ≠ r.beside
  beside_place : s.beside ≠ r.place
  beside_beside : s.beside ≠ r.beside

variable {s r : Slot} {t : FileTree}

namespace Apart

theorem symm (h : s.Apart r) : r.Apart s :=
  ⟨h.place_place.symm, h.beside_place.symm, h.place_beside.symm, h.beside_beside.symm⟩

variable (h : s.Apart r)

include h

theorem get?_place_wait : (r.wait t).get? s.place = t.get? s.place := by
  rw [get?_wait, if_neg fun hr => h.place_beside hr.2]

theorem get?_beside_wait : (r.wait t).get? s.beside = t.get? s.beside := by
  rw [get?_wait, if_neg fun hr => h.beside_beside hr.2]

theorem get?_place_deliver : (r.deliver t).get? s.place = t.get? s.place := by
  rw [get?_deliver, if_neg fun hr => h.place_place hr.2, if_neg fun hr => h.place_beside hr.2]

theorem get?_beside_deliver : (r.deliver t).get? s.beside = t.get? s.beside := by
  rw [get?_deliver, if_neg fun hr => h.beside_place hr.2, if_neg fun hr => h.beside_beside hr.2]

theorem get?_beside_unwait : (r.unwait t).get? s.beside = t.get? s.beside := by
  rw [get?_unwait, if_neg fun hr => h.beside_beside hr.2]

end Apart

theorem keepsDirs_unwait (h : ¬s.Blocked t) : KeepsDirs t (s.unwait t) := by
  rw [unwait]
  split
  · rename_i hw
    exact .erase s.beside_ne_nil fun hd => h ⟨hw, hd⟩
  · exact .refl t

theorem place_ne_beside (s : Slot) : s.place ≠ s.beside := by
  intro he
  have hname : s.name = waitingName s.name := by simpa [place, beside] using he
  exact IsGeneratedName.ne_waitingName s.name hname

theorem get?_place_wait : (s.wait t).get? s.place = t.get? s.place := by
  rw [get?_wait, if_neg fun h => s.place_ne_beside h.2]

/-- What is done elsewhere leaves a file waiting. -/
theorem Awaited.keep {t' : FileTree} (h : s.Awaited t) (hk : KeepsDirs t t')
    (hb : t'.get? s.beside = t.get? s.beside) : s.Awaited t' :=
  ⟨h.name, h.opens.keep hk, fun hw => hb.trans (h.entry hw)⟩

end Slot

namespace Plan

variable (p : Plan) (d : Location) (t : FileTree)

def dir : FilePath := p.ns.dirIn p.outDir

/-- The functions go beside the root file. -/
def Sound : Prop := ∀ a ∈ p.artifact, a.ns = p.ns ∧ a.fileName = sanitizationsFile

def rootSlot : Slot := (Artifact.root p.ns p.mode).slot p.dir d t

/-- The file with the functions in its directory. Without functions nothing waits. -/
def functionsSlot : Slot :=
  match p.artifact with
  | some a => a.slot p.dir d t
  | none => ⟨p.dir, d, sanitizationsFile, "", false⟩

/-- The tree with both files staged. -/
def staged : FileTree := (p.functionsSlot d t).wait ((p.rootSlot d t).wait t)

/-- The tree with the root file in place. -/
def halfway : FileTree := (p.rootSlot d t).deliver (p.staged d t)

/-- Without functions, those of an earlier run are removed. -/
def sweep : FileTree :=
  if p.artifact.isSome then t
  else
    match t.get? (d ++ [sanitizationsFile]) with
    | some (.file _) => t.erase (d ++ [sanitizationsFile])
    | _ => t

/-- What a run reports that writes all files. -/
def report : Report :=
  ⟨p.mode, p.ns, p.dir.child rootFile, p.artifact.map fun _ => p.sanitizationsPath,
    if p.artifact.isSome then p.count else 0⟩

/-- How writing goes once the directory at `d` is there. -/
inductive WritesIn : FileTree → Except Error Report → Prop where
  | rootBlocked : (p.rootSlot d t).Blocked t →
      WritesIn t (.error (.file .write (p.dir.child (waitingName rootFile))))
  | functionsBlocked : ¬(p.rootSlot d t).Blocked t → (p.functionsSlot d t).Blocked t →
      WritesIn ((p.rootSlot d t).unwait ((p.rootSlot d t).wait t))
        (.error (.file .write (p.dir.child (waitingName sanitizationsFile))))
  | rootTaken : ¬(p.rootSlot d t).Blocked t → ¬(p.functionsSlot d t).Blocked t →
      (p.rootSlot d t).Taken t →
      WritesIn ((p.functionsSlot d t).unwait ((p.rootSlot d t).unwait (p.staged d t)))
        (.error (.file .rename (p.dir.child (waitingName rootFile))))
  | functionsTaken : ¬(p.rootSlot d t).Blocked t → ¬(p.functionsSlot d t).Blocked t →
      ¬(p.rootSlot d t).Taken t → (p.functionsSlot d t).Taken t →
      WritesIn ((p.functionsSlot d t).unwait (p.halfway d t))
        (.error (.file .rename (p.dir.child (waitingName sanitizationsFile))))
  | done : ¬(p.rootSlot d t).Blocked t → ¬(p.functionsSlot d t).Blocked t →
      ¬(p.rootSlot d t).Taken t → ¬(p.functionsSlot d t).Taken t →
      WritesIn (p.sweep d ((p.functionsSlot d t).deliver (p.halfway d t))) (.ok p.report)

/-- How writing goes: the directory is made first. -/
inductive Writes : FileTree → Except Error Report → Prop where
  | notMade {made : FileTree} : t.makeDirectories p.dir.folder = (made, false) →
      Writes made (.error (.file .makeDirectory p.dir.folder))
  | notOpen {made : FileTree} : t.makeDirectories p.dir.folder = (made, true) →
      (∀ d, ¬made.Opens p.dir d) →
      Writes made (.error (.file .write (p.dir.child (waitingName rootFile))))
  | opens {made t' : FileTree} {d : Location} {o : Except Error Report} :
      t.makeDirectories p.dir.folder = (made, true) → made.Opens p.dir d →
      p.WritesIn d made t' o → Writes t' o

variable {p d t} {made : FileTree}

theorem sound_of_artifact {runtime : String} {ts : List Target}
    (h : p.artifact = Pass.artifact? ⟨p.mode, p.ns, runtime⟩ ts) : p.Sound := by
  intro a ha
  rw [h, Pass.artifact?] at ha
  split at ha
  · cases ha
  · obtain rfl := Option.some.inj ha
    exact ⟨rfl, rfl⟩

theorem Sound.isGeneratedName {a : Artifact} (hp : p.Sound) (ha : p.artifact = some a) :
    IsGeneratedName a.fileName :=
  (hp a ha).2 ▸ .sanitizations

theorem functionsSlot_eq {a : Artifact} (ha : p.artifact = some a) :
    p.functionsSlot d t = a.slot p.dir d t := by
  rw [functionsSlot, ha]

theorem home_functionsSlot : (p.functionsSlot d t).home = d := by
  rw [functionsSlot]
  split <;> rfl

theorem dir_functionsSlot : (p.functionsSlot d t).dir = p.dir := by
  rw [functionsSlot]
  split <;> rfl

theorem name_functionsSlot (hp : p.Sound) : (p.functionsSlot d t).name = sanitizationsFile := by
  rw [functionsSlot]
  split
  · rename_i a ha
    exact (hp a ha).2
  · rfl

theorem waits_functionsSlot_of_none (ha : p.artifact = none) :
    (p.functionsSlot d t).waits = false := by
  rw [functionsSlot, ha]

theorem place_functionsSlot (hp : p.Sound) :
    (p.functionsSlot d t).place = d ++ [sanitizationsFile] := by
  rw [Slot.place, home_functionsSlot, name_functionsSlot hp]

theorem beside_functionsSlot (hp : p.Sound) :
    (p.functionsSlot d t).beside = d ++ [waitingName sanitizationsFile] := by
  rw [Slot.beside, home_functionsSlot, name_functionsSlot hp]

theorem waits_rootSlot : (p.rootSlot d made).waits = true ↔
    made.get? (d ++ [rootFile]) ≠ some (.file (.text (Template.rootFile p.mode))) :=
  decide_eq_true_iff

theorem waits_functionsSlot {a : Artifact} (hp : p.Sound) (ha : p.artifact = some a) :
    (p.functionsSlot d made).waits = true ↔
      made.get? (d ++ [sanitizationsFile]) ≠ some (.file (.text a.contents)) := by
  rw [functionsSlot_eq ha, ← (hp a ha).2]
  exact decide_eq_true_iff

theorem entry_functionsSlot {a : Artifact} (ha : p.artifact = some a) :
    (p.functionsSlot d made).entry = .file (.text a.contents) := by
  rw [functionsSlot_eq ha]
  rfl

/-- The two files and the two places beside them differ. -/
theorem apart_slots (hp : p.Sound) : (p.rootSlot d t).Apart (p.functionsSlot d t) := by
  have hne : rootFile ≠ sanitizationsFile ∧ rootFile ≠ waitingName sanitizationsFile ∧
      waitingName rootFile ≠ sanitizationsFile ∧
      waitingName rootFile ≠ waitingName sanitizationsFile := by decide
  have hname : (p.rootSlot d t).name = rootFile := rfl
  have hhome : (p.rootSlot d t).home = d := rfl
  constructor <;>
    simp only [Slot.place, Slot.beside, hname, hhome, home_functionsSlot, name_functionsSlot hp,
      ne_eq, List.append_cancel_left_eq, List.cons.injEq, and_true, hne, not_false_eq_true]

/-! ### Staging -/

section

variable (hp : p.Sound) (hm : t.makeDirectories p.dir.folder = (made, true))
  (h : made.Opens p.dir d)

include hm

theorem makeDirectories_again {t' : FileTree} (hk : KeepsDirs made t') :
    t'.makeDirectories p.dir.folder = (t', true) := by
  refine makeDirectories_of_keepsDirs (t := t) ?_ ?_
  · rw [hm]
  · rw [hm]
    exact hk

include h

theorem stage_root :
    ((p.rootSlot d made).Blocked made → (Artifact.root p.ns p.mode).stage p.outDir t =
      (made, .error (.file .write (p.dir.child (waitingName rootFile))))) ∧
    (¬(p.rootSlot d made).Blocked made → (Artifact.root p.ns p.mode).stage p.outDir t =
      ((p.rootSlot d made).wait made, .ok (p.rootSlot d made).staged)) :=
  Artifact.stage_of_opens rfl .root hm h

include hp

/-- A waiting root file does not matter when the functions are staged. -/
theorem stage_functions {a : Artifact} (ha : p.artifact = some a)
    (hr : ¬(p.rootSlot d made).Blocked made) :
    ((p.functionsSlot d made).Blocked made →
      a.stage p.outDir ((p.rootSlot d made).wait made) = ((p.rootSlot d made).wait made,
        .error (.file .write (p.dir.child (waitingName sanitizationsFile))))) ∧
    (¬(p.functionsSlot d made).Blocked made →
      a.stage p.outDir ((p.rootSlot d made).wait made) =
        (p.staged d made, .ok (p.functionsSlot d made).staged)) := by
  have hapart := (apart_slots (d := d) (t := made) hp).symm
  have hk := Slot.keepsDirs_wait hr
  have hns : a.ns.dirIn p.outDir = p.dir := by rw [(hp a ha).1, dir]
  obtain ⟨hblocked, hfree⟩ := Artifact.stage_of_opens hns (hp.isGeneratedName ha)
    (makeDirectories_again hm hk) (h.keep hk)
  rw [functionsSlot_eq ha] at hapart
  have hslot : a.slot p.dir d ((p.rootSlot d made).wait made) = a.slot p.dir d made := by
    have hplace := hapart.get?_place_wait (t := made)
    simp only [Slot.place, Artifact.slot] at hplace ⊢
    rw [hplace]
  have hbeside := hapart.get?_beside_wait (t := made)
  rw [hslot, Slot.Blocked, hbeside] at hblocked hfree
  rw [(hp a ha).2] at hblocked
  rw [staged, functionsSlot_eq ha]
  exact ⟨hblocked, hfree⟩

/-- Staging stops at the first of the two files that is blocked. -/
theorem stageAll_of_opens :
    ((p.rootSlot d made).Blocked made → p.stageAll t =
      (made, .error (.file .write (p.dir.child (waitingName rootFile))))) ∧
    (¬(p.rootSlot d made).Blocked made → (p.functionsSlot d made).Blocked made → p.stageAll t =
      ((p.rootSlot d made).unwait ((p.rootSlot d made).wait made),
        .error (.file .write (p.dir.child (waitingName sanitizationsFile))))) ∧
    (¬(p.rootSlot d made).Blocked made → ¬(p.functionsSlot d made).Blocked made → p.stageAll t =
      (p.staged d made, .ok ((p.rootSlot d made).staged,
        p.artifact.map fun _ => (p.functionsSlot d made).staged))) := by
  obtain ⟨hblocked, hfree⟩ := stage_root hm h
  refine ⟨fun hr => ?_, fun hr hf => ?_, fun hr hf => ?_⟩
  · unfold stageAll
    rw [hblocked hr]
  · rcases ha : p.artifact with _ | a
    · have hw := hf.1
      rw [waits_functionsSlot_of_none ha] at hw
      cases hw
    · have hdrop := (Artifact.awaited_slot .root h hr).drop_eq
      unfold stageAll
      rw [hfree hr]
      simp only [ha, (stage_functions hp hm h ha hr).1 hf]
      exact congrArg (·, _) hdrop
  · rcases ha : p.artifact with _ | a
    · have hw := waits_functionsSlot_of_none (d := d) (t := made) ha
      unfold stageAll
      rw [hfree hr]
      simp [ha, staged, Slot.wait, hw]
    · unfold stageAll
      rw [hfree hr]
      simp only [ha, (stage_functions hp hm h ha hr).2 hf, Option.map_some]

end

/-! ### Committing -/

section

variable (hp : p.Sound) (h : made.Opens p.dir d) (hr : ¬(p.rootSlot d made).Blocked made)
  (hf : ¬(p.functionsSlot d made).Blocked made)

include hp hr hf

omit hr in
theorem not_blocked_functions :
    ¬(p.functionsSlot d made).Blocked ((p.rootSlot d made).wait made) := by
  have hb := (apart_slots (d := d) (t := made) hp).symm.get?_beside_wait (t := made)
  rwa [Slot.Blocked, hb]

theorem keepsDirs_staged : KeepsDirs made (p.staged d made) :=
  (Slot.keepsDirs_wait hr).trans (Slot.keepsDirs_wait (not_blocked_functions hp hf))

include h

theorem awaited_root : (p.rootSlot d made).Awaited (p.staged d made) :=
  (Artifact.awaited_slot .root h hr).keep
    (Slot.keepsDirs_wait (not_blocked_functions hp hf)) (apart_slots hp).get?_beside_wait

theorem awaited_functions : (p.functionsSlot d made).Awaited (p.staged d made) := by
  refine ⟨name_functionsSlot hp ▸ .sanitizations, ?_, fun hw => ?_⟩
  · rw [dir_functionsSlot, home_functionsSlot]
    exact h.keep (keepsDirs_staged hp hr hf)
  · rw [staged, Slot.get?_wait, if_pos ⟨hw, rfl⟩]

omit hr hf h in
theorem taken_root_staged :
    (p.rootSlot d made).Taken (p.staged d made) ↔ (p.rootSlot d made).Taken made := by
  rw [Slot.Taken, Slot.Taken, staged, (apart_slots hp).get?_place_wait, Slot.get?_place_wait]

/-- The root file moves into place, unless a directory is there. -/
theorem commit_root :
    ((p.rootSlot d made).Taken made → (p.rootSlot d made).staged.commit (p.staged d made) =
      ((p.rootSlot d made).unwait (p.staged d made),
        .error (.file .rename (p.dir.child (waitingName rootFile))))) ∧
    (¬(p.rootSlot d made).Taken made → (p.rootSlot d made).staged.commit (p.staged d made) =
      (p.halfway d made, .ok (p.dir.child rootFile))) := by
  have hc := (awaited_root hp h hr hf).commit_eq
  rw [taken_root_staged hp] at hc
  exact hc

theorem dropStaged_functions :
    dropStaged (p.artifact.map fun _ => (p.functionsSlot d made).staged)
      ((p.rootSlot d made).unwait (p.staged d made)) =
      (p.functionsSlot d made).unwait ((p.rootSlot d made).unwait (p.staged d made)) := by
  have hroot := (awaited_root hp h hr hf).not_blocked
  have ha := (awaited_functions hp h hr hf).keep (Slot.keepsDirs_unwait hroot)
    (apart_slots hp).symm.get?_beside_unwait
  rcases hart : p.artifact with _ | a
  · simp [dropStaged, Slot.unwait, waits_functionsSlot_of_none hart]
  · exact ha.drop_eq

variable (ht : ¬(p.rootSlot d made).Taken made)

include ht

theorem keepsDirs_halfway : KeepsDirs (p.staged d made) (p.halfway d made) :=
  Slot.keepsDirs_deliver (awaited_root hp h hr hf).not_blocked fun hs =>
    ht ((taken_root_staged hp).1 hs)

theorem awaited_functions_halfway : (p.functionsSlot d made).Awaited (p.halfway d made) :=
  (awaited_functions hp h hr hf).keep (keepsDirs_halfway hp h hr hf ht)
    (apart_slots hp).symm.get?_beside_deliver

omit hr hf h ht in
theorem taken_functions_halfway :
    (p.functionsSlot d made).Taken (p.halfway d made) ↔ (p.functionsSlot d made).Taken made := by
  have hapart := (apart_slots (d := d) (t := made) hp).symm
  rw [Slot.Taken, Slot.Taken, halfway, hapart.get?_place_deliver, staged, Slot.get?_place_wait,
    hapart.get?_place_wait]

/-- The functions move into place, unless a directory is there. -/
theorem commit_functions :
    ((p.functionsSlot d made).Taken made →
      (p.functionsSlot d made).staged.commit (p.halfway d made) =
        ((p.functionsSlot d made).unwait (p.halfway d made),
          .error (.file .rename (p.dir.child (waitingName sanitizationsFile))))) ∧
    (¬(p.functionsSlot d made).Taken made →
      (p.functionsSlot d made).staged.commit (p.halfway d made) =
        ((p.functionsSlot d made).deliver (p.halfway d made), .ok p.sanitizationsPath)) := by
  have hc := (awaited_functions_halfway hp h hr hf ht).commit_eq
  rw [taken_functions_halfway hp, dir_functionsSlot, name_functionsSlot hp] at hc
  exact hc

/-- Without functions, those of an earlier run are removed and no others. -/
theorem removeStale_eq (ha : p.artifact = none) :
    (p.removeStale (p.halfway d made)).1 = p.sweep d (p.halfway d made) ∧
      (p.removeStale (p.halfway d made)).2.result = .ok () := by
  have hopens := (awaited_functions_halfway hp h hr hf ht).opens
  rw [dir_functionsSlot, home_functionsSlot] at hopens
  have hname := IsGeneratedName.sanitizations.name
  have hfile := hopens.isFile_child hname
  rw [sweep, if_neg (by simp [ha])]
  unfold removeStale
  by_cases hf : (p.halfway d made).isFile p.sanitizationsPath = true
  · obtain ⟨c, hc⟩ := hfile.1 hf
    have hremove : (p.halfway d made).removeFile p.sanitizationsPath = _ :=
      hopens.removeFile_child hname hc
    rw [if_pos hf, hremove]
    simp only [hc, and_self]
  · rw [if_neg hf]
    have hnone : ∀ c, (p.halfway d made).get? (d ++ [sanitizationsFile]) ≠ some (.file c) :=
      fun c hc => hf (hfile.2 ⟨c, hc⟩)
    split
    · rename_i c hc
      exact absurd hc (hnone c)
    · exact ⟨rfl, rfl⟩

/-- The functions are committed, or those of an earlier run are removed. -/
theorem finish_eq :
    ((p.functionsSlot d made).Taken made →
      (p.finish (p.artifact.map fun _ => (p.functionsSlot d made).staged) (p.halfway d made)).1 =
        (p.functionsSlot d made).unwait (p.halfway d made) ∧
      (p.finish (p.artifact.map fun _ => (p.functionsSlot d made).staged)
        (p.halfway d made)).2.result =
          .error (.file .rename (p.dir.child (waitingName sanitizationsFile)))) ∧
    (¬(p.functionsSlot d made).Taken made →
      (p.finish (p.artifact.map fun _ => (p.functionsSlot d made).staged) (p.halfway d made)).1 =
        p.sweep d ((p.functionsSlot d made).deliver (p.halfway d made)) ∧
      (p.finish (p.artifact.map fun _ => (p.functionsSlot d made).staged)
        (p.halfway d made)).2.result = .ok (p.artifact.map fun _ => p.sanitizationsPath)) := by
  obtain ⟨hft, hfc⟩ := commit_functions hp h hr hf ht
  rcases ha : p.artifact with _ | a
  · have hw := waits_functionsSlot_of_none (d := d) (t := made) ha
    obtain ⟨htree, hresult⟩ := removeStale_eq hp h hr hf ht ha
    refine ⟨fun htf => ?_, fun _ => ?_⟩
    · rw [htf.1] at hw
      cases hw
    · unfold finish
      simp only [Option.map_none, Slot.deliver, hw, Bool.false_eq_true, ↓reduceIte]
      split
      · rename_i hrs
        rw [hrs] at htree
        exact ⟨htree, rfl⟩
      · rename_i hrs
        rw [hrs] at hresult
        cases hresult
  · refine ⟨fun htf => ?_, fun htf => ?_⟩
    · unfold finish
      simp only [Option.map_some, hft htf, and_self]
    · unfold finish
      simp only [Option.map_some, hfc htf, sweep, ha, Option.isSome_some, if_true, and_self]

end

theorem install_of_stageAll_error {t' : FileTree} {e : Error} (h : p.stageAll t = (t', .error e)) :
    p.install t = (t', ⟨[], [], .error e⟩) := by
  unfold install
  rw [h]

theorem install_of_stage_error {t' : FileTree} {e : Error}
    (h : (Artifact.root p.ns p.mode).stage p.outDir t = (t', .error e)) :
    p.install t = (t', ⟨[], [], .error e⟩) := by
  refine install_of_stageAll_error ?_
  unfold stageAll
  rw [h]

theorem install_of_commit {t₁ t₂ : FileTree} {root : Staged} {functions : Option Staged}
    {path : FilePath} (hs : p.stageAll t = (t₁, .ok (root, functions)))
    (hc : root.commit t₁ = (t₂, .ok path)) :
    (p.install t).1 = (p.finish functions t₂).1 ∧ (p.install t).2.result =
      (p.finish functions t₂).2.result.map fun s =>
        ⟨p.mode, p.ns, path, s, if s.isSome then p.count else 0⟩ := by
  unfold install
  rw [hs]
  simp only [hc]
  rcases p.finish functions t₂ with ⟨t₃, log, printed, e | s⟩
  · exact ⟨rfl, rfl⟩
  · exact ⟨rfl, rfl⟩

/-- Writing goes in one of the ways that are listed. -/
theorem install_writes (hp : p.Sound) (t : FileTree) :
    p.Writes t (p.install t).1 (p.install t).2.result := by
  obtain ⟨made, hm⟩ : ∃ made, (t.makeDirectories p.dir.folder).1 = made := ⟨_, rfl⟩
  rcases hok : (t.makeDirectories p.dir.folder).2 with _ | _
  · have hm : t.makeDirectories p.dir.folder = (made, false) := Prod.ext hm hok
    rw [install_of_stage_error (Artifact.stage_of_not_made rfl .root hm)]
    exact .notMade hm
  have hm : t.makeDirectories p.dir.folder = (made, true) := Prod.ext hm hok
  by_cases hd : ∃ d, made.Opens p.dir d
  · obtain ⟨d, h⟩ := hd
    refine .opens hm h ?_
    obtain ⟨hrb, hfb, hfree⟩ := stageAll_of_opens hp hm h
    by_cases hr : (p.rootSlot d made).Blocked made
    · rw [install_of_stageAll_error (hrb hr)]
      exact .rootBlocked hr
    by_cases hf : (p.functionsSlot d made).Blocked made
    · rw [install_of_stageAll_error (hfb hr hf)]
      exact .functionsBlocked hr hf
    obtain ⟨hrt, hrc⟩ := commit_root hp h hr hf
    by_cases ht : (p.rootSlot d made).Taken made
    · unfold install
      rw [hfree hr hf]
      simp only [hrt ht, dropStaged_functions hp h hr hf]
      exact .rootTaken hr hf ht
    obtain ⟨htree, hresult⟩ := install_of_commit (hfree hr hf) (hrc ht)
    obtain ⟨hft, hfc⟩ := finish_eq hp h hr hf ht
    by_cases htf : (p.functionsSlot d made).Taken made
    · rw [htree, hresult, (hft htf).1, (hft htf).2]
      exact .functionsTaken hr hf ht htf
    · rw [htree, hresult, (hfc htf).1, (hfc htf).2]
      have hreport := WritesIn.done hr hf ht htf
      rw [report] at hreport
      simpa [Except.map] using hreport
  · have hclosed : ∀ d, ¬made.Opens p.dir d := fun d h => hd ⟨d, h⟩
    rw [install_of_stage_error (Artifact.stage_of_not_opens rfl .root hm hclosed)]
    exact .notOpen hm hclosed

/-! ### What is left -/

theorem get?_halfway (m : Location) : (p.halfway d made).get? m =
    if (p.rootSlot d made).waits = true ∧ m = (p.rootSlot d made).place then
      some (p.rootSlot d made).entry
    else if (p.rootSlot d made).waits = true ∧ m = (p.rootSlot d made).beside then none
    else if (p.functionsSlot d made).waits = true ∧ m = (p.functionsSlot d made).beside then
      some (p.functionsSlot d made).entry
    else made.get? m := by
  rw [halfway, Slot.get?_deliver, staged, Slot.get?_wait, Slot.get?_wait]
  by_cases hb : (p.rootSlot d made).waits = true ∧ m = (p.rootSlot d made).beside
  · simp only [if_pos hb]
  · simp only [if_neg hb]

theorem get?_unwait_halfway (hp : p.Sound) (m : Location) :
    ((p.functionsSlot d made).unwait (p.halfway d made)).get? m =
      if (p.rootSlot d made).waits = true ∧ m = (p.rootSlot d made).place then
        some (p.rootSlot d made).entry
      else if (p.rootSlot d made).waits = true ∧ m = (p.rootSlot d made).beside then none
      else if (p.functionsSlot d made).waits = true ∧ m = (p.functionsSlot d made).beside then none
      else made.get? m := by
  have hapart := apart_slots (d := d) (t := made) hp
  rw [Slot.get?_unwait, get?_halfway]
  by_cases hb : (p.functionsSlot d made).waits = true ∧ m = (p.functionsSlot d made).beside
  · rw [if_pos hb, if_neg fun h => hapart.place_beside (h.2.symm.trans hb.2)]
    simp only [if_pos hb, ite_self]
  · simp only [if_neg hb]

theorem get?_delivered (m : Location) :
    ((p.functionsSlot d made).deliver (p.halfway d made)).get? m =
      if (p.functionsSlot d made).waits = true ∧ m = (p.functionsSlot d made).place then
        some (p.functionsSlot d made).entry
      else ((p.functionsSlot d made).unwait (p.halfway d made)).get? m := by
  rw [Slot.get?_deliver, Slot.get?_unwait]

theorem keepsDirs_sweep : KeepsDirs t (p.sweep d t) := by
  rw [sweep]
  split
  · exact .refl t
  · split
    · rename_i c hc
      exact .erase (by simp) (by simp [hc])
    · exact .refl t

theorem keepsDirs_done (hp : p.Sound) (h : made.Opens p.dir d)
    (hr : ¬(p.rootSlot d made).Blocked made) (hf : ¬(p.functionsSlot d made).Blocked made)
    (ht : ¬(p.rootSlot d made).Taken made) (htf : ¬(p.functionsSlot d made).Taken made) :
    KeepsDirs made (p.sweep d ((p.functionsSlot d made).deliver (p.halfway d made))) := by
  have hk := (keepsDirs_staged hp hr hf).trans (keepsDirs_halfway hp h hr hf ht)
  have hb := (awaited_functions_halfway hp h hr hf ht).not_blocked
  rw [← taken_functions_halfway hp] at htf
  exact (hk.trans (Slot.keepsDirs_deliver hb htf)).trans keepsDirs_sweep

theorem get?_sweep_of_ne {m : Location} (hm : m ≠ d ++ [sanitizationsFile]) :
    (p.sweep d t).get? m = t.get? m := by
  rw [sweep]
  split
  · rfl
  · split
    · rw [get?_erase (by simp), if_neg hm]
    · rfl

/-- Functions of an earlier run are gone, and anything else that is in their place is left there. -/
theorem get?_sweep_of_none (ha : p.artifact = none) :
    (p.sweep d t).get? (d ++ [sanitizationsFile]) =
      match t.get? (d ++ [sanitizationsFile]) with
      | some (.file _) => none
      | e => e := by
  rw [sweep, if_neg (by simp [ha])]
  split
  · rw [get?_erase (by simp), if_pos rfl]
  · rfl

end Plan

end SanitizeGen
