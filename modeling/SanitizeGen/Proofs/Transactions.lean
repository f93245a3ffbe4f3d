import SanitizeGen.Proofs.StagingSessions

/-!
# Staged files as transactions

A session is orderly if all its files are staged under one directory, no two live handles have one
path, and nothing else changes there (`Orderly`). Then what is staged does not show before it is
committed. `Tidy` is what each step keeps (`Tidy.step`), so it holds after every run
(`tidy_of_run`); `transacts_of_run` reads off it what the session has done and what its next step
will do.
-/

namespace SanitizeGen

open FileTree

/-- Where a generated file goes, and where its contents wait. -/
def Artifact.paths (a : Artifact) (outDir : FilePath) : List FilePath :=
  [a.pathIn outDir, Artifact.stagingPath (a.pathIn outDir)]

/-! ### Changes that spare a handle -/

namespace Handle

/-- A change that a handle does not notice. -/
structure Spared (k : Handle) (t t' : FileTree) : Prop where
  stands : k.Stands t'
  place : t'.get? k.place = t.get? k.place
  beside : t'.get? k.beside = t.get? k.beside

/-- The tree without a handle: only the places of its file have changed, and nothing waits. -/
structure Settled (k : Handle) (t t' : FileTree) : Prop where
  keeps : KeepsDirs t t'
  other : ∀ m, m ≠ k.place → m ≠ k.beside → t'.get? m = t.get? m
  clear : k.waits = true → t'.get? k.beside = none
  idle : k.waits = false → t' = t

variable {k : Handle} {t t' : FileTree} {outDir : FilePath}

/-- Directories for other files are no places of generated files. -/
theorem Stands.spared_of_madeOnly {ns : Namespace} (hs : k.Stands t) (ho : k.outDir = outDir)
    (h : MadeOnly t t' (ancestors (ns.dirIn outDir).folder)) : k.Spared t t' := by
  obtain ⟨b, hb, -⟩ := hs.opens.exists_of_dirIn
  rw [ho] at hb
  have hmade {d : Location} {f : String} (hf : ¬Namespace.IsFolder f) :
      t'.get? (d ++ [f]) = t.get? (d ++ [f]) := by
    rcases h.get?_of_dirIn hs.name.name hb (d ++ [f]) with heq | ⟨m, n, hn, he⟩
    · exact heq
    · obtain rfl := List.singleton_inj.1 (List.append_inj' he rfl).2
      exact absurd (ns.isFolder_of_mem hn) hf
  exact ⟨hs.keep h.keepsDirs, hmade hs.name.not_isFolder, hmade (not_isFolder_waitingName _)⟩

/-- Handles of different paths have nothing in common. -/
theorem Stands.apart_of_path_ne {j : Handle} (hj : j.Stands t) (hk : k.Stands t)
    (ho : j.outDir = k.outDir) (hne : j.path ≠ k.path) : j.slot.Apart k.slot := by
  refine hj.apart hk fun he => hne ?_
  have hopens : t.Opens (j.artifact.ns.dirIn k.outDir) j.home := ho ▸ hj.opens
  rw [hj.path_eq, hk.path_eq, ho]
  exact pathIn_eq_of_place hopens hk.opens he

theorem settled_unwait (h : k.slot.Awaited t) : k.Settled t (k.slot.unwait t) where
  keeps := Slot.keepsDirs_unwait h.not_blocked
  other m _ hb := by rw [Slot.get?_unwait, if_neg fun hm => hb hm.2]
  clear hw := by
    rw [Slot.get?_unwait]
    exact if_pos ⟨hw, rfl⟩
  idle hw := by
    have hw : ¬k.slot.waits = true := by simp [slot, hw]
    rw [Slot.unwait, if_neg hw]

theorem settled_deliver (h : k.slot.Awaited t) (ht : ¬k.slot.Taken t) :
    k.Settled t (k.slot.deliver t) where
  keeps := Slot.keepsDirs_deliver h.not_blocked ht
  other m hp hb := by
    rw [Slot.get?_deliver, if_neg fun hm => hp hm.2, if_neg fun hm => hb hm.2]
  clear hw := by
    rw [Slot.get?_deliver, if_neg fun hm => k.slot.place_ne_beside hm.2.symm]
    exact if_pos ⟨hw, rfl⟩
  idle hw := by
    have hw : ¬k.slot.waits = true := by simp [slot, hw]
    rw [Slot.deliver, if_neg hw]

/-- A commit puts the contents into place, or it fails and they are gone. -/
theorem commit_cases (h : k.slot.Awaited t) (hs : k.Stands t) :
    (∃ e, k.staged.commit t = (k.slot.unwait t, .error e)) ∨
      ¬k.slot.Taken t ∧ k.staged.commit t = (k.slot.deliver t, .ok k.path) := by
  obtain ⟨htaken, hfree⟩ := h.commit_eq
  rw [hs.path_eq, hs.staged]
  by_cases ht : k.slot.Taken t
  · exact .inl ⟨_, htaken ht⟩
  · exact .inr ⟨ht, hfree ht⟩

theorem settled_commit (h : k.slot.Awaited t) (hs : k.Stands t) :
    k.Settled t (k.staged.commit t).1 := by
  rcases commit_cases h hs with ⟨e, he⟩ | ⟨ht, hok⟩
  · rw [he]
    exact settled_unwait h
  · rw [hok]
    exact settled_deliver h ht

theorem settled_drop (h : k.slot.Awaited t) (hs : k.Stands t) : k.Settled t (k.staged.drop t) := by
  rw [hs.staged, h.drop_eq]
  exact settled_unwait h

end Handle

namespace Session

/-- Nothing changes under the directory at `outDir`, if there is one. -/
def Untouched (outDir : FilePath) (t t' : FileTree) : Prop :=
  ∀ b, t.dirAt outDir = some b →
    t'.dirAt outDir = some b ∧ ∀ l, b <+: l → t'.get? l = t.get? l

theorem Untouched.spared {k : Handle} {t t' : FileTree} {outDir : FilePath}
    (h : Untouched outDir t t') (hs : k.Stands t) (ho : k.outDir = outDir) : k.Spared t t' := by
  obtain ⟨b, hb, hd⟩ := hs.opens.exists_of_dirIn
  rw [ho] at hb
  obtain ⟨hb', heq⟩ := h b hb
  have hunder (f : String) : t'.get? (k.home ++ [f]) = t.get? (k.home ++ [f]) := by
    refine heq _ ?_
    rw [hd, List.append_assoc]
    exact List.prefix_append _ _
  have hopens : t.Opens (k.artifact.ns.dirIn outDir) k.home := ho ▸ hs.opens
  refine ⟨⟨hs.name, hs.staged, ?_⟩, hunder _, hunder _⟩
  show t'.Opens (k.artifact.ns.dirIn k.outDir) k.home
  rw [ho]
  exact hopens.keep_of_eq hb hb' heq

/-! ### Orderly sessions -/

/-- What is done in an orderly session. Of a file that is staged there is no other handle. -/
def Orderly (outDir : FilePath) (s : Session) (e : Event) (v : Session) : Prop :=
  match e with
  | .staged k => k.outDir = outDir ∧ IsGeneratedName k.artifact.fileName ∧
      ∀ h ∈ s.live, h.path ≠ k.path
  | .refused o a => o = outDir ∧ IsGeneratedName a.fileName
  | .other => Untouched outDir s.tree v.tree
  | _ => True

/-- What holds all along an orderly session. -/
structure Tidy (outDir : FilePath) (es : List Event) (s : Session) : Prop where
  stands : ∀ k, .staged k ∈ es → k.outDir = outDir ∧ k.Stands s.tree
  live : ∀ k ∈ s.live, .staged k ∈ es
  nodup : (s.live.map Handle.path).Nodup
  waiting : ∀ k ∈ s.live, k.waits = true → s.tree.get? k.beside = some k.slot.entry
  held : ∀ k ∈ s.live, s.tree.get? k.place = k.held
  had : ∀ k ∈ s.live, k.waits = false → k.held = some k.slot.entry
  /-- What waits belongs to a live handle. -/
  clear : ∀ k, .staged k ∈ es → k.waits = true → s.tree.get? k.beside = none ∨
    ∃ h ∈ s.live, h.waits = true ∧ h.beside = k.beside

namespace Tidy

variable {outDir : FilePath} {es : List Event} {s v : Session} {t : FileTree} {k : Handle}

theorem start (t : FileTree) : Tidy outDir [] ⟨t, []⟩ := by
  constructor <;> simp

/-- Events that stage nothing do not matter. -/
theorem concat {e : Event} (h : Tidy outDir es s) (he : ∀ k, e ≠ .staged k) :
    Tidy outDir (es ++ [e]) s := by
  have hmem (k : Handle) : .staged k ∈ es ++ [e] ↔ .staged k ∈ es := by
    simp [(he k).symm]
  exact ⟨fun k hk => h.stands k ((hmem k).1 hk), fun k hk => (hmem k).2 (h.live k hk), h.nodup,
    h.waiting, h.held, h.had, fun k hk => h.clear k ((hmem k).1 hk)⟩

theorem spare (h : Tidy outDir es s) (ht : ∀ k, .staged k ∈ es → k.Spared s.tree t) :
    Tidy outDir es ⟨t, s.live⟩ where
  stands k hk := ⟨(h.stands k hk).1, (ht k hk).stands⟩
  live := h.live
  nodup := h.nodup
  waiting k hk hw := ((ht k (h.live k hk)).beside).trans (h.waiting k hk hw)
  held k hk := ((ht k (h.live k hk)).place).trans (h.held k hk)
  had := h.had
  clear k hk hw := by
    rw [(ht k hk).beside]
    exact h.clear k hk hw

theorem apart (h : Tidy outDir es s) {j : Handle} (hk : .staged k ∈ es) (hj : .staged j ∈ es)
    (hne : j.path ≠ k.path) : j.slot.Apart k.slot := by
  obtain ⟨hko, hks⟩ := h.stands k hk
  obtain ⟨hjo, hjs⟩ := h.stands j hj
  exact hjs.apart_of_path_ne hks (hjo.trans hko.symm) hne

theorem awaited (h : Tidy outDir es s) (hk : k ∈ s.live) : k.slot.Awaited s.tree := by
  have hs := (h.stands k (h.live k hk)).2
  exact ⟨hs.name, hs.opens, h.waiting k hk⟩

/-- A new handle, of a file that has no other one. -/
theorem wait (h : Tidy outDir es s) (hk : k.Fresh s.tree) (ho : k.outDir = outDir)
    (hnew : ∀ j ∈ s.live, j.path ≠ k.path) :
    Tidy outDir (es ++ [.staged k]) ⟨k.slot.wait s.tree, k :: s.live⟩ := by
  have hmem {j : Handle} : .staged j ∈ es ++ [Event.staged k] ↔ .staged j ∈ es ∨ j = k := by simp
  have hstands : ∀ j, .staged j ∈ es ++ [Event.staged k] →
      j.outDir = outDir ∧ j.Stands s.tree := by
    intro j hj
    rcases hmem.1 hj with hj | rfl
    · exact h.stands j hj
    · exact ⟨ho, hk.toStands⟩
  have hplace : ∀ j, .staged j ∈ es ++ [Event.staged k] →
      (k.slot.wait s.tree).get? j.place = s.tree.get? j.place := fun j hj => by
    rw [Slot.get?_wait, if_neg fun hb => Slot.place_ne_beside_of_name (hstands j hj).2.name hb.2]
  have hlive : ∀ j ∈ k :: s.live, .staged j ∈ es ++ [Event.staged k] := fun j hj => by
    rw [hmem]
    exact (List.mem_cons.1 hj).symm.imp (h.live j) id
  refine ⟨fun j hj => ?_, hlive, ?_, fun j hj hw => ?_, fun j hj => ?_, fun j hj hw => ?_,
    fun j hj hw => ?_⟩
  · obtain ⟨hjo, hjs⟩ := hstands j hj
    exact ⟨hjo, hjs.keep (Slot.keepsDirs_wait hk.free)⟩
  · rw [List.map_cons, List.nodup_cons]
    refine ⟨fun hpath => ?_, h.nodup⟩
    obtain ⟨j, hj, he⟩ := List.mem_map.1 hpath
    exact hnew j hj he
  · rw [Slot.get?_wait]
    rcases List.mem_cons.1 hj with rfl | hj
    · rw [if_pos ⟨hw, rfl⟩]
    · obtain ⟨hjo, hjs⟩ := h.stands j (h.live j hj)
      have hapart := hjs.apart_of_path_ne hk.toStands (hjo.trans ho.symm) (hnew j hj)
      rw [if_neg fun hb => hapart.beside_beside hb.2, h.waiting j hj hw]
  · rw [hplace j (hlive j hj)]
    rcases List.mem_cons.1 hj with rfl | hj
    · exact hk.held.symm
    · exact h.held j hj
  · rcases List.mem_cons.1 hj with rfl | hj
    · rw [hk.held, hk.get?_place hw]
    · exact h.had j hj hw
  · rw [Slot.get?_wait]
    by_cases hb : k.slot.waits = true ∧ j.beside = k.slot.beside
    · exact .inr ⟨k, List.mem_cons_self, hb.1, hb.2.symm⟩
    · rw [if_neg hb]
      rcases hmem.1 hj with hj | rfl
      · rcases h.clear j hj hw with hnone | ⟨i, hi, hib⟩
        · exact .inl hnone
        · exact .inr ⟨i, List.mem_cons_of_mem _ hi, hib⟩
      · exact absurd ⟨hw, rfl⟩ hb

/-- A handle is gone, and only the places of its file have changed. -/
theorem settle (h : Tidy outDir es s) (hk : k ∈ s.live) (ht : k.Settled s.tree t) :
    Tidy outDir es ⟨t, s.live.erase k⟩ := by
  have hlive : ∀ j ∈ s.live.erase k, j ∈ s.live := fun j => List.mem_of_mem_erase
  have hperm : (s.live.map Handle.path).Perm (k.path :: (s.live.erase k).map Handle.path) :=
    (List.perm_cons_erase hk).map Handle.path
  obtain ⟨hnew, hnodup⟩ := List.nodup_cons.1 (hperm.nodup_iff.1 h.nodup)
  have hapart : ∀ j ∈ s.live.erase k, j.slot.Apart k.slot := fun j hj =>
    h.apart (h.live k hk) (h.live j (hlive j hj)) fun he => hnew (List.mem_map.2 ⟨j, hj, he⟩)
  refine ⟨fun j hj => ?_, fun j hj => h.live j (hlive j hj), hnodup, fun j hj hw => ?_,
    fun j hj => ?_, fun j hj => h.had j (hlive j hj), fun j hj hw => ?_⟩
  · obtain ⟨ho, hs⟩ := h.stands j hj
    exact ⟨ho, hs.keep ht.keeps⟩
  · exact (ht.other _ (hapart j hj).beside_place (hapart j hj).beside_beside).trans
      (h.waiting j (hlive j hj) hw)
  · exact (ht.other _ (hapart j hj).place_place (hapart j hj).place_beside).trans
      (h.held j (hlive j hj))
  · -- what waits is gone with the handle, or it belongs to another one
    rcases hkw : k.waits with _ | _
    · rw [ht.idle hkw]
      rcases h.clear j hj hw with hnone | ⟨i, hi, hiw, hij⟩
      · exact .inl hnone
      · have hik : i ≠ k := by
          rintro rfl
          rw [hiw] at hkw
          cases hkw
        exact .inr ⟨i, (List.mem_erase_of_ne hik).2 hi, hiw, hij⟩
    · by_cases he : j.beside = k.beside
      · exact .inl (he ▸ ht.clear hkw)
      · have hplace : j.beside ≠ k.place :=
          (Slot.place_ne_beside_of_name (h.stands k (h.live k hk)).2.name).symm
        rw [ht.other _ hplace he]
        rcases h.clear j hj hw with hnone | ⟨i, hi, hiw, hij⟩
        · exact .inl hnone
        · have hik : i ≠ k := by
            rintro rfl
            exact he hij.symm
          exact .inr ⟨i, (List.mem_erase_of_ne hik).2 hi, hiw, hij⟩

theorem step {e : Event} (h : Tidy outDir es s) (hstep : s.Step e v)
    (ho : Orderly outDir s e v) : Tidy outDir (es ++ [e]) v := by
  have hmade {ns : Namespace} {made : FileTree}
      (hm : MadeOnly s.tree made (ancestors (ns.dirIn outDir).folder)) :
      Tidy outDir es ⟨made, s.live⟩ :=
    h.spare fun j hj => (h.stands j hj).2.spared_of_madeOnly (h.stands j hj).1 hm
  cases e with
  | staged k =>
    obtain ⟨hko, hf, hnew⟩ := ho
    obtain ⟨made, hm, hfresh, rfl⟩ := hstep.exists_fresh hf
    subst hko
    exact (hmade hm).wait hfresh rfl hnew
  | refused o a =>
    obtain ⟨rfl, hf⟩ := ho
    obtain ⟨made, hm, rfl⟩ := hstep.exists_made hf
    exact (hmade hm).concat nofun
  | committed k result =>
    cases hstep with
    | committed hk hc =>
      have hs := Handle.settled_commit (h.awaited hk) (h.stands k (h.live k hk)).2
      rw [hc] at hs
      exact (h.settle hk hs).concat nofun
  | dropped k =>
    cases hstep with
    | dropped hk =>
      exact (h.settle hk (Handle.settled_drop (h.awaited hk)
        (h.stands k (h.live k hk)).2)).concat nofun
  | other =>
    cases hstep with
    | other t =>
      exact (h.spare fun j hj => ho.spared (h.stands j hj).2 (h.stands j hj).1).concat nofun

end Tidy

theorem tidy_of_run {outDir : FilePath} {start : FileTree} {es : List Event} {s : Session}
    (h : Run (Orderly outDir) start es s) : Tidy outDir es s := by
  induction h with
  | nil => exact .start start
  | snoc _ hstep ho ih => exact ih.step hstep ho

/-! ### What a step does -/

/-- The path leads where it led, and to the same file if it leads to one. -/
structure KeepsFile (p : FilePath) (t t' : FileTree) : Prop where
  locate : ∀ l, t.locate p = .ok l → t'.locate p = .ok l
  file : ∀ l c, t'.locate p = .ok l → (t'.get? l = some (.file c) ↔ t.get? l = some (.file c))

/-- The path of the file that is dealt with. -/
def Event.path? : Event → Option FilePath
  | .staged k | .committed k _ | .dropped k => some k.path
  | .refused o a => some (a.pathIn o)
  | .other => none

/-- Nothing waits any more for the handle. -/
def Cleared (k : Handle) (t : FileTree) : Prop :=
  ∀ p, k.staged.staging = some p → t.entry? p = none

/-- What an event does to the file that it is about. Only a commit changes it. -/
def Event.Effect (s v : Session) : Event → Prop
  | .staged k => k.path = k.artifact.pathIn k.outDir ∧ KeepsFile k.path s.tree v.tree
  | .refused _ _ => ∀ l c, v.tree.get? l = some (.file c) ↔ s.tree.get? l = some (.file c)
  | .committed k (.ok p) =>
    p = k.path ∧ v.tree.readText k.path = some k.artifact.contents ∧ Cleared k v.tree
  | .committed k (.error _) | .dropped k =>
    v.tree.entry? k.path = s.tree.entry? k.path ∧ Cleared k v.tree
  | .other => True

/-- A step has its effect on one file. -/
structure Transacts (outDir : FilePath) (s : Session) (e : Event) (v : Session) : Prop where
  effect : e.Effect s v
  /-- The files of other paths are left alone, and so is what waits beside them. -/
  elsewhere : ∀ p (b : Artifact), e.path? = some p → IsGeneratedName b.fileName →
    b.pathIn outDir ≠ p → ∀ q ∈ b.paths outDir, KeepsFile q s.tree v.tree

variable {outDir : FilePath} {s v : Session} {k : Handle} {t t' : FileTree} {a b : Artifact}
  {p q : FilePath} {l : Location}

/-- Other generated files are elsewhere. -/
theorem ne_of_locate (hk : k.Stands t) (hb : IsGeneratedName b.fileName)
    (hne : b.pathIn k.outDir ≠ k.path) (hq : q ∈ b.paths k.outDir) (hl : t.locate q = .ok l) :
    l ≠ k.place ∧ l ≠ k.beside := by
  have hapart {d : Location} (hd : t.Opens (b.ns.dirIn k.outDir) d) :
      Slot.Apart ⟨b.ns.dirIn k.outDir, d, b.fileName, b.contents, false⟩ k.slot := by
    refine Slot.apart_of_place_ne hb hk.name fun he => hne ?_
    rw [hk.path_eq]
    exact pathIn_eq_of_place hd hk.opens he
  rw [Artifact.paths, List.mem_cons, List.mem_singleton] at hq
  rcases hq with rfl | rfl
  · obtain ⟨d, hd, rfl⟩ := exists_opens_of_locate hb.name hl
    exact ⟨(hapart hd).place_place, (hapart hd).place_beside⟩
  · rw [Artifact.pathIn, hb.stagingPath_child] at hl
    obtain ⟨d, hd, rfl⟩ := exists_opens_of_locate hb.waiting hl
    exact ⟨(hapart hd).beside_place, (hapart hd).beside_beside⟩

theorem KeepsFile.of_madeOnly {ps : List FilePath} (h : MadeOnly t t' ps) : KeepsFile p t t' :=
  ⟨fun _ hl => h.keepsDirs.locate hl, fun _ c _ => h.get?_file c⟩

theorem KeepsFile.of_settled (h : k.Settled t t') (hk : k.Stands t)
    (hb : IsGeneratedName b.fileName) (hne : b.pathIn k.outDir ≠ k.path)
    (hq : q ∈ b.paths k.outDir) : KeepsFile q t t' := by
  refine ⟨fun _ hl => h.keeps.locate hl, fun l c hl => ?_⟩
  obtain ⟨hplace, hbeside⟩ := ne_of_locate (hk.keep h.keeps) hb hne hq hl
  rw [h.other l hplace hbeside]

theorem transacts_of_staged (hstep : s.Step (.staged k) v) (ho : k.outDir = outDir)
    (hf : IsGeneratedName k.artifact.fileName) : Transacts outDir s (.staged k) v := by
  obtain ⟨made, hm, hfresh, rfl⟩ := hstep.exists_fresh hf
  subst ho
  have hkeeps := Slot.keepsDirs_wait hfresh.free
  have hstands := hfresh.toStands.keep hkeeps
  have hfile {q : FilePath} (hq : ∀ l, (k.slot.wait made).locate q = .ok l → l ≠ k.beside) :
      KeepsFile q s.tree (k.slot.wait made) := by
    refine ⟨fun _ hl => (hm.keepsDirs.trans hkeeps).locate hl, fun l c hl => ?_⟩
    rw [Slot.get?_wait, if_neg fun hb => hq l hl hb.2]
    exact hm.get?_file c
  refine ⟨⟨hstands.path_eq, hfile fun l hl => ?_⟩, fun p b hp hb hne q hq => ?_⟩
  · obtain rfl := Except.ok.inj (hstands.locate_path.symm.trans hl)
    exact k.slot.place_ne_beside
  · obtain rfl := Option.some.inj hp
    exact hfile fun l hl => (ne_of_locate hstands hb hne hq hl).2

theorem transacts_of_refused (hstep : s.Step (.refused outDir a) v)
    (hf : IsGeneratedName a.fileName) : Transacts outDir s (.refused outDir a) v := by
  obtain ⟨made, hm, rfl⟩ := hstep.exists_made hf
  exact ⟨fun _ c => hm.get?_file c, fun _ _ _ _ _ _ _ => .of_madeOnly hm⟩

theorem cleared_of_settled (h : k.Settled t t') (hk : k.Stands t) : Cleared k t' := by
  intro p hp
  have hw : k.waits = true := by rw [Handle.waits, hp, Option.isSome_some]
  rw [hk.staging_eq, if_pos hw] at hp
  rw [← Option.some.inj hp, (hk.keep h.keeps).entry?_stagingPath, h.clear hw]

theorem entry?_unwait (h : k.slot.Awaited t) (hk : k.Stands t) :
    FileTree.entry? (k.slot.unwait t) k.path = t.entry? k.path := by
  rw [(hk.keep (Handle.settled_unwait h).keeps).entry?_path, hk.entry?_path, Slot.get?_unwait,
    if_neg fun hb => k.slot.place_ne_beside hb.2]

/-- A file that is delivered has its contents, and one that needs no delivery has them already. -/
theorem readText_deliver (h : k.slot.Awaited t) (hk : k.Stands t) (ht : ¬k.slot.Taken t)
    (hhas : k.waits = false → t.get? k.place = some k.slot.entry) :
    (k.slot.deliver t).readText k.path = some k.artifact.contents := by
  rw [(hk.keep (Handle.settled_deliver h ht).keeps).readText_path, Slot.get?_deliver]
  by_cases hw : k.waits = true
  · rw [if_pos ⟨hw, rfl⟩]
    rfl
  · rw [if_neg fun hm => hw hm.1, if_neg fun hm => hw hm.1]
    exact hhas (by simpa using hw)

variable {es : List Event}

theorem Tidy.entry?_staging (h : Tidy outDir es s) (hk : .staged k ∈ es)
    (hp : k.staged.staging = some p) :
    s.tree.entry? p = none ∨ ∃ j ∈ s.live, j.staged.staging = some p := by
  obtain ⟨-, hs⟩ := h.stands k hk
  have hw : k.waits = true := by rw [Handle.waits, hp, Option.isSome_some]
  rw [hs.staging_eq, if_pos hw] at hp
  rw [← Option.some.inj hp, hs.entry?_stagingPath]
  refine (h.clear k hk hw).imp_right ?_
  rintro ⟨j, hj, hjw, hbeside⟩
  have hpath : j.path = k.path := Decidable.byContradiction fun hne =>
    (h.apart hk (h.live j hj) hne).beside_beside hbeside
  refine ⟨j, hj, ?_⟩
  rw [(h.stands j (h.live j hj)).2.staging_eq, if_pos hjw, hpath]

theorem Tidy.transacts_of_committed {result : Except Error FilePath} (h : Tidy outDir es s)
    (hstep : s.Step (.committed k result) v) : Transacts outDir s (.committed k result) v := by
  cases hstep with
  | @committed _ t _ hk hc =>
    have hawaited := h.awaited hk
    obtain ⟨rfl, hs⟩ := h.stands k (h.live k hk)
    have hsettled := Handle.settled_commit hawaited hs
    rw [hc] at hsettled
    refine ⟨?_, fun p b hp hb hne q hq => ?_⟩
    · rcases Handle.commit_cases hawaited hs with ⟨e, he⟩ | ⟨ht, hok⟩
      · obtain ⟨rfl, rfl⟩ := Prod.mk.inj (hc.symm.trans he)
        exact ⟨entry?_unwait hawaited hs, cleared_of_settled hsettled hs⟩
      · obtain ⟨rfl, rfl⟩ := Prod.mk.inj (hc.symm.trans hok)
        have hhas : k.waits = false → s.tree.get? k.place = some k.slot.entry := fun hw =>
          (h.held _ hk).trans (h.had _ hk hw)
        exact ⟨rfl, readText_deliver hawaited hs ht hhas, cleared_of_settled hsettled hs⟩
    · obtain rfl := Option.some.inj hp
      exact .of_settled hsettled hs hb hne hq

theorem Tidy.transacts_of_dropped (h : Tidy outDir es s) (hstep : s.Step (.dropped k) v) :
    Transacts outDir s (.dropped k) v := by
  cases hstep with
  | dropped hk =>
    have hawaited := h.awaited hk
    obtain ⟨rfl, hs⟩ := h.stands k (h.live k hk)
    have hsettled := Handle.settled_drop hawaited hs
    refine ⟨⟨?_, cleared_of_settled hsettled hs⟩, fun p b hp hb hne q hq => ?_⟩
    · show FileTree.entry? (k.staged.drop s.tree) k.path = _
      rw [hs.staged, hawaited.drop_eq]
      exact entry?_unwait hawaited hs
    · obtain rfl := Option.some.inj hp
      exact .of_settled hsettled hs hb hne hq

/-- In an orderly session the path of a live handle leads to what it led to when the file was
staged, and whatever waits belongs to a live handle. The next step does what a transaction does. -/
theorem transacts_of_run {start : FileTree} (h : Run (Orderly outDir) start es s) :
    (∀ k ∈ s.live, s.tree.entry? k.path = k.held) ∧
    (∀ k p, .staged k ∈ es → k.staged.staging = some p →
      s.tree.entry? p = none ∨ ∃ j ∈ s.live, j.staged.staging = some p) ∧
    ∀ e v, s.Step e v → Orderly outDir s e v → Transacts outDir s e v := by
  have htidy := tidy_of_run h
  refine ⟨fun k hk => ?_, fun k p hk hp => htidy.entry?_staging hk hp, fun e v hstep ho => ?_⟩
  · rw [(htidy.stands k (htidy.live k hk)).2.entry?_path, htidy.held k hk]
  · cases e with
    | staged k => exact transacts_of_staged hstep ho.1 ho.2.1
    | refused o a =>
      obtain ⟨rfl, hf⟩ := ho
      exact transacts_of_refused hstep hf
    | committed k result => exact htidy.transacts_of_committed hstep
    | dropped k => exact htidy.transacts_of_dropped hstep
    | other => exact ⟨trivial, nofun⟩

/-- A tree with functions of an earlier run. -/
def ranBefore : FileTree :=
  ⟨[], [(["out"], .directory), (["out", "sanitizations.rs"], .file (.text "old"))]⟩

/-- Over `ranBefore`, new functions do not show while a root file is staged, until they are
committed. -/
theorem transacts_of_run_ranBefore : ∃ es s v k,
    Run (Orderly ⟨"out"⟩) ranBefore es s ∧ s.live.length = 2 ∧
    s.tree.readText ⟨"out/sanitizations.rs"⟩ = some "old" ∧
    s.Step (.committed k (.ok ⟨"out/sanitizations.rs"⟩)) v ∧
    v.tree.readText ⟨"out/sanitizations.rs"⟩ = some "new" := by
  let functions : Artifact := ⟨.root, sanitizationsFile, "new"⟩
  let userRoot : Artifact := ⟨⟨[.plain "user"]⟩, rootFile, "root"⟩
  let x : Staged := ⟨some ⟨"out/sanitizations.rs.tmp"⟩, ⟨"out/sanitizations.rs"⟩⟩
  let y : Staged := ⟨some ⟨"out/user/root_sanitize_function.rs.tmp"⟩,
    ⟨"out/user/root_sanitize_function.rs"⟩⟩
  obtain ⟨t, ht⟩ : ∃ t, (functions.stage ⟨"out"⟩ ranBefore).1 = t := ⟨_, rfl⟩
  obtain ⟨t', ht'⟩ : ∃ t', (userRoot.stage ⟨"out"⟩ t).1 = t' := ⟨_, rfl⟩
  have hx : (functions.stage ⟨"out"⟩ ranBefore).2 = .ok x := ok_of_toOption (by decide +kernel)
  have hy : (userRoot.stage ⟨"out"⟩ t).2 = .ok y := by
    subst ht
    exact ok_of_toOption (by decide +kernel)
  obtain ⟨t'', ht''⟩ : ∃ t'', (x.commit t').1 = t'' := ⟨_, rfl⟩
  have hc : (x.commit t').2 = .ok ⟨"out/sanitizations.rs"⟩ := by
    subst ht' ht
    exact ok_of_toOption (by decide +kernel)
  have hread : t'.readText ⟨"out/sanitizations.rs"⟩ = some "old" := by
    subst ht' ht
    decide +kernel
  let k := Handle.ofStaged ⟨"out"⟩ functions x t
  let j := Handle.ofStaged ⟨"out"⟩ userRoot y t'
  have hne : k.path ≠ j.path := (by decide : x.path ≠ y.path)
  have hrun : Run (Orderly ⟨"out"⟩) ranBefore ([] ++ [.staged k]) ⟨t, [k]⟩ :=
    .snoc .nil (.staged (Prod.ext ht hx)) ⟨rfl, .sanitizations, nofun⟩
  have hrun' : Run (Orderly ⟨"out"⟩) ranBefore ([] ++ [.staged k] ++ [.staged j]) ⟨t', [j, k]⟩ :=
    .snoc hrun (.staged (Prod.ext ht' hy)) ⟨rfl, .root, fun i hi => List.mem_singleton.1 hi ▸ hne⟩
  have hstep : Step ⟨t', [j, k]⟩ (.committed k (.ok ⟨"out/sanitizations.rs"⟩))
      ⟨t'', [j, k].erase k⟩ :=
    .committed (List.mem_cons_of_mem _ List.mem_cons_self) (Prod.ext ht'' hc)
  refine ⟨_, _, _, _, hrun', rfl, hread, hstep, ?_⟩
  exact ((transacts_of_run hrun').2.2 _ _ hstep trivial).effect.2.1

end Session

end SanitizeGen
