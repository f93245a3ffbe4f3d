import SanitizeGen.Proofs.StagingSessions

/-!
# Handles of one file

All handles of a file have their contents wait in one place, so what a commit installs is what was
staged last for its file, and nothing once that has been committed or dropped. `FileState` follows a
file through the events of a session; the tree agrees with it as long as no directory gets in the
way (`reflects_of_run`). So `outlook_of_run` tells what every live handle will do: it installs its
own contents if no other handle of its file has interfered, and handles of different files never do.
-/

namespace SanitizeGen

open FileTree

/-! ### One handle -/

namespace Handle.Stands

variable {k : Handle} {t : FileTree} {c : Contents} (hs : k.Stands t)

include hs

theorem staging_of_idle (hw : k.waits = false) : k.staged.staging = none := by
  rw [hs.staging_eq, hw]
  rfl

theorem commit_of_idle (hw : k.waits = false) : k.staged.commit t = (t, .ok k.path) := by
  rw [Staged.commit, hs.staging_of_idle hw]
  rfl

theorem drop_of_idle (hw : k.waits = false) : k.staged.drop t = t := by
  rw [Staged.drop, hs.staging_of_idle hw]

section

variable (hw : k.waits = true) (hb : t.get? k.beside = some (.file c))

include hw hb

theorem drop_of_file : k.staged.drop t = t.erase k.beside := by
  have hremove : t.removeFile (Artifact.stagingPath k.path) = some (t.erase k.beside) := by
    rw [removeFile, hs.locate_stagingPath]
    simp only [hb]
  rw [Staged.drop, hs.staging_eq, if_pos hw]
  simp only [hremove, Option.getD_some]

theorem commit_of_file (hp : t.get? k.place ≠ some .directory) :
    k.staged.commit t = ((t.erase k.beside).set k.place (.file c), .ok k.path) := by
  have hlocate : t.locate k.staged.path = .ok k.place := hs.locate_path
  have hne : k.beside ≠ k.place := k.slot.place_ne_beside.symm
  have hrename : t.rename (Artifact.stagingPath k.path) k.staged.path =
      some ((t.erase k.beside).set k.place (.file c)) := by
    rw [rename, hs.locate_stagingPath, hlocate]
    rcases ht : t.get? k.place with _ | _ | d
    · simp only [hb, ht]
    · exact absurd ht hp
    · simp only [hb, ht, if_neg hne]
  rw [Staged.commit, hs.staging_eq, if_pos hw]
  simp only [hrename]
  rfl

end

section

variable (hw : k.waits = true) (hb : t.get? k.beside = none)

include hw hb

theorem drop_of_none : k.staged.drop t = t := by
  have hremove : t.removeFile (Artifact.stagingPath k.path) = none := by
    rw [removeFile, hs.locate_stagingPath]
    simp only [hb]
  rw [Staged.drop, hs.staging_eq, if_pos hw]
  simp only [hremove, Option.getD_none]

theorem commit_of_none : k.staged.commit t =
    (t, .error (.file .rename (Artifact.stagingPath k.path))) := by
  have hlocate : t.locate k.staged.path = .ok k.place := hs.locate_path
  have hrename : t.rename (Artifact.stagingPath k.path) k.staged.path = none := by
    rw [rename, hs.locate_stagingPath, hlocate]
    simp only [hb]
  have hdrop := hs.drop_of_none hw hb
  rw [Staged.commit, hs.staging_eq, if_pos hw]
  simp only [hrename, hdrop]

end

section

variable (hb : t.get? k.beside ≠ some .directory)

include hb

/-- What waits is removed, if anything does. -/
theorem drop_cases : (k.waits = true → t.get? k.beside = none) ∧ k.staged.drop t = t ∨
      k.waits = true ∧
        ∃ c, t.get? k.beside = some (.file c) ∧ k.staged.drop t = t.erase k.beside := by
  by_cases hw : k.waits = true
  · rcases hfile : t.get? k.beside with _ | _ | c
    · exact .inl ⟨fun _ => rfl, hs.drop_of_none hw hfile⟩
    · exact absurd hfile hb
    · exact .inr ⟨hw, c, rfl, hs.drop_of_file hw hfile⟩
  · exact .inl ⟨fun h => absurd h hw, hs.drop_of_idle (by simpa using hw)⟩

/-- What waits moves into place, if anything does. -/
theorem commit_cases (hp : t.get? k.place ≠ some .directory) :
    (k.waits = true → t.get? k.beside = none) ∧ (k.staged.commit t).1 = t ∨
      k.waits = true ∧ ∃ c, t.get? k.beside = some (.file c) ∧
        (k.staged.commit t).1 = (t.erase k.beside).set k.place (.file c) := by
  by_cases hw : k.waits = true
  · rcases hfile : t.get? k.beside with _ | _ | c
    · exact .inl ⟨fun _ => rfl, by rw [hs.commit_of_none hw hfile]⟩
    · exact absurd hfile hb
    · exact .inr ⟨hw, c, rfl, by rw [hs.commit_of_file hw hfile hp]⟩
  · exact .inl ⟨fun h => absurd h hw, by rw [hs.commit_of_idle (by simpa using hw)]⟩

theorem get?_drop (m : Location) : (k.staged.drop t).get? m =
    if k.waits = true ∧ m = k.beside then none else t.get? m := by
  rcases hs.drop_cases hb with ⟨hnone, htree⟩ | ⟨hw, c, -, htree⟩
  · rw [htree]
    split
    · rename_i hm
      rw [hm.2, hnone hm.1]
    · rfl
  · rw [htree, get?_erase k.slot.beside_ne_nil]
    simp only [hw, true_and]

theorem keepsDirs_drop : KeepsDirs t (k.staged.drop t) := by
  rcases hs.drop_cases hb with ⟨-, htree⟩ | ⟨-, c, -, htree⟩
  · rw [htree]
    exact .refl t
  · rw [htree]
    exact .erase k.slot.beside_ne_nil hb

theorem get?_commit (hp : t.get? k.place ≠ some .directory) (m : Location) :
    (k.staged.commit t).1.get? m =
      if k.waits = true ∧ m = k.place then (t.get? k.beside).or (t.get? k.place)
      else if k.waits = true ∧ m = k.beside then none else t.get? m := by
  rcases hs.commit_cases hb hp with ⟨hnone, htree⟩ | ⟨hw, c, hfile, htree⟩
  · rw [htree]
    split
    · rename_i hm
      rw [hm.2, hnone hm.1, Option.none_or]
    · split
      · rename_i hm
        rw [hm.2, hnone hm.1]
      · rfl
  · rw [htree, get?_set k.slot.place_ne_nil, get?_erase k.slot.beside_ne_nil, hfile,
      Option.some_or]
    simp only [hw, true_and]

theorem keepsDirs_commit (hp : t.get? k.place ≠ some .directory) :
    KeepsDirs t (k.staged.commit t).1 := by
  rcases hs.commit_cases hb hp with ⟨-, htree⟩ | ⟨-, c, -, htree⟩
  · rw [htree]
    exact .refl t
  · rw [htree]
    refine (KeepsDirs.erase k.slot.beside_ne_nil hb).trans (.set k.slot.place_ne_nil (.inr ?_))
    rwa [get?_erase k.slot.beside_ne_nil, if_neg k.slot.place_ne_beside]

end

end Handle.Stands

/-! ### One file -/

namespace Session

/-- What is in the place of a file, and what is where its contents wait. -/
structure FileState where
  final : Option Entry
  waiting : Option Entry

/-- The event concerns contents that wait for the place `l`. -/
def Event.Writes (l : Location) : Event → Prop
  | .staged k | .committed k _ | .dropped k => k.waits = true ∧ k.place = l
  | _ => False

instance (l : Location) : (e : Event) → Decidable (e.Writes l)
  | .staged k | .committed k _ | .dropped k =>
    inferInstanceAs (Decidable (k.waits = true ∧ k.place = l))
  | .refused _ _ | .other => inferInstanceAs (Decidable False)

/-- What an event does to the file at `l`. -/
def FileState.next (l : Location) (f : FileState) (e : Event) : FileState :=
  if e.Writes l then
    match e with
    | .staged k => { f with waiting := some k.slot.entry }
    | .committed _ _ => ⟨f.waiting.or f.final, none⟩
    | .dropped _ => { f with waiting := none }
    | _ => f
  else f

/-- The file of a slot after some events, in a tree that started as `start`. -/
def fileAfter (start : FileTree) (r : Slot) (es : List Event) : FileState :=
  es.foldl (FileState.next r.place) ⟨start.get? r.place, start.get? r.beside⟩

section

variable {start t t' : FileTree} {r : Slot} {es : List Event} {e : Event} {f g : FileState}
  {k : Handle} {l : Location} {ps : List FilePath}

theorem FileState.next_of_not_writes (h : ¬e.Writes l) : f.next l e = f := by
  unfold next
  rw [if_neg h]

theorem fileAfter_concat :
    fileAfter start r (es ++ [e]) = (fileAfter start r es).next r.place e := by
  rw [fileAfter, List.foldl_append, List.foldl_cons, List.foldl_nil, fileAfter]

theorem fileAfter_append_of_not_writes {after : List Event}
    (h : ∀ e ∈ after, ¬e.Writes r.place) :
    fileAfter start r (es ++ after) = fileAfter start r es := by
  induction after generalizing es with
  | nil => rw [List.append_nil]
  | cons e after ih =>
    obtain ⟨he, hafter⟩ := List.forall_mem_cons.1 h
    rw [← List.singleton_append, ← List.append_assoc, ih hafter, fileAfter_concat,
      FileState.next_of_not_writes he]

namespace FileState

/-- The tree holds what the state says, except where there are directories. -/
structure In (f : FileState) (r : Slot) (t : FileTree) : Prop where
  final : t.get? r.place = f.final ∨ t.get? r.place = some .directory
  waiting : t.get? r.beside = f.waiting ∨ t.get? r.beside = some .directory

namespace In

theorem of_madeOnly (h : f.In r t) (hm : MadeOnly t t' ps) : f.In r t' := by
  have hmade {l : Location} {x : Option Entry} (hx : t.get? l = x ∨ t.get? l = some .directory) :
      t'.get? l = x ∨ t'.get? l = some .directory := by
    rcases hm.get? l with he | ⟨-, hd, -⟩
    · rwa [he]
    · exact .inr hd
  exact ⟨hmade h.final, hmade h.waiting⟩

theorem staged (h : f.In r t) (hr : IsGeneratedName r.name) :
    (f.next r.place (.staged k)).In r (k.slot.wait t) := by
  have hplace : r.place ≠ k.slot.beside := Slot.place_ne_beside_of_name hr
  by_cases hw : (Event.staged k).Writes r.place
  · have hbeside : r.beside = k.slot.beside := Slot.beside_eq_of_place_eq hw.2.symm
    rw [next, if_pos hw]
    refine ⟨?_, .inl ?_⟩
    · rw [Slot.get?_wait, if_neg fun hb => hplace hb.2]
      exact h.final
    · rw [Slot.get?_wait, if_pos ⟨hw.1, hbeside⟩]
  · rw [next_of_not_writes hw]
    refine ⟨?_, ?_⟩
    · rw [Slot.get?_wait, if_neg fun hb => hplace hb.2]
      exact h.final
    · rw [Slot.get?_wait, if_neg fun hb => hw ⟨hb.1, (Slot.place_eq_of_beside_eq hb.2).symm⟩]
      exact h.waiting

section

variable (h : f.In r t) (hr : IsGeneratedName r.name) (hs : k.Stands t)
  (hp : t.get? k.place ≠ some .directory) (hb : t.get? k.beside ≠ some .directory)

include h hr hs hp hb

omit hp in
theorem dropped : (f.next r.place (.dropped k)).In r (k.staged.drop t) := by
  have hplace : r.place ≠ k.beside := Slot.place_ne_beside_of_name hr
  by_cases hw : (Event.dropped k).Writes r.place
  · have hbeside : r.beside = k.beside := Slot.beside_eq_of_place_eq hw.2.symm
    rw [next, if_pos hw]
    refine ⟨?_, .inl ?_⟩
    · rw [hs.get?_drop hb, if_neg fun hm => hplace hm.2]
      exact h.final
    · rw [hs.get?_drop hb, if_pos ⟨hw.1, hbeside⟩]
  · rw [next_of_not_writes hw]
    refine ⟨?_, ?_⟩
    · rw [hs.get?_drop hb, if_neg fun hm => hplace hm.2]
      exact h.final
    · rw [hs.get?_drop hb, if_neg fun hm => hw ⟨hm.1, (Slot.place_eq_of_beside_eq hm.2).symm⟩]
      exact h.waiting

theorem committed (result : Except Error FilePath) :
    (f.next r.place (.committed k result)).In r (k.staged.commit t).1 := by
  have hplace : r.place ≠ k.beside := Slot.place_ne_beside_of_name hr
  have hbeside : r.beside ≠ k.place := (Slot.place_ne_beside_of_name hs.name).symm
  by_cases hw : (Event.committed k result).Writes r.place
  · have hsame : r.beside = k.beside := Slot.beside_eq_of_place_eq hw.2.symm
    have hfinal := h.final.resolve_right (hw.2 ▸ hp)
    have hwaiting := h.waiting.resolve_right (hsame ▸ hb)
    rw [next, if_pos hw]
    refine ⟨.inl ?_, .inl ?_⟩
    · rw [hs.get?_commit hb hp, if_pos ⟨hw.1, hw.2.symm⟩, ← hfinal, ← hwaiting, hw.2, hsame]
    · rw [hs.get?_commit hb hp, if_neg fun hm => hbeside hm.2, if_pos ⟨hw.1, hsame⟩]
  · rw [next_of_not_writes hw]
    refine ⟨?_, ?_⟩
    · rw [hs.get?_commit hb hp, if_neg fun hm => hw ⟨hm.1, hm.2.symm⟩,
        if_neg fun hm => hplace hm.2]
      exact h.final
    · rw [hs.get?_commit hb hp, if_neg fun hm => hbeside hm.2,
        if_neg fun hm => hw ⟨hm.1, (Slot.place_eq_of_beside_eq hm.2).symm⟩]
      exact h.waiting

end

end In

end FileState

end

/-! ### Undisturbed sessions -/

/-- The event concerns a generated file. -/
def Event.Named : Event → Prop
  | .staged k => IsGeneratedName k.artifact.fileName
  | .refused _ a => IsGeneratedName a.fileName
  | _ => True

/-- What is done in an undisturbed session: nothing but staging, committing and dropping, and never
with a directory in the way of a live handle. -/
structure Undisturbed (_ : Session) (e : Event) (v : Session) : Prop where
  named : e.Named
  alone : e ≠ .other
  free : ∀ k ∈ v.live, v.tree.isDirectory k.path = false ∧
    v.tree.isDirectory (Artifact.stagingPath k.path) = false

/-- What holds all along an undisturbed session. -/
structure Reflects (start : FileTree) (es : List Event) (s : Session) : Prop where
  live : ∀ k ∈ s.live, .staged k ∈ es
  stands : ∀ k ∈ s.live, k.Stands s.tree
  free : ∀ k ∈ s.live,
    s.tree.get? k.place ≠ some .directory ∧ s.tree.get? k.beside ≠ some .directory
  files : ∀ r : Slot, IsGeneratedName r.name → (fileAfter start r es).In r s.tree
  had : ∀ before k after, es = before ++ .staged k :: after → k.waits = false →
    (fileAfter start k.slot before).final = some k.slot.entry

namespace Reflects

variable {start t : FileTree} {es : List Event} {s v : Session} {k : Handle} {e : Event}

theorem nil (start : FileTree) : Reflects start [] ⟨start, []⟩ := by
  refine ⟨nofun, nofun, nofun, fun r _ => ⟨.inl rfl, .inl rfl⟩, fun before k after he => ?_⟩
  simp at he

/-- Nothing changes about earlier events, and the last one is told by what was there before it. -/
theorem had_concat (h : Reflects start es s) (he : ∀ k, e = .staged k → k.waits = false →
      (fileAfter start k.slot es).final = some k.slot.entry) (before : List Event) (k : Handle)
    (after : List Event) (hes : es ++ [e] = before ++ .staged k :: after)
    (hw : k.waits = false) : (fileAfter start k.slot before).final = some k.slot.entry := by
  rcases List.eq_nil_or_concat after with rfl | ⟨after, e', rfl⟩
  · obtain ⟨rfl, hlast⟩ := List.append_inj' hes rfl
    exact he k (List.singleton_inj.1 hlast) hw
  · rw [List.concat_eq_append, ← List.cons_append, ← List.append_assoc] at hes
    obtain ⟨rfl, -⟩ := List.append_inj' hes rfl
    exact h.had before k after rfl hw

theorem step (h : Reflects start es s) (hstep : s.Step e v) (hu : Undisturbed s e v) :
    Reflects start (es ++ [e]) v := by
  have hfree (hv : ∀ k ∈ v.live, k.Stands v.tree) (k : Handle) (hk : k ∈ v.live) :
      v.tree.get? k.place ≠ some .directory ∧ v.tree.get? k.beside ≠ some .directory := by
    obtain ⟨hplace, hbeside⟩ := hu.free k hk
    rw [isDirectory, (hv k hk).entry?_path] at hplace
    rw [isDirectory, (hv k hk).entry?_stagingPath] at hbeside
    exact ⟨of_decide_eq_false hplace, of_decide_eq_false hbeside⟩
  have hlive : ∀ k ∈ s.live, .staged k ∈ es ++ [e] := fun k hk =>
    List.mem_append_left _ (h.live k hk)
  cases e with
  | staged k =>
    obtain ⟨made, hm, hfresh, rfl⟩ := hstep.exists_fresh hu.named
    have hkeeps := Slot.keepsDirs_wait hfresh.free
    have hstands : ∀ j ∈ k :: s.live, j.Stands (k.slot.wait made) := by
      rw [List.forall_mem_cons]
      exact ⟨hfresh.toStands.keep hkeeps, fun j hj =>
        (h.stands j hj).keep (hm.keepsDirs.trans hkeeps)⟩
    refine ⟨List.forall_mem_cons.2 ⟨by simp, hlive⟩, hstands, hfree hstands, fun r hr => ?_,
      h.had_concat fun j hj hw => ?_⟩
    · rw [fileAfter_concat]
      exact ((h.files r hr).of_madeOnly hm).staged hr
    · obtain rfl := Event.staged.inj hj
      have hbefore : s.tree.get? k.place = some k.slot.entry :=
        (hm.get?_file _).1 (hfresh.get?_place hw)
      have hfinal := (h.files k.slot hfresh.name).final
      rw [← hfinal.resolve_right (by simp [hbefore, Slot.entry]), hbefore]
  | refused o a =>
    obtain ⟨made, hm, rfl⟩ := hstep.exists_made hu.named
    have hstands : ∀ j ∈ s.live, j.Stands made := fun j hj => (h.stands j hj).keep hm.keepsDirs
    refine ⟨hlive, hstands, hfree hstands, fun r hr => ?_, h.had_concat fun _ hj => by cases hj⟩
    rw [fileAfter_concat]
    exact (h.files r hr).of_madeOnly hm
  | committed k result =>
    cases hstep with
    | @committed _ t _ hk hc =>
      obtain ⟨hp, hb⟩ := h.free k hk
      have hs := h.stands k hk
      obtain rfl : (k.staged.commit s.tree).1 = t := by rw [hc]
      have hstands : ∀ j ∈ s.live.erase k, j.Stands (k.staged.commit s.tree).1 := fun j hj =>
        (h.stands j (List.mem_of_mem_erase hj)).keep (hs.keepsDirs_commit hb hp)
      refine ⟨fun j hj => hlive j (List.mem_of_mem_erase hj), hstands, hfree hstands,
        fun r hr => ?_, h.had_concat fun _ hj => by cases hj⟩
      rw [fileAfter_concat]
      exact (h.files r hr).committed hr hs hp hb result
  | dropped k =>
    cases hstep with
    | dropped hk =>
      obtain ⟨-, hb⟩ := h.free k hk
      have hs := h.stands k hk
      have hstands : ∀ j ∈ s.live.erase k, j.Stands (k.staged.drop s.tree) := fun j hj =>
        (h.stands j (List.mem_of_mem_erase hj)).keep (hs.keepsDirs_drop hb)
      refine ⟨fun j hj => hlive j (List.mem_of_mem_erase hj), hstands, hfree hstands,
        fun r hr => ?_, h.had_concat fun _ hj => by cases hj⟩
      rw [fileAfter_concat]
      exact (h.files r hr).dropped hr hs hb
  | other => exact absurd rfl hu.alone

end Reflects

theorem reflects_of_run {start : FileTree} {es : List Event} {s : Session}
    (h : Run Undisturbed start es s) : Reflects start es s := by
  induction h with
  | nil => exact .nil start
  | snoc _ hstep hu ih => exact ih.step hstep hu

/-! ### What a handle will do -/

/-- What a live handle will do after some events, in a tree that started as `start`. -/
structure Outlook (start : FileTree) (es : List Event) (s : Session) (k : Handle) : Prop where
  staged : .staged k ∈ es
  located : s.tree.locate k.path = .ok k.place
  final : s.tree.entry? k.path = (fileAfter start k.slot es).final
  /-- A handle whose file had the contents changes nothing. -/
  idle : k.waits = false → k.staged.commit s.tree = (s.tree, .ok k.path)
  /-- Others install what waits for their file. -/
  delivers : ∀ e, k.waits = true → (fileAfter start k.slot es).waiting = some e →
    ∃ t, k.staged.commit s.tree = (t, .ok k.path) ∧ t.entry? k.path = some e
  missing : k.waits = true → (fileAfter start k.slot es).waiting = none →
    k.staged.commit s.tree = (s.tree, .error (.file .rename (Artifact.stagingPath k.path)))
  /-- These are its own contents if nothing else has been written for the file. -/
  own : ∀ before after, es = before ++ .staged k :: after → (∀ e ∈ after, ¬e.Writes k.place) →
    ∃ t, k.staged.commit s.tree = (t, .ok k.path) ∧
      t.readText k.path = some k.artifact.contents
  drops : FileTree.entry? (k.staged.drop s.tree) k.path = s.tree.entry? k.path
  /-- Handles of other files are not concerned. -/
  apart : ∀ j ∈ s.live, j.place ≠ k.place → ∀ p, p = j.path ∨ p = Artifact.stagingPath j.path →
    FileTree.entry? (k.staged.commit s.tree).1 p = s.tree.entry? p ∧
      FileTree.entry? (k.staged.drop s.tree) p = s.tree.entry? p

section

variable {start : FileTree} {es : List Event} {s : Session} {k : Handle}

theorem Reflects.file_eq (h : Reflects start es s) (hk : k ∈ s.live) :
    s.tree.get? k.place = (fileAfter start k.slot es).final ∧
      s.tree.get? k.beside = (fileAfter start k.slot es).waiting := by
  obtain ⟨hp, hb⟩ := h.free k hk
  have hfile := h.files k.slot (h.stands k hk).name
  exact ⟨hfile.final.resolve_right hp, hfile.waiting.resolve_right hb⟩

theorem Reflects.delivers (h : Reflects start es s) (hk : k ∈ s.live) {e : Entry}
    (hw : k.waits = true) (he : (fileAfter start k.slot es).waiting = some e) :
    ∃ t, k.staged.commit s.tree = (t, .ok k.path) ∧ t.entry? k.path = some e := by
  obtain ⟨hp, hb⟩ := h.free k hk
  have hs := h.stands k hk
  rw [← (h.file_eq hk).2] at he
  cases e with
  | directory => exact absurd he hb
  | file c =>
    have hcommit := hs.commit_of_file hw he hp
    have hkeeps := hs.keepsDirs_commit hb hp
    rw [hcommit] at hkeeps
    refine ⟨_, hcommit, ?_⟩
    rw [(hs.keep hkeeps).entry?_path, get?_set k.slot.place_ne_nil, if_pos rfl]

theorem Reflects.own (h : Reflects start es s) (hk : k ∈ s.live) {before after : List Event}
    (hes : es = before ++ .staged k :: after) (hafter : ∀ e ∈ after, ¬e.Writes k.place) :
    ∃ t, k.staged.commit s.tree = (t, .ok k.path) ∧
      t.readText k.path = some k.artifact.contents := by
  have hs := h.stands k hk
  have hstate : fileAfter start k.slot es =
      (fileAfter start k.slot before).next k.place (.staged k) := by
    rw [hes, ← List.singleton_append, ← List.append_assoc, fileAfter_append_of_not_writes hafter,
      fileAfter_concat]
  have hread {t : FileTree} (ht : t.entry? k.path = some k.slot.entry) :
      t.readText k.path = some k.artifact.contents := by
    rw [readText, ht]
    rfl
  by_cases hw : k.waits = true
  · have hwaiting : (fileAfter start k.slot es).waiting = some k.slot.entry := by
      rw [hstate, FileState.next, if_pos ⟨hw, rfl⟩]
    obtain ⟨t, hcommit, ht⟩ := h.delivers hk hw hwaiting
    exact ⟨t, hcommit, hread ht⟩
  · have hidle : k.waits = false := by simpa using hw
    have hnot : ¬(Event.staged k).Writes k.place := fun hwrites => hw hwrites.1
    refine ⟨s.tree, hs.commit_of_idle hidle, hread ?_⟩
    rw [hs.entry?_path, (h.file_eq hk).1, hstate, FileState.next_of_not_writes hnot,
      h.had before k after hes hidle]

theorem Reflects.apart (h : Reflects start es s) (hk : k ∈ s.live) {j : Handle} (hj : j ∈ s.live)
    (hne : j.place ≠ k.place) {p : FilePath} (hp : p = j.path ∨ p = Artifact.stagingPath j.path) :
    FileTree.entry? (k.staged.commit s.tree).1 p = s.tree.entry? p ∧
      FileTree.entry? (k.staged.drop s.tree) p = s.tree.entry? p := by
  obtain ⟨hplace, hbeside⟩ := h.free k hk
  have hs := h.stands k hk
  have hjs := h.stands j hj
  have hapart := hjs.apart hs hne
  have hcommit := hjs.keep (hs.keepsDirs_commit hbeside hplace)
  have hdrop := hjs.keep (hs.keepsDirs_drop hbeside)
  rcases hp with rfl | rfl
  · rw [hcommit.entry?_path, hdrop.entry?_path, hjs.entry?_path, hs.get?_commit hbeside hplace,
      hs.get?_drop hbeside, if_neg fun hm => hapart.place_place hm.2,
      if_neg fun hm => hapart.place_beside hm.2]
    exact ⟨rfl, rfl⟩
  · rw [hcommit.entry?_stagingPath, hdrop.entry?_stagingPath, hjs.entry?_stagingPath,
      hs.get?_commit hbeside hplace, hs.get?_drop hbeside,
      if_neg fun hm => hapart.beside_place hm.2, if_neg fun hm => hapart.beside_beside hm.2]
    exact ⟨rfl, rfl⟩

end

/-- Handles of different files are isolated. Of several handles of one file, those that had to write
contents share what waits: a commit installs what was staged last, once. -/
theorem outlook_of_run {start : FileTree} {es : List Event} {s : Session} {k : Handle}
    (h : Run Undisturbed start es s) (hk : k ∈ s.live) : Outlook start es s k := by
  have hreflects := reflects_of_run h
  have hs := hreflects.stands k hk
  obtain ⟨-, hb⟩ := hreflects.free k hk
  obtain ⟨hfinal, hwaiting⟩ := hreflects.file_eq hk
  exact {
    staged := hreflects.live k hk
    located := hs.locate_path
    final := hs.entry?_path.trans hfinal
    idle := hs.commit_of_idle
    delivers := fun _ hw he => hreflects.delivers hk hw he
    missing := fun hw hnone => hs.commit_of_none hw (hwaiting.trans hnone)
    own := fun _ _ hes hafter => hreflects.own hk hes hafter
    drops := by
      rw [(hs.keep (hs.keepsDirs_drop hb)).entry?_path, hs.entry?_path,
        hs.get?_drop hb, if_neg fun hm => k.slot.place_ne_beside hm.2]
    apart := fun _ hj hne _ hp => hreflects.apart hk hj hne hp }

/-- A file with these contents. -/
def userFile (contents : String) : Artifact := ⟨⟨[.plain "user"]⟩, sanitizationsFile, contents⟩

/-- What staging a `userFile` yields if the file has other contents. -/
def userStaged : Staged :=
  ⟨some ⟨"out/user/sanitizations.rs.tmp"⟩, ⟨"out/user/sanitizations.rs"⟩⟩

/-- What keeps a session undisturbed whose live handles are all of the `userFile`. -/
def userFree (t : FileTree) : Bool :=
  !t.isDirectory userStaged.path && !t.isDirectory (Artifact.stagingPath userStaged.path)

theorem undisturbed_of_userFree {s v : Session} {e : Event} (hn : e.Named) (he : e ≠ .other)
    (hlive : ∀ k ∈ v.live, k.path = userStaged.path) (hv : userFree v.tree = true) :
    Undisturbed s e v := by
  rw [userFree, Bool.and_eq_true, Bool.not_eq_true', Bool.not_eq_true'] at hv
  refine ⟨hn, he, fun k hk => ?_⟩
  rw [hlive k hk]
  exact hv

/-- A file is staged twice in an empty tree. Both handles wait in one place. -/
theorem exists_run_twice : ∃ t a b, Run Undisturbed ⟨[], []⟩ [.staged a, .staged b] ⟨t, [b, a]⟩ ∧
    a.staged = userStaged ∧ a.artifact.contents = "first" ∧
    b.staged = userStaged ∧ b.artifact.contents = "second" ∧
    (userStaged.commit t).2 = .ok userStaged.path ∧
    FileTree.readText (userStaged.commit t).1 userStaged.path = some "second" ∧
    userFree (userStaged.commit t).1 = true ∧
    (userStaged.commit (userStaged.commit t).1).2.toOption = none ∧
    userFree (userStaged.commit (userStaged.commit t).1).1 = true := by
  obtain ⟨t, ht⟩ : ∃ t, ((userFile "first").stage ⟨"out"⟩ ⟨[], []⟩).1 = t := ⟨_, rfl⟩
  obtain ⟨t', ht'⟩ : ∃ t', ((userFile "second").stage ⟨"out"⟩ t).1 = t' := ⟨_, rfl⟩
  have hstage : ((userFile "first").stage ⟨"out"⟩ ⟨[], []⟩).2.toOption = some userStaged ∧
      userFree t = true := by
    subst ht
    decide +kernel
  have hstage' : ((userFile "second").stage ⟨"out"⟩ t).2.toOption = some userStaged ∧
      userFree t' = true := by
    subst ht' ht
    decide +kernel
  have hcommit : (userStaged.commit t').2.toOption = some userStaged.path ∧
      FileTree.readText (userStaged.commit t').1 userStaged.path = some "second" ∧
      userFree (userStaged.commit t').1 = true ∧
      (userStaged.commit (userStaged.commit t').1).2.toOption = none ∧
      userFree (userStaged.commit (userStaged.commit t').1).1 = true := by
    subst ht' ht
    decide +kernel
  let a := Handle.ofStaged ⟨"out"⟩ (userFile "first") userStaged t
  let b := Handle.ofStaged ⟨"out"⟩ (userFile "second") userStaged t'
  have hrun : Run Undisturbed ⟨[], []⟩ ([] ++ [.staged a]) ⟨t, [a]⟩ :=
    .snoc .nil (.staged (Prod.ext ht (ok_of_toOption hstage.1)))
      (undisturbed_of_userFree .sanitizations nofun (by simp [a, Handle.path, Handle.ofStaged])
        hstage.2)
  have hrun' : Run Undisturbed ⟨[], []⟩ ([] ++ [.staged a] ++ [.staged b]) ⟨t', [b, a]⟩ :=
    .snoc hrun (.staged (Prod.ext ht' (ok_of_toOption hstage'.1)))
      (undisturbed_of_userFree .sanitizations nofun (by simp [a, b, Handle.path, Handle.ofStaged])
        hstage'.2)
  exact ⟨t', a, b, hrun', rfl, rfl, rfl, rfl, ok_of_toOption hcommit.1, hcommit.2⟩

/-- The handle that was staged last installs its contents. -/
theorem outlook_of_run_twice : ∃ es s k t, Run Undisturbed ⟨[], []⟩ es s ∧ s.live.length = 2 ∧
    k ∈ s.live ∧ k.staged.commit s.tree = (t, .ok k.path) ∧ t.readText k.path = some "second" := by
  obtain ⟨t, a, b, hrun, -, -, -, hcontents, -⟩ := exists_run_twice
  obtain ⟨t', hcommit, hread⟩ :=
    (outlook_of_run hrun List.mem_cons_self).own [.staged a] [] rfl nofun
  rw [hcontents] at hread
  exact ⟨_, _, b, t', hrun, rfl, List.mem_cons_self, hcommit, hread⟩

/-- The handle that was staged first installs the contents of the other one, which then fails. -/
theorem not_own_twice : ∃ es s v w a b p e, Run Undisturbed ⟨[], []⟩ es s ∧ s.live = [b, a] ∧
    s.Step (.committed a (.ok p)) v ∧ Undisturbed s (.committed a (.ok p)) v ∧
    v.tree.readText p ≠ some a.artifact.contents ∧
    v.Step (.committed b (.error e)) w ∧ Undisturbed v (.committed b (.error e)) w := by
  obtain ⟨t, a, b, hrun, ha, hfirst, hb, hsecond, hcommit, hread, hfree, hfails, hfree'⟩ :=
    exists_run_twice
  obtain ⟨t', ht'⟩ : ∃ t', (userStaged.commit t).1 = t' := ⟨_, rfl⟩
  rw [ht'] at hread hfree hfails hfree'
  obtain ⟨e, he⟩ : ∃ e, (userStaged.commit t').2 = .error e := by
    rcases h : (userStaged.commit t').2 with e | p
    · exact ⟨e, rfl⟩
    · rw [h] at hfails
      cases hfails
  have herase : [b, a].erase a = [b] := by
    have hne : b ≠ a := by
      rintro rfl
      exact absurd (hfirst.symm.trans hsecond) (by decide)
    rw [List.erase_cons_tail (by simpa using hne), List.erase_cons_head]
  have hcommitted : Step ⟨t, [b, a]⟩ (.committed a (.ok userStaged.path)) ⟨t', [b]⟩ :=
    herase ▸ .committed (by simp) (by rw [ha]; exact Prod.ext ht' hcommit)
  have hfailed : Step ⟨t', [b]⟩ (.committed b (.error e))
      ⟨(userStaged.commit t').1, [b].erase b⟩ :=
    .committed (by simp) (by rw [hb]; exact Prod.ext rfl he)
  refine ⟨_, _, _, _, a, b, _, e, hrun, rfl, hcommitted,
    undisturbed_of_userFree trivial nofun (by simp [Handle.path, hb]) hfree, ?_, hfailed,
    undisturbed_of_userFree trivial nofun (by simp) hfree'⟩
  rw [hread, hfirst]
  decide

end Session

end SanitizeGen
