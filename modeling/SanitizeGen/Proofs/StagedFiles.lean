import SanitizeGen.Build.Staging
import SanitizeGen.Proofs.TreeFrame

/-!
# Staging and committing by location

In a directory that opens, `stage`, `commit` and `drop` are changes at two places: that of the file,
and that beside it where its contents wait. One equation each says what the operation does there.
-/

namespace SanitizeGen

open FileTree

/-- The name under which the contents of a file wait. -/
def waitingName (f : String) : String := f ++ ".tmp"

/-- A name of a generated file. -/
structure IsGeneratedName (f : String) : Prop where
  name : FilePath.IsName f
  waiting : FilePath.IsName (waitingName f)
  stem : FilePath.stem f.toList ++ ".rs".toList = f.toList

namespace IsGeneratedName

theorem root : IsGeneratedName rootFile :=
  ⟨⟨by decide, by decide, by decide, by decide, by decide, by decide⟩,
    ⟨by decide, by decide, by decide, by decide, by decide, by decide⟩, by decide⟩

theorem sanitizations : IsGeneratedName sanitizationsFile :=
  ⟨⟨by decide, by decide, by decide, by decide, by decide, by decide⟩,
    ⟨by decide, by decide, by decide, by decide, by decide, by decide⟩, by decide⟩

theorem ne_waitingName (f : String) : f ≠ waitingName f := by
  intro h
  have hl := congrArg (fun s : String => s.toList.length) h
  simp [waitingName] at hl

variable {f : String} (hf : IsGeneratedName f)

include hf

theorem stagingPath_child (dir : FilePath) :
    Artifact.stagingPath (dir.child f) = dir.child (waitingName f) := by
  refine hf.name.withExtension_child dir hf.waiting "rs.tmp" ?_
  have hs : "rs.tmp".toList = "rs".toList ++ ".tmp".toList := by decide
  have h := congrArg (· ++ ".tmp".toList) hf.stem
  rw [waitingName, String.toList_append, ← h]
  simp

end IsGeneratedName

/-- A file of a directory, the contents it shall have, and whether they wait beside it. -/
structure Slot where
  dir : FilePath
  /-- Where the directory is. -/
  home : Location
  name : String
  contents : String
  waits : Bool

namespace Slot

variable (s : Slot)

def place : Location := s.home ++ [s.name]

def beside : Location := s.home ++ [waitingName s.name]

/-- The file as it shall be. -/
def entry : Entry := .file (.text s.contents)

def staged : Staged :=
  ⟨if s.waits then some (s.dir.child (waitingName s.name)) else none, s.dir.child s.name⟩

/-- Whether the contents would wait where a directory is. -/
def Blocked (t : FileTree) : Prop := s.waits = true ∧ t.get? s.beside = some .directory

/-- Whether the contents wait for a place where a directory is. -/
def Taken (t : FileTree) : Prop := s.waits = true ∧ t.get? s.place = some .directory

def wait (t : FileTree) : FileTree := if s.waits then t.set s.beside s.entry else t

def unwait (t : FileTree) : FileTree := if s.waits then t.erase s.beside else t

def deliver (t : FileTree) : FileTree :=
  if s.waits then (t.erase s.beside).set s.place s.entry else t

theorem place_ne_nil : s.place ≠ [] := by simp [place]

theorem beside_ne_nil : s.beside ≠ [] := by simp [beside]

variable (t : FileTree) (m : Location)

theorem get?_wait :
    (s.wait t).get? m = if s.waits = true ∧ m = s.beside then some s.entry else t.get? m := by
  rw [wait]
  cases s.waits
  · simp
  · simp [get?_set s.beside_ne_nil]

theorem get?_unwait :
    (s.unwait t).get? m = if s.waits = true ∧ m = s.beside then none else t.get? m := by
  rw [unwait]
  cases s.waits
  · simp
  · simp [get?_erase s.beside_ne_nil]

theorem get?_deliver : (s.deliver t).get? m = if s.waits = true ∧ m = s.place then some s.entry
    else if s.waits = true ∧ m = s.beside then none else t.get? m := by
  rw [deliver]
  cases s.waits
  · simp
  · simp [get?_set s.place_ne_nil, get?_erase s.beside_ne_nil]

variable {s t}

theorem keepsDirs_wait (h : ¬s.Blocked t) : KeepsDirs t (s.wait t) := by
  rw [wait]
  split
  · rename_i hw
    exact .set s.beside_ne_nil (.inr fun hd => h ⟨hw, hd⟩)
  · exact .refl t

theorem keepsDirs_deliver (hb : ¬s.Blocked t) (h : ¬s.Taken t) : KeepsDirs t (s.deliver t) := by
  rw [deliver]
  split
  · rename_i hw
    have he : KeepsDirs t (t.erase s.beside) := .erase s.beside_ne_nil fun hd => hb ⟨hw, hd⟩
    refine he.trans (.set s.place_ne_nil (.inr fun hd => h ⟨hw, ?_⟩))
    rw [get?_erase s.beside_ne_nil] at hd
    split at hd
    · cases hd
    · exact hd
  · exact .refl t

/-- What waits is there, and the path of the directory leads to it. -/
structure Awaited (s : Slot) (t : FileTree) : Prop where
  name : IsGeneratedName s.name
  opens : t.Opens s.dir s.home
  entry : s.waits = true → t.get? s.beside = some s.entry

theorem Awaited.not_blocked (h : s.Awaited t) : ¬s.Blocked t := by
  rintro ⟨hw, hd⟩
  rw [h.entry hw] at hd
  cases hd

theorem Awaited.drop_eq (h : s.Awaited t) : s.staged.drop t = s.unwait t := by
  rw [Staged.drop, staged, unwait]
  rcases hw : s.waits with _ | _
  · rfl
  · simp only [↓reduceIte]
    rw [h.opens.removeFile_child h.name.waiting (h.entry hw)]
    rfl

/-- What waits moves into place, unless a directory is there; it waits no more in either case. -/
theorem Awaited.commit_eq (h : s.Awaited t) :
    (s.Taken t → s.staged.commit t =
      (s.unwait t, .error (.file .rename (s.dir.child (waitingName s.name))))) ∧
    (¬s.Taken t → s.staged.commit t = (s.deliver t, .ok (s.dir.child s.name))) := by
  have hd := h.drop_eq
  rcases hw : s.waits with _ | _
  · refine ⟨fun ht => ?_, fun _ => ?_⟩
    · rw [ht.1] at hw
      cases hw
    · simp [Staged.commit, staged, deliver, hw]
  · have hr := h.opens.rename_child h.name.waiting h.name.name
      (IsGeneratedName.ne_waitingName _).symm (h.entry hw)
    refine ⟨fun ht => ?_, fun ht => ?_⟩
    · have hp : t.get? (s.home ++ [s.name]) = some .directory := ht.2
      rw [if_pos hp] at hr
      rw [staged, hw, if_pos rfl] at hd ⊢
      simp only [Staged.commit, hr, hd]
    · have hp : ¬t.get? (s.home ++ [s.name]) = some .directory := fun hp => ht ⟨hw, hp⟩
      rw [if_neg hp] at hr
      rw [staged, hw, if_pos rfl, deliver, if_pos hw]
      simp only [Staged.commit, hr]
      rfl

end Slot

namespace Artifact

variable {t made : FileTree} {dir outDir : FilePath} {d : Location} {a : Artifact}

/-- The file in a directory that is made. Its contents wait unless the file has them. -/
def slot (a : Artifact) (dir : FilePath) (d : Location) (t : FileTree) : Slot :=
  ⟨dir, d, a.fileName, a.contents,
    t.get? (d ++ [a.fileName]) ≠ some (.file (.text a.contents))⟩

section

variable (hdir : a.ns.dirIn outDir = dir) (hf : IsGeneratedName a.fileName)

include hdir hf

theorem stage_eq {ok : Bool} (hm : t.makeDirectories dir.folder = (made, ok)) : a.stage outDir t =
    if !ok then (made, .error (.file .makeDirectory dir.folder))
    else if made.readText (dir.child a.fileName) = some a.contents then
      (made, .ok ⟨none, dir.child a.fileName⟩)
    else match made.write (dir.child (waitingName a.fileName)) (.text a.contents) with
      | some written =>
        (written, .ok ⟨some (dir.child (waitingName a.fileName)), dir.child a.fileName⟩)
      | none => (made, .error (.file .write (dir.child (waitingName a.fileName)))) := by
  rw [stage, pathIn, hdir, hf.name.parent_child, hf.stagingPath_child, hf.name.directory_child]
  rcases hw : made.write (dir.child (waitingName a.fileName)) (.text a.contents) with _ | written
  · simp only [hm, hw]
  · simp only [hm, hw]

theorem stage_of_not_made (hm : t.makeDirectories dir.folder = (made, false)) :
    a.stage outDir t = (made, .error (.file .makeDirectory dir.folder)) := by
  rw [stage_eq hdir hf hm]
  rfl

/-- If its directory does not open, a file cannot be written. -/
theorem stage_of_not_opens (hm : t.makeDirectories dir.folder = (made, true))
    (h : ∀ d, ¬made.Opens dir d) :
    a.stage outDir t = (made, .error (.file .write (dir.child (waitingName a.fileName)))) := by
  have hloc {n : String} (hn : FilePath.IsName n) : ∃ e, made.locate (dir.child n) = .error e := by
    rcases hl : made.locate (dir.child n) with e | l
    · exact ⟨e, rfl⟩
    · obtain ⟨d, hd, -⟩ := exists_opens_of_locate hn hl
      exact absurd hd (h d)
  obtain ⟨e, he⟩ := hloc hf.name
  obtain ⟨e', he'⟩ := hloc hf.waiting
  have hr : made.readText (dir.child a.fileName) = none := by
    rw [readText, entry?, he]
  have hw : made.write (dir.child (waitingName a.fileName)) (.text a.contents) = none := by
    rw [write, he']
  rw [stage_eq hdir hf hm]
  simp [hr, hw]

/-- A file that has its contents is left alone; the contents of another one are written where they
wait, unless a directory is there. -/
theorem stage_of_opens (hm : t.makeDirectories dir.folder = (made, true)) (h : made.Opens dir d) :
    ((a.slot dir d made).Blocked made → a.stage outDir t =
      (made, .error (.file .write (dir.child (waitingName a.fileName))))) ∧
    (¬(a.slot dir d made).Blocked made → a.stage outDir t =
      ((a.slot dir d made).wait made, .ok (a.slot dir d made).staged)) := by
  have hread := h.readText_child hf.name a.contents
  have hwrite := h.write_child hf.waiting (.text a.contents)
  rw [stage_eq hdir hf hm]
  by_cases hhas : made.get? (d ++ [a.fileName]) = some (.file (.text a.contents))
  · have hw : (a.slot dir d made).waits = false := by simp [slot, hhas]
    refine ⟨fun hb => ?_, fun _ => ?_⟩
    · rw [hb.1] at hw
      cases hw
    · simp only [hread.2 hhas, Slot.wait, Slot.staged, hw]
      rfl
  · have hw : (a.slot dir d made).waits = true := by simp [slot, hhas]
    have hr : ¬made.readText (dir.child a.fileName) = some a.contents := fun hr => hhas (hread.1 hr)
    refine ⟨fun hb => ?_, fun hb => ?_⟩
    · have hd : made.get? (d ++ [waitingName a.fileName]) = some .directory := hb.2
      rw [if_pos hd] at hwrite
      simp [hr, hwrite]
    · have hd : ¬made.get? (d ++ [waitingName a.fileName]) = some .directory :=
        fun hd => hb ⟨hw, hd⟩
      rw [if_neg hd] at hwrite
      simp [hr, hwrite, hhas, Slot.wait, Slot.staged, Slot.beside, Slot.entry, slot]

end

theorem awaited_slot (hf : IsGeneratedName a.fileName) (h : made.Opens dir d)
    (hb : ¬(a.slot dir d made).Blocked made) :
    (a.slot dir d made).Awaited ((a.slot dir d made).wait made) := by
  refine ⟨hf, h.keep (Slot.keepsDirs_wait hb), fun hw => ?_⟩
  rw [Slot.get?_wait, if_pos ⟨hw, rfl⟩]

end Artifact

end SanitizeGen
