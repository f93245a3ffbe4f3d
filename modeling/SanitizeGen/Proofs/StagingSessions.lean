import SanitizeGen.Proofs.Installing
import SanitizeGen.Proofs.OutputPlaces

/-!
# Sessions of staged files

A `Session` is a file tree and the handles of files that are staged in it. `Session.Step` lists
what can happen next: a file is staged or refused, a handle is committed or dropped, or the tree
changes in another way. `Session.Run` follows the steps that some rule allows. What staging leaves
is told by the slot of the handle (`Session.Step.exists_fresh`), and slots of generated files that
have different places do not touch each other (`Slot.apart_of_place_ne`).
-/

namespace SanitizeGen

open FileTree

/-! ### Names -/

theorem IsGeneratedName.ne_waiting {f : String} (hf : IsGeneratedName f) (g : String) :
    f ≠ waitingName g := by
  intro h
  have hrs : f.toList.getLast? = some 's' := by
    rw [← hf.stem, List.getLast?_append]
    rfl
  have htmp : (waitingName g).toList.getLast? = some 'p' := by
    rw [waitingName, String.toList_append, List.getLast?_append]
    rfl
  rw [h, htmp] at hrs
  cases hrs

theorem waitingName_inj {f g : String} (h : waitingName f = waitingName g) : f = g := by
  have hl := congrArg String.toList h
  rw [waitingName, waitingName, String.toList_append, String.toList_append] at hl
  exact String.toList_inj.1 (List.append_cancel_right hl)

namespace Slot

variable {s r : Slot}

theorem eq_of_append_name {l m : Location} {f g : String} (h : l ++ [f] = m ++ [g]) :
    l = m ∧ f = g := by
  obtain ⟨hl, hn⟩ := List.append_inj' h rfl
  exact ⟨hl, List.singleton_inj.1 hn⟩

theorem place_ne_beside_of_name (hs : IsGeneratedName s.name) : s.place ≠ r.beside :=
  fun h => hs.ne_waiting _ (eq_of_append_name h).2

theorem place_eq_of_beside_eq (h : s.beside = r.beside) : s.place = r.place := by
  obtain ⟨hhome, hname⟩ := eq_of_append_name h
  rw [place, place, hhome, waitingName_inj hname]

theorem beside_eq_of_place_eq (h : s.place = r.place) : s.beside = r.beside := by
  obtain ⟨hhome, hname⟩ := eq_of_append_name h
  rw [beside, beside, hhome, hname]

/-- Generated files with different places have nothing in common. -/
theorem apart_of_place_ne (hs : IsGeneratedName s.name) (hr : IsGeneratedName r.name)
    (h : s.place ≠ r.place) : s.Apart r :=
  ⟨h, place_ne_beside_of_name hs, (place_ne_beside_of_name hr).symm,
    fun he => h (place_eq_of_beside_eq he)⟩

end Slot

/-! ### Staging -/

/-- Staging makes directories. Then the file is refused, or its contents are written. -/
theorem Artifact.stage_cases {a : Artifact} (hf : IsGeneratedName a.fileName) (outDir : FilePath)
    (t : FileTree) : ∃ made, MadeOnly t made (ancestors (a.ns.dirIn outDir).folder) ∧
      ((∃ e, a.stage outDir t = (made, .error e)) ∨ ∃ d, made.Opens (a.ns.dirIn outDir) d ∧
        ¬(a.slot (a.ns.dirIn outDir) d made).Blocked made ∧
        a.stage outDir t = ((a.slot (a.ns.dirIn outDir) d made).wait made,
          .ok (a.slot (a.ns.dirIn outDir) d made).staged)) := by
  have hmade := makeDirectories_madeOnly t (a.ns.dirIn outDir).folder
  rcases hm : t.makeDirectories (a.ns.dirIn outDir).folder with ⟨made, _ | _⟩
  · rw [hm] at hmade
    exact ⟨made, hmade, .inl ⟨_, stage_of_not_made rfl hf hm⟩⟩
  rw [hm] at hmade
  refine ⟨made, hmade, ?_⟩
  by_cases hd : ∃ d, made.Opens (a.ns.dirIn outDir) d
  · obtain ⟨d, hd⟩ := hd
    obtain ⟨hblocked, hfree⟩ := stage_of_opens rfl hf hm hd
    by_cases hb : (a.slot (a.ns.dirIn outDir) d made).Blocked made
    · exact .inl ⟨_, hblocked hb⟩
    · exact .inr ⟨d, hd, hb, hfree hb⟩
  · exact .inl ⟨_, stage_of_not_opens rfl hf hm fun d h => hd ⟨d, h⟩⟩

/-! ### Handles -/

/-- A generated file that has been staged. -/
structure Handle where
  outDir : FilePath
  artifact : Artifact
  staged : Staged
  /-- Where its directory was then. -/
  home : Location
  /-- What its path led to then. -/
  held : Option Entry
  deriving DecidableEq

namespace Handle

variable (h : Handle)

/-- The handle of a file that has been staged in the tree. -/
def ofStaged (outDir : FilePath) (a : Artifact) (x : Staged) (t : FileTree) : Handle :=
  ⟨outDir, a, x, (t.dirAt (a.ns.dirIn outDir)).getD [], t.entry? x.path⟩

def path : FilePath := h.staged.path

/-- Whether the contents wait beside the path. -/
def waits : Bool := h.staged.staging.isSome

def slot : Slot :=
  ⟨h.artifact.ns.dirIn h.outDir, h.home, h.artifact.fileName, h.artifact.contents, h.waits⟩

abbrev place : Location := h.slot.place

abbrev beside : Location := h.slot.beside

/-- The handle is one of a generated file, and its path leads to its place. -/
structure Stands (t : FileTree) : Prop where
  name : IsGeneratedName h.artifact.fileName
  staged : h.staged = h.slot.staged
  opens : t.Opens h.slot.dir h.home

/-- What a handle is right after staging in `made`, before its contents are written. -/
structure Fresh (made : FileTree) : Prop extends h.Stands made where
  free : ¬h.slot.Blocked made
  waits_iff : h.waits = true ↔ made.get? h.place ≠ some h.slot.entry
  held : h.held = made.get? h.place

namespace Stands

variable {h} {t t' : FileTree} (hs : h.Stands t)

include hs

theorem keep (hk : KeepsDirs t t') : h.Stands t' := ⟨hs.name, hs.staged, hs.opens.keep hk⟩

theorem path_eq : h.path = h.artifact.pathIn h.outDir := by
  rw [path, hs.staged]
  rfl

theorem locate_path : t.locate h.path = .ok h.place := by
  rw [hs.path_eq]
  exact hs.opens.locate_child hs.name.name

theorem entry?_path : t.entry? h.path = t.get? h.place := by
  unfold entry?
  rw [hs.locate_path]

theorem readText_path {c : String} :
    t.readText h.path = some c ↔ t.get? h.place = some (.file (.text c)) := by
  rw [hs.path_eq]
  exact hs.opens.readText_child hs.name.name c

theorem staging_eq : h.staged.staging =
    if h.waits then some (Artifact.stagingPath h.path) else none := by
  rw [hs.path_eq, Artifact.pathIn, hs.name.stagingPath_child, hs.staged]
  rfl

theorem locate_stagingPath : t.locate (Artifact.stagingPath h.path) = .ok h.beside := by
  rw [hs.path_eq, Artifact.pathIn, hs.name.stagingPath_child]
  exact hs.opens.locate_child hs.name.waiting

theorem entry?_stagingPath : t.entry? (Artifact.stagingPath h.path) = t.get? h.beside := by
  unfold entry?
  rw [hs.locate_stagingPath]

end Stands

theorem Stands.apart {h k : Handle} {t : FileTree} (hh : h.Stands t) (hk : k.Stands t)
    (hne : h.place ≠ k.place) : h.slot.Apart k.slot :=
  Slot.apart_of_place_ne hh.name hk.name hne

/-- A file whose contents do not wait has them. -/
theorem Fresh.get?_place {h : Handle} {made : FileTree} (hf : h.Fresh made)
    (hw : h.waits = false) : made.get? h.place = some h.slot.entry := by
  have hhas := not_congr hf.waits_iff
  simpa [hw] using hhas

theorem fresh_ofStaged {a : Artifact} {outDir : FilePath} {made : FileTree} {d : Location}
    {s : Slot} (hs : a.slot (a.ns.dirIn outDir) d made = s) (hf : IsGeneratedName a.fileName)
    (hd : made.Opens (a.ns.dirIn outDir) d) (hb : ¬s.Blocked made) :
    (ofStaged outDir a s.staged (s.wait made)).slot = s ∧
      (ofStaged outDir a s.staged (s.wait made)).Fresh made := by
  obtain ⟨k, hk⟩ : ∃ k, ofStaged outDir a s.staged (s.wait made) = k := ⟨_, rfl⟩
  have hopens := hd.keep (Slot.keepsDirs_wait hb)
  have hhome : k.home = d := by
    rw [← hk, ofStaged, opens_iff_dirAt.1 hopens]
    rfl
  have hwaits : k.waits = s.waits := by
    rw [← hk, waits, ofStaged, Slot.staged]
    cases s.waits <;> rfl
  have hslot : k.slot = s := by
    rw [slot, hhome, hwaits, ← hs, ← hk]
    rfl
  have hheld : k.held = made.get? k.place := by
    have hentry : k.held = (s.wait made).get? (d ++ [a.fileName]) := by
      rw [← hk, ← hopens.entry?_child hf.name, ← hs]
      rfl
    have hplace : d ++ [a.fileName] = s.place := by
      rw [← hs]
      rfl
    rw [hentry, place, hslot, hplace, Slot.get?_place_wait]
  rw [hk]
  refine ⟨hslot, ⟨?_, ?_, ?_⟩, ?_, ?_, hheld⟩
  · rw [← hk]
    exact hf
  · rw [hslot, ← hk]
    rfl
  · rw [hslot, hhome, ← hs]
    exact hd
  · rw [hslot]
    exact hb
  · rw [place, hslot, hwaits, ← hs]
    exact decide_eq_true_iff

end Handle

/-! ### Steps -/

/-- A file tree and the handles of staged files that are neither committed nor dropped. -/
structure Session where
  tree : FileTree
  live : List Handle

namespace Session

/-- What can happen in a session. -/
inductive Event where
  | staged (h : Handle)
  /-- Staging has failed. -/
  | refused (outDir : FilePath) (a : Artifact)
  | committed (h : Handle) (result : Except Error FilePath)
  | dropped (h : Handle)
  /-- The tree has changed in another way. -/
  | other

/-- One event, with the sessions before and after it. -/
inductive Step (s : Session) : Event → Session → Prop where
  | staged {outDir : FilePath} {a : Artifact} {t : FileTree} {x : Staged} :
      a.stage outDir s.tree = (t, .ok x) →
      Step s (.staged (.ofStaged outDir a x t)) ⟨t, .ofStaged outDir a x t :: s.live⟩
  | refused {outDir : FilePath} {a : Artifact} {t : FileTree} {e : Error} :
      a.stage outDir s.tree = (t, .error e) → Step s (.refused outDir a) ⟨t, s.live⟩
  | committed {h : Handle} {t : FileTree} {result : Except Error FilePath} : h ∈ s.live →
      h.staged.commit s.tree = (t, result) → Step s (.committed h result) ⟨t, s.live.erase h⟩
  | dropped {h : Handle} : h ∈ s.live →
      Step s (.dropped h) ⟨h.staged.drop s.tree, s.live.erase h⟩
  | other (t : FileTree) : Step s .other ⟨t, s.live⟩

/-- What follows in a tree without handles, one allowed step after another. -/
inductive Run (allowed : Session → Event → Session → Prop) (start : FileTree) :
    List Event → Session → Prop where
  | nil : Run allowed start [] ⟨start, []⟩
  | snoc {es : List Event} {s v : Session} {e : Event} : Run allowed start es s → s.Step e v →
      allowed s e v → Run allowed start (es ++ [e]) v

variable {s v : Session} {k : Handle}

/-- A staged file is fresh once directories are made, and then its contents are written. -/
theorem Step.exists_fresh (h : s.Step (.staged k) v) (hf : IsGeneratedName k.artifact.fileName) :
    ∃ made, MadeOnly s.tree made (ancestors k.slot.dir.folder) ∧ k.Fresh made ∧
      v = ⟨k.slot.wait made, k :: s.live⟩ := by
  cases h with
  | @staged outDir a t x hstage =>
    have hf : IsGeneratedName a.fileName := hf
    obtain ⟨made, hmade, ⟨e, he⟩ | ⟨d, hd, hb, hok⟩⟩ := a.stage_cases hf outDir s.tree
    · rw [hstage] at he
      cases he
    · obtain ⟨hslot, hfresh⟩ := Handle.fresh_ofStaged rfl hf hd hb
      obtain ⟨ht, hx⟩ := Prod.mk.inj (hstage.symm.trans hok)
      rw [← Except.ok.inj hx, ← ht] at hslot hfresh
      refine ⟨made, hmade, hfresh, ?_⟩
      rw [hslot, ← ht]

theorem Step.exists_made {outDir : FilePath} {a : Artifact}
    (h : s.Step (.refused outDir a) v) (hf : IsGeneratedName a.fileName) :
    ∃ made, MadeOnly s.tree made (ancestors (a.ns.dirIn outDir).folder) ∧ v = ⟨made, s.live⟩ := by
  cases h with
  | refused hstage =>
    obtain ⟨made, hmade, ⟨e, he⟩ | ⟨d, hd, hb, hok⟩⟩ := a.stage_cases hf outDir s.tree
    · rw [hstage] at he
      exact ⟨made, hmade, by rw [(Prod.mk.inj he).1]⟩
    · rw [hstage] at hok
      cases (Prod.mk.inj hok).2

/-- A result that is known by its value. -/
theorem ok_of_toOption {ε α : Type} {r : Except ε α} {x : α} (h : r.toOption = some x) :
    r = .ok x := by
  cases r with
  | error e => cases h
  | ok y => rw [Option.some.inj h]

end Session

end SanitizeGen
