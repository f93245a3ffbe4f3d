import SanitizeGen.Proofs.PathComponents
import SanitizeGen.Proofs.TreeFrame

/-!
# Paths that continue a directory

A path that continues another one leads on from the directory that the other one leads to, whatever
its text is. So of the path `p` in `p.child name` only `dirAt p` matters, for the file that the
child is (`contents?_child`), for the directory that it is (`dirAt_child`) and for the directory
that it is in (`dirAt_directory_child`).
-/

namespace SanitizeGen

open FilePath

/-! ### Starts of paths -/

namespace FilePath

variable {p q : FilePath}

theorem isAbsolute_iff_components : p.isAbsolute = true ↔ p.components.head? = some [] := by
  rw [isAbsolute_iff, components]
  split
  · rename_i h
    rw [pieces_of_isEmpty h]
    simp
  · rename_i h
    obtain ⟨first, rest, hpieces⟩ := List.exists_cons_of_ne_nil p.pieces_ne_nil
    have hne : first = [] → rest ≠ [] := by
      rintro rfl rfl
      have hjoin := p.ofList_joinSlash_pieces
      rw [hpieces] at hjoin
      exact h (hjoin ▸ rfl)
    simp only [hpieces, normal, List.take_succ_cons, List.take_zero, List.singleton_append,
      List.head?_cons, Option.some.injEq, List.cons.injEq]
    constructor
    · rintro ⟨ps, -, hfirst, -⟩
      exact hfirst
    · exact fun hfirst => ⟨rest, hne hfirst, hfirst, rfl⟩

theorem isAbsolute_join (hq : q.isAbsolute = false) : (p.join q).isAbsolute = p.isAbsolute := by
  by_cases hp : p.text.isEmpty = true
  · have hnil := components_eq_nil.2 hp
    have hpabs : p.isAbsolute = false :=
      Bool.eq_false_iff.2 fun h => by simp [isAbsolute_iff_components, hnil] at h
    rw [join_of_isEmpty hp, hq, hpabs]
  · have hne : p.components ≠ [] := fun h => hp (components_eq_nil.1 h)
    obtain ⟨first, rest, hfirst⟩ := List.exists_cons_of_ne_nil hne
    rw [Bool.eq_iff_iff, isAbsolute_iff_components, isAbsolute_iff_components,
      components_join hp hq, hfirst]
    rfl

/-- What follows a path is behind parts that lead where the path does. -/
theorem exists_pieces_child (p : FilePath) {name : String}
    (h : FilePath.isAbsolute ⟨name⟩ = false) : ∃ ps,
      (p.child name).pieces = ps ++ (⟨name⟩ : FilePath).pieces ∧ ps.filter isPart = p.parts := by
  by_cases hp : p.text.isEmpty = true
  · refine ⟨[], ?_, ?_⟩
    · rw [child, join_of_isEmpty hp, List.nil_append]
    · rw [parts, pieces_of_isEmpty hp]
      rfl
  · obtain ⟨ps, ends, -, hends, hpieces, hjoin⟩ := exists_pieces_join hp h
    refine ⟨ps, hjoin, ?_⟩
    rw [parts, hpieces, List.filter_append, hends, List.append_nil]

theorem parts_directory (p : FilePath) : p.directory.parts = p.parts.dropLast := by
  rw [← filter_components, ← filter_components, components_directory, components]
  split
  · rfl
  · obtain ⟨first, rest, hpieces⟩ := List.exists_cons_of_ne_nil p.pieces_ne_nil
    have hnormal : normal p.pieces = [first] ++ rest.filter isPart := by rw [hpieces]; rfl
    rw [hnormal]
    -- the last component is the first one, or it is a part
    rcases List.eq_nil_or_concat (rest.filter isPart) with hnil | ⟨qs, q, hconcat⟩
    · rw [hnil, List.filter_append]
      cases hfirst : isPart first <;> simp [hfirst]
    · have hq : isPart q = true := by
        have hmem : q ∈ rest.filter isPart := by simp [hconcat]
        exact (List.mem_filter.1 hmem).2
      rw [hconcat, List.concat_eq_append, ← List.append_assoc, List.dropLast_concat,
        List.filter_append _ [q], List.filter_cons_of_pos hq, List.filter_nil,
        List.dropLast_concat]

theorem isAbsolute_directory (h : p.parts ≠ []) : p.directory.isAbsolute = p.isAbsolute := by
  rw [Bool.eq_iff_iff, isAbsolute_iff_components, isAbsolute_iff_components, components_directory]
  rw [← filter_components] at h
  rcases hc : p.components with _ | ⟨first, _ | ⟨second, rest⟩⟩
  · simp
  · rw [hc] at h
    have hfirst : first ≠ [] := by
      rintro rfl
      exact h rfl
    simpa using hfirst
  · simp

end FilePath

/-- What an entry holds if it is a file. -/
def Entry.contents? : Entry → Option Contents
  | directory => none
  | file c => some c

namespace FileTree

variable {t t' : FileTree} {l m : Location} {ps qs : List (List Char)}

/-! ### Parts of paths -/

/-- What the file holds that a path leads to. -/
def contents? (t : FileTree) (p : FilePath) : Option Contents :=
  match t.locate p with
  | .ok l => (t.get? l).bind Entry.contents?
  | .error _ => none

theorem isFile_eq (p : FilePath) : t.isFile p = (t.contents? p).isSome := by
  rw [isFile, contents?, entry?]
  rcases t.locate p with e | l
  · rfl
  · simp only
    rcases t.get? l with _ | _ | c <;> rfl

theorem readText_eq (p : FilePath) : t.readText p = (t.contents? p).bind Contents.text? := by
  rw [readText, contents?, entry?]
  rcases t.locate p with e | l
  · rfl
  · simp only
    rcases t.get? l with _ | _ | c <;> rfl

/-- The directory that some parts of a path lead to from `l`. -/
def enter (t : FileTree) (l : Location) (ps : List (List Char)) : Option Location :=
  match t.walk l ps with
  | .ok m => if t.get? m = some .directory then some m else none
  | .error _ => none

/-- What the file holds that some parts of a path lead to from `l`. -/
def fileFrom (t : FileTree) (l : Location) (ps : List (List Char)) : Option Contents :=
  match t.walk l ps with
  | .ok m => (t.get? m).bind Entry.contents?
  | .error _ => none

/-- The directory that a path leads to. The empty path leads to the working directory. -/
def dirAt (t : FileTree) (p : FilePath) : Option Location := t.enter (t.start p) p.parts

theorem enter_eq_some :
    t.enter l ps = some m ↔ t.walk l ps = .ok m ∧ t.get? m = some .directory := by
  rw [enter]
  rcases t.walk l ps with e | n
  · simp
  · by_cases hd : t.get? n = some .directory
    · simp only [if_pos hd, Option.some.injEq, Except.ok.injEq]
      constructor
      · rintro rfl
        exact ⟨rfl, hd⟩
      · exact And.left
    · simp only [if_neg hd, Except.ok.injEq]
      refine iff_of_false nofun ?_
      rintro ⟨rfl, h⟩
      exact hd h

theorem exists_walk_error (h : t.get? l ≠ some .directory) (hps : ps ≠ []) :
    ∃ e, t.walk l ps = .error e := by
  obtain ⟨p, ps, rfl⟩ := List.exists_cons_of_ne_nil hps
  rw [walk]
  rcases hl : t.get? l with _ | _ | c
  · exact ⟨_, rfl⟩
  · exact absurd hl h
  · exact ⟨_, rfl⟩

theorem enter_of_not_directory (h : t.get? l ≠ some .directory) : t.enter l ps = none := by
  rw [enter]
  by_cases hps : ps = []
  · subst hps
    exact if_neg h
  · obtain ⟨e, he⟩ := exists_walk_error h hps
    rw [he]

theorem enter_append : t.enter l (ps ++ qs) = (t.enter l ps).bind (t.enter · qs) := by
  rw [enter, walk_append]
  rcases hw : t.walk l ps with e | m
  · simp [enter, hw]
  · by_cases hd : t.get? m = some .directory
    · rw [enter_eq_some.2 ⟨hw, hd⟩]
      rfl
    · have hnone : t.enter l ps = none := by simp [enter, hw, hd]
      rw [hnone]
      exact enter_of_not_directory hd

theorem fileFrom_append (hqs : qs ≠ []) :
    t.fileFrom l (ps ++ qs) = (t.enter l ps).bind (t.fileFrom · qs) := by
  rw [fileFrom, walk_append]
  rcases hw : t.walk l ps with e | m
  · simp [enter, hw]
  · by_cases hd : t.get? m = some .directory
    · rw [enter_eq_some.2 ⟨hw, hd⟩]
      rfl
    · have hnone : t.enter l ps = none := by simp [enter, hw, hd]
      obtain ⟨e, he⟩ := exists_walk_error hd hqs
      simp [hnone, he]

theorem walk_void {q : List Char} (hq : isPart q = false) (hd : t.get? l = some .directory) :
    t.walk l (q :: ps) = t.walk l ps := by
  have hvoid : (q.isEmpty || q == ['.']) = true := by
    simpa only [isPart, isVoid, Bool.not_false, Bool.and_true, Bool.not_eq_false'] using hq
  rw [walk, hd]
  simp only [hvoid, if_true]

/-- Void parts do not matter on the way to a directory. -/
theorem enter_filter (l : Location) (ps : List (List Char)) :
    t.enter l (ps.filter isPart) = t.enter l ps := by
  induction ps generalizing l with
  | nil => rfl
  | cons q ps ih =>
    by_cases hd : t.get? l = some .directory
    · rcases hq : isPart q with _ | _
      · rw [List.filter_cons_of_neg (by simp [hq]), ih, enter, enter, walk_void hq hd]
      · have hstep (rs : List (List Char)) :
            t.enter l (q :: rs) = (t.enter l [q]).bind (t.enter · rs) := by
          rw [← enter_append, List.singleton_append]
        rw [List.filter_cons_of_pos hq, hstep, hstep ps]
        simp only [ih]
    · rw [enter_of_not_directory hd, enter_of_not_directory hd]

/-- Parts that are all void lead to no file. -/
theorem fileFrom_void (hps : ps ≠ []) (h : ps.filter isPart = []) : t.fileFrom l ps = none := by
  obtain ⟨qs, q, rfl⟩ := (List.eq_nil_or_concat ps).resolve_left hps
  have hq : isPart q = false := by
    rw [List.concat_eq_append, List.filter_append, List.append_eq_nil_iff] at h
    simpa [List.filter_cons] using h.2
  rw [List.concat_eq_append, fileFrom_append (by simp)]
  rcases hent : t.enter l qs with _ | m
  · rfl
  · have hd := (enter_eq_some.1 hent).2
    rw [Option.bind_some, fileFrom, walk_void hq hd, walk]
    simp only [hd, Option.bind_some, Entry.contents?]

theorem contents?_eq (p : FilePath) : t.contents? p = t.fileFrom (t.start p) p.pieces := by
  rw [contents?, locate]
  by_cases hp : p.text.isEmpty = true
  · rw [if_pos hp, fileFrom_void p.pieces_ne_nil (by rw [pieces_of_isEmpty hp]; rfl)]
  · rw [if_neg hp, fileFrom]

/-! ### Children -/

section

variable {p p' : FilePath} {name : String}

theorem start_child (h : FilePath.isAbsolute ⟨name⟩ = false) :
    t.start (p.child name) = t.start p := by
  rw [start, start, child, isAbsolute_join h]

theorem contents?_child (h : FilePath.isAbsolute ⟨name⟩ = false) : t.contents? (p.child name) =
    (t.dirAt p).bind (t.fileFrom · (⟨name⟩ : FilePath).pieces) := by
  obtain ⟨ps, hpieces, hparts⟩ := exists_pieces_child p h
  rw [contents?_eq, start_child h, hpieces, fileFrom_append (pieces_ne_nil _), dirAt, ← hparts,
    enter_filter]

/-- A file is in a directory. -/
theorem exists_dirAt_of_contents? (h : FilePath.isAbsolute ⟨name⟩ = false)
    (hfile : (t.contents? (p.child name)).isSome = true) : ∃ d, t.dirAt p = some d := by
  rw [contents?_child h] at hfile
  rcases hd : t.dirAt p with _ | d
  · simp [hd] at hfile
  · exact ⟨d, rfl⟩

theorem locate_child_of_dirAt {d : Location} (h : IsComponent name) (hd : t.dirAt p = some d) :
    t.locate (p.child name) = t.walk d [name.toList] := by
  have hrel := h.isAbsolute_eq_false
  have hne : ¬(p.child name).text.isEmpty = true := by
    rw [← components_eq_nil, h.components_child]
    simp
  obtain ⟨ps, hpieces, hparts⟩ := exists_pieces_child p hrel
  rw [dirAt, ← hparts, enter_filter] at hd
  rw [locate, if_neg hne, start_child hrel, hpieces, walk_append, (enter_eq_some.1 hd).1,
    h.pieces_eq]

theorem dirAt_child (h : FilePath.isAbsolute ⟨name⟩ = false) : t.dirAt (p.child name) =
    (t.dirAt p).bind (t.enter · (⟨name⟩ : FilePath).parts) := by
  rw [dirAt, start_child h, child, parts_join h, enter_append, dirAt]

theorem dirAt_directory (h : p.parts ≠ []) :
    t.dirAt p.directory = t.enter (t.start p) p.parts.dropLast := by
  rw [dirAt, start, isAbsolute_directory h, parts_directory, ← start]

/-- The name of a file leads somewhere. -/
theorem parts_ne_nil_of_contents? (h : FilePath.isAbsolute ⟨name⟩ = false)
    (hfile : (t.contents? (p.child name)).isSome = true) : (⟨name⟩ : FilePath).parts ≠ [] := by
  intro hparts
  rw [contents?_child h] at hfile
  rcases hd : t.dirAt p with _ | d
  · simp [hd] at hfile
  · simp [hd, fileFrom_void (pieces_ne_nil _) hparts] at hfile

theorem dirAt_directory_child (h : FilePath.isAbsolute ⟨name⟩ = false)
    (hfile : (t.contents? (p.child name)).isSome = true) : t.dirAt (p.child name).directory =
      (t.dirAt p).bind (t.enter · (⟨name⟩ : FilePath).parts.dropLast) := by
  have hname := parts_ne_nil_of_contents? h hfile
  have hparts : (p.child name).parts = p.parts ++ (⟨name⟩ : FilePath).parts := parts_join h
  rw [dirAt_directory (by simp [hparts, hname]), hparts, List.dropLast_append_of_ne_nil hname,
    start_child h, enter_append, dirAt]

/-- A path that is continued matters by the directory that it leads to. -/
theorem contents?_child_congr (h : t.dirAt p = t.dirAt p') (name : String) :
    t.contents? (p.child name) = t.contents? (p'.child name) := by
  by_cases habs : FilePath.isAbsolute ⟨name⟩ = true
  · rw [child_of_isAbsolute habs, child_of_isAbsolute habs]
  · have hrel : FilePath.isAbsolute ⟨name⟩ = false := by simpa using habs
    rw [contents?_child hrel, contents?_child hrel, h]

theorem dirAt_child_congr (h : t.dirAt p = t.dirAt p') (name : String) :
    t.dirAt (p.child name) = t.dirAt (p'.child name) := by
  by_cases habs : FilePath.isAbsolute ⟨name⟩ = true
  · rw [child_of_isAbsolute habs, child_of_isAbsolute habs]
  · have hrel : FilePath.isAbsolute ⟨name⟩ = false := by simpa using habs
    rw [dirAt_child hrel, dirAt_child hrel, h]

theorem dirAt_directory_child_congr (h : t.dirAt p = t.dirAt p')
    (hfile : (t.contents? (p.child name)).isSome = true) :
    t.dirAt (p.child name).directory = t.dirAt (p'.child name).directory := by
  by_cases habs : FilePath.isAbsolute ⟨name⟩ = true
  · rw [child_of_isAbsolute habs, child_of_isAbsolute habs]
  · have hrel : FilePath.isAbsolute ⟨name⟩ = false := by simpa using habs
    have hfile' : (t.contents? (p'.child name)).isSome = true := by
      rwa [← contents?_child_congr h]
    rw [dirAt_directory_child hrel hfile, dirAt_directory_child hrel hfile', h]

end

/-! ### Trees that keep their directories -/

namespace KeepsDirs

variable (h : KeepsDirs t t') {p : FilePath} {d : Location} {name : String}

include h

theorem enter (hl : t.enter l ps = some m) : t'.enter l ps = some m := by
  obtain ⟨hw, hd⟩ := enter_eq_some.1 hl
  exact enter_eq_some.2 ⟨h.walk hw, h.directory m hd⟩

theorem dirAt (hd : t.dirAt p = some d) : t'.dirAt p = some d := by
  rw [FileTree.dirAt, h.start_eq]
  exact h.enter hd

/-- Where a name leads in a directory depends on nothing else. -/
theorem locate_child (hn : IsComponent name) (hd : t.dirAt p = some d) :
    t'.locate (p.child name) = t.locate (p.child name) := by
  have hdir := (enter_eq_some.1 hd).2
  rw [locate_child_of_dirAt hn hd, locate_child_of_dirAt hn (h.dirAt hd)]
  simp only [FileTree.walk, hdir, h.directory d hdir]

end KeepsDirs

end FileTree

end SanitizeGen
