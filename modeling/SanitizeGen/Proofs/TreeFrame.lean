import SanitizeGen.Proofs.ChildPaths

/-!
# What operations on file trees change

A tree is known by what `get?` finds at each location. `get?_set` and `get?_erase` say what a change
does there. Paths lead where they led as long as no directory goes away (`KeepsDirs.locate`).
Making a directory adds directories that lead to it and nothing else (`makeDirectories_madeOnly`).
What is done to the files of one directory is told by their locations (`Opens.locate_child`).
-/

namespace SanitizeGen.FileTree

variable {t t' t'' : FileTree} {l m : Location} {e : Entry}

/-! ### Entries -/

theorem lookup_map_replace (es : List (Location × Entry)) (l m : Location) (e : Entry) :
    (es.map fun p => if p.1 == l then (l, e) else p).lookup m =
      if m = l then (if es.any (·.1 == l) then some e else none) else es.lookup m := by
  induction es with
  | nil => simp
  | cons p es ih =>
    obtain ⟨k, x⟩ := p
    rw [List.map_cons, List.any_cons, List.lookup_cons]
    by_cases hk : k = l
    · subst hk
      simp only [beq_self_eq_true, if_true, Bool.true_or, List.lookup_cons]
      by_cases hm : m = k
      · simp only [hm, beq_self_eq_true, if_true]
      · rw [if_neg hm] at ih ⊢
        simp only [beq_eq_false_iff_ne.2 hm, ih]
    · simp only [beq_eq_false_iff_ne.2 hk, Bool.false_eq_true, if_false, Bool.false_or,
        List.lookup_cons, ih]
      by_cases hm : m = l
      · have hmk : m ≠ k := fun h => hk (h ▸ hm)
        simp only [if_pos hm, beq_eq_false_iff_ne.2 hmk]
      · simp only [if_neg hm]

theorem lookup_eq_none {es : List (Location × Entry)} (h : es.any (·.1 == l) = false) :
    es.lookup l = none := by
  rw [List.lookup_eq_none_iff]
  intro p hp
  have hne := List.any_eq_false.1 h p hp
  simp only [beq_iff_eq] at hne
  exact bne_iff_ne.2 fun hl => hne hl.symm

theorem lookup_filter (es : List (Location × Entry)) (l m : Location) :
    (es.filter (·.1 != l)).lookup m = if m = l then none else es.lookup m := by
  induction es with
  | nil => simp
  | cons p es ih =>
    obtain ⟨k, x⟩ := p
    by_cases hk : k = l
    · subst hk
      by_cases hm : m = k
      · rw [if_pos hm] at ih ⊢
        simp [ih]
      · rw [if_neg hm] at ih ⊢
        simp [ih, List.lookup_cons, beq_eq_false_iff_ne.2 hm]
    · rw [List.filter_cons_of_pos (by simpa using hk), List.lookup_cons, List.lookup_cons, ih]
      by_cases hm : m = l
      · have hmk : m ≠ k := fun h => hk (h ▸ hm)
        simp [hm, beq_eq_false_iff_ne.2 (hm ▸ hmk)]
      · simp [hm]

theorem get?_of_ne_nil (hl : l ≠ []) : t.get? l = t.entries.lookup l := by
  rw [get?, if_neg (by simpa using hl)]

@[simp] theorem get?_nil : t.get? [] = some .directory := rfl

theorem get?_set (hl : l ≠ []) (m : Location) :
    (t.set l e).get? m = if m = l then some e else t.get? m := by
  by_cases hm : m = []
  · subst hm
    rw [if_neg hl.symm, get?_nil, get?_nil]
  · rw [get?_of_ne_nil hm, get?_of_ne_nil hm, set]
    by_cases ha : t.entries.any (·.1 == l)
    · rw [if_pos ha]
      simp only [lookup_map_replace, ha, if_true]
    · have hn := lookup_eq_none (Bool.eq_false_iff.2 ha)
      rw [if_neg ha]
      simp only [List.lookup_append]
      by_cases hml : m = l
      · simp [hml, hn]
      · simp [hml, List.lookup_cons, beq_eq_false_iff_ne.2 hml]

theorem get?_erase (hl : l ≠ []) (m : Location) :
    (t.erase l).get? m = if m = l then none else t.get? m := by
  by_cases hm : m = []
  · subst hm
    rw [if_neg hl.symm, get?_nil, get?_nil]
  · rw [get?_of_ne_nil hm, get?_of_ne_nil hm, erase, lookup_filter]

@[simp] theorem working_set : (t.set l e).working = t.working := by
  rw [set]
  split <;> rfl

/-! ### Walks -/

theorem walk_append (l : Location) (ps qs : List (List Char)) : t.walk l (ps ++ qs) =
    match t.walk l ps with
    | .ok m => t.walk m qs
    | .error e => .error e := by
  induction ps generalizing l with
  | nil => rfl
  | cons p ps ih =>
    rw [List.cons_append, walk, walk]
    split
    · rfl
    · rfl
    · split
      · exact ih l
      · split
        · exact ih _
        · split
          · rfl
          · exact ih _

/-- All directories of a tree are directories of another one, and both have the same working
directory. -/
structure KeepsDirs (t t' : FileTree) : Prop where
  working : t'.working = t.working
  directory : ∀ l, t.get? l = some .directory → t'.get? l = some .directory

namespace KeepsDirs

theorem refl (t : FileTree) : KeepsDirs t t := ⟨rfl, fun _ h => h⟩

theorem trans (h : KeepsDirs t t') (k : KeepsDirs t' t'') : KeepsDirs t t'' :=
  ⟨k.working.trans h.working, fun l hl => k.directory l (h.directory l hl)⟩

theorem set (hl : l ≠ []) (h : e = .directory ∨ t.get? l ≠ some .directory) :
    KeepsDirs t (t.set l e) := by
  refine ⟨working_set, fun m hm => ?_⟩
  rw [get?_set hl]
  split
  · rename_i he
    rcases h with rfl | h
    · rfl
    · exact absurd (he ▸ hm) h
  · exact hm

theorem erase (hl : l ≠ []) (h : t.get? l ≠ some .directory) : KeepsDirs t (t.erase l) := by
  refine ⟨rfl, fun m hm => ?_⟩
  rw [get?_erase hl, if_neg fun he : m = l => h (he ▸ hm), hm]

variable (h : KeepsDirs t t')

include h

theorem walk {ps : List (List Char)} (hw : t.walk l ps = .ok m) : t'.walk l ps = .ok m := by
  induction ps generalizing l with
  | nil => exact hw
  | cons p ps ih =>
    rw [FileTree.walk] at hw ⊢
    split at hw
    · cases hw
    · cases hw
    · rename_i hd
      simp only [h.directory l hd]
      split at hw
      · rw [if_pos ‹_›]
        exact ih hw
      · rw [if_neg ‹_›]
        split at hw
        · rw [if_pos ‹_›]
          exact ih hw
        · rw [if_neg ‹_›]
          split at hw
          · cases hw
          · rw [if_neg ‹_›]
            exact ih hw

theorem start_eq (p : FilePath) : t'.start p = t.start p := by
  rw [start, start, h.working]

theorem locate {p : FilePath} (hl : t.locate p = .ok l) : t'.locate p = .ok l := by
  rw [FileTree.locate] at hl ⊢
  split at hl
  · cases hl
  · rw [if_neg ‹_›, h.start_eq]
    exact h.walk hl

theorem isDirectory {p : FilePath} (hp : t.isDirectory p = true) : t'.isDirectory p = true := by
  rw [FileTree.isDirectory, decide_eq_true_eq, entry?] at hp ⊢
  split at hp
  · rename_i hl
    rw [h.locate hl]
    exact h.directory _ hp
  · cases hp

end KeepsDirs

theorem isDirectory_iff {p : FilePath} :
    t.isDirectory p = true ↔ ∃ l, t.locate p = .ok l ∧ t.get? l = some .directory := by
  rw [isDirectory, decide_eq_true_eq, entry?]
  split
  · rename_i hl
    simp [hl]
  · rename_i hl
    simp [hl]

/-! ### Making directories -/

theorem walk_empty {ps : List (List Char)} (hps : ∀ p ∈ ps, p = [])
    (hl : t.get? l = some .directory) : t.walk l ps = .ok l := by
  induction ps with
  | nil => rfl
  | cons p ps ih =>
    obtain rfl := hps p (by simp)
    rw [walk, hl]
    exact ih fun p hp => hps p (by simp [hp])

theorem eq_of_walk_empty {ps : List (List Char)} (hps : ∀ p ∈ ps, p = [])
    (h : t.walk l ps = .ok m) : m = l := by
  induction ps with
  | nil => exact (Except.ok.inj h).symm
  | cons p ps ih =>
    obtain rfl := hps p (by simp)
    rw [walk] at h
    split at h
    · cases h
    · cases h
    · exact ih (fun p hp => hps p (by simp [hp])) h

/-- A path is as it is without the slashes at its end, and these. -/
theorem exists_pieces_eq (p : FilePath) : ∃ ends : List (List Char), (∀ q ∈ ends, q = []) ∧
    p.pieces = (p.pieces.reverse.dropWhile List.isEmpty).reverse ++ ends := by
  refine ⟨(p.pieces.reverse.takeWhile List.isEmpty).reverse, fun q hq => ?_, ?_⟩
  · have h := List.all_eq_true.1 List.all_takeWhile q (List.mem_reverse.1 hq)
    simpa using h
  · rw [← List.reverse_append, List.takeWhile_append_dropWhile, List.reverse_reverse]

theorem makeDirectory_eq_ok {p : FilePath} (h : t.makeDirectory p = .ok t') :
    ∃ l, l ≠ [] ∧ t.get? l = none ∧ t' = t.set l .directory ∧ t'.locate p = .ok l := by
  rw [makeDirectory] at h
  split at h
  · cases h
  rename_i hp
  split at h
  · cases h
  split at h
  · cases h
  rename_i l hw
  split at h
  · cases h
  rename_i hn
  have hn : t.get? l = none := by simpa using hn
  have hl : l ≠ [] := by
    rintro rfl
    cases hn
  obtain rfl := Except.ok.inj h
  have hk : KeepsDirs t (t.set l .directory) := .set hl (.inl rfl)
  obtain ⟨ends, he, hpieces⟩ := exists_pieces_eq p
  refine ⟨l, hl, hn, rfl, ?_⟩
  have hd : (t.set l .directory).get? l = some .directory := by rw [get?_set hl, if_pos rfl]
  rw [locate, if_neg hp, hpieces, walk_append, hk.start_eq, hk.walk hw]
  exact walk_empty he hd

theorem makeDirectory_of_isDirectory {p : FilePath} (h : t.isDirectory p = true) :
    t.makeDirectory p = .error .blocked := by
  obtain ⟨l, hl, hd⟩ := isDirectory_iff.1 h
  obtain ⟨ends, he, hpieces⟩ := exists_pieces_eq p
  rw [locate] at hl
  split at hl
  · cases hl
  · rename_i hp
    rw [hpieces, walk_append] at hl
    split at hl
    · rename_i m hw
      obtain rfl := eq_of_walk_empty he hl
      rw [makeDirectory, if_neg hp, hw]
      split
      · rfl
      · simp [hd]
    · cases hl

/-- Only directories are new, each at a place that one of the paths leads to. -/
structure MadeOnly (t t' : FileTree) (ps : List FilePath) : Prop where
  working : t'.working = t.working
  get? : ∀ l, t'.get? l = t.get? l ∨
    t.get? l = none ∧ t'.get? l = some .directory ∧ ∃ p ∈ ps, t'.locate p = .ok l

namespace MadeOnly

variable {ps : List FilePath}

theorem refl (t : FileTree) (ps : List FilePath) : MadeOnly t t ps := ⟨rfl, fun _ => .inl rfl⟩

theorem get?_file (h : MadeOnly t t' ps) (c : Contents) :
    t'.get? l = some (.file c) ↔ t.get? l = some (.file c) := by
  rcases h.get? l with he | ⟨hn, hd, -⟩
  · rw [he]
  · simp [hn, hd]

theorem keepsDirs (h : MadeOnly t t' ps) : KeepsDirs t t' := by
  refine ⟨h.working, fun l hl => ?_⟩
  rcases h.get? l with he | ⟨hn, -⟩
  · rw [he, hl]
  · cases hn.symm.trans hl

theorem cons (p : FilePath) (h : MadeOnly t t' ps) : MadeOnly t t' (p :: ps) := by
  refine ⟨h.working, fun l => ?_⟩
  rcases h.get? l with he | ⟨hn, hd, q, hq, hl⟩
  · exact .inl he
  · exact .inr ⟨hn, hd, q, List.mem_cons_of_mem _ hq, hl⟩

theorem makeDirectory {p : FilePath} (h : MadeOnly t t' ps) (hp : p ∈ ps)
    (hm : t'.makeDirectory p = .ok t'') : MadeOnly t t'' ps := by
  obtain ⟨m, hm0, hn, rfl, hl⟩ := makeDirectory_eq_ok hm
  have hk : KeepsDirs t' (t'.set m .directory) := .set hm0 (.inl rfl)
  refine ⟨working_set.trans h.working, fun l => ?_⟩
  rw [get?_set hm0]
  by_cases hlm : l = m
  · subst hlm
    rw [if_pos rfl]
    rcases h.get? l with he | ⟨-, hd, -⟩
    · exact .inr ⟨he.symm.trans hn, rfl, p, hp, hl⟩
    · rw [hn] at hd
      cases hd
  · rw [if_neg hlm]
    rcases h.get? l with he | ⟨ht, hd, q, hq, hql⟩
    · exact .inl he
    · exact .inr ⟨ht, hd, q, hq, hk.locate hql⟩

end MadeOnly

theorem makeFirst_madeOnly (t : FileTree) (ps : List FilePath) :
    MadeOnly t (t.makeFirst ps).1 ps := by
  induction ps with
  | nil => exact .refl t []
  | cons p up ih =>
    rw [makeFirst]
    split
    · exact .refl t _
    · split
      · rename_i hm
        exact (MadeOnly.refl t _).makeDirectory List.mem_cons_self hm
      · exact .refl t _
      · split
        · rename_i hup
          rw [hup] at ih
          exact ih.cons p
        · rename_i hup
          rw [hup] at ih
          split
          · rename_i hm
            exact (ih.cons p).makeDirectory List.mem_cons_self hm
          · exact ih.cons p

/-- What is said to be there in the end is there, if its path is not empty. -/
theorem isDirectory_of_makeFirst {p : FilePath} {up : List FilePath}
    (h : (t.makeFirst (p :: up)).2 = true) :
    p.text.isEmpty = true ∨ (t.makeFirst (p :: up)).1.isDirectory p = true := by
  have hmade {t t' : FileTree} (hm : t.makeDirectory p = .ok t') : t'.isDirectory p = true := by
    obtain ⟨l, hl, -, rfl, hp⟩ := makeDirectory_eq_ok hm
    exact isDirectory_iff.2 ⟨l, hp, by rw [get?_set hl, if_pos rfl]⟩
  rw [makeFirst] at h ⊢
  split
  · exact .inl ‹_›
  · rename_i hp
    rw [if_neg hp] at h
    refine .inr ?_
    split at h
    · rename_i hm
      exact hmade hm
    · exact h
    · split at h
      · cases h
      · split at h
        · rename_i hm
          exact hmade hm
        · exact h

theorem exists_ancestors_eq (p : FilePath) : ∃ up, ancestors p = p :: up := by
  rw [ancestors]
  rcases p.text.length with _ | n
  · exact ⟨_, rfl⟩
  · rw [ancestors.go]
    split
    · exact ⟨_, rfl⟩
    · exact ⟨_, rfl⟩

/-- Making directories adds directories that lead to the last one and changes nothing else. -/
theorem makeDirectories_madeOnly (t : FileTree) (p : FilePath) :
    MadeOnly t (t.makeDirectories p).1 (ancestors p) :=
  makeFirst_madeOnly t _

theorem makeDirectories_of_isDirectory {p : FilePath}
    (h : p.text.isEmpty = true ∨ t.isDirectory p = true) : t.makeDirectories p = (t, true) := by
  obtain ⟨up, hup⟩ := exists_ancestors_eq p
  rw [makeDirectories, hup, makeFirst]
  split
  · rfl
  · rename_i hp
    have hd := h.resolve_left hp
    rw [makeDirectory_of_isDirectory hd]
    simp [hd]

/-- Once directories are made, they need not be made again, in any tree that keeps them. -/
theorem makeDirectories_of_keepsDirs {p : FilePath} (h : (t.makeDirectories p).2 = true)
    (hk : KeepsDirs (t.makeDirectories p).1 t') : t'.makeDirectories p = (t', true) := by
  obtain ⟨up, hup⟩ := exists_ancestors_eq p
  rw [makeDirectories, hup] at h hk
  refine makeDirectories_of_isDirectory ?_
  rcases isDirectory_of_makeFirst h with he | hd
  · exact .inl he
  · exact .inr (hk.isDirectory hd)

/-! ### The files of one directory -/

/-- The path `dir` leads to the directory at `d` when a name is written behind it. -/
structure Opens (t : FileTree) (dir : FilePath) (d : Location) : Prop where
  walk : t.walk (t.start dir) dir.base = .ok d
  directory : t.get? d = some .directory

variable {dir : FilePath} {d : Location} {n k : String}

theorem walk_name (hn : FilePath.IsName n) (hd : t.get? d = some .directory) :
    t.walk d [n.toList] = .ok (d ++ [n]) := by
  have hfits := hn.fits
  rw [walk, hd]
  simp [hn.ne_nil, hn.ne_dot, hn.ne_dots, hn.noNul, hfits, walk]

theorem locate_child_eq (hn : FilePath.IsName n) :
    t.locate (dir.child n) = match t.walk (t.start dir) dir.base with
      | .ok m => t.walk m [n.toList]
      | .error e => .error e := by
  rw [locate, if_neg (by simp [hn.text_child_ne]), start, hn.isAbsolute_child, ← start,
    hn.pieces_child, walk_append]

/-- Files of a directory that a path leads to are in one that opens. -/
theorem exists_opens_of_locate (hn : FilePath.IsName n) (h : t.locate (dir.child n) = .ok l) :
    ∃ d, t.Opens dir d ∧ l = d ++ [n] := by
  rw [locate_child_eq hn] at h
  split at h
  · rename_i m hw
    rcases hm : t.get? m with _ | _ | c
    · rw [walk, hm] at h
      cases h
    · rw [walk_name hn hm] at h
      exact ⟨m, ⟨hw, hm⟩, (Except.ok.inj h).symm⟩
    · rw [walk, hm] at h
      cases h
  · cases h

namespace Opens

variable (h : t.Opens dir d)

include h

theorem keep (hk : KeepsDirs t t') : t'.Opens dir d :=
  ⟨by rw [hk.start_eq, hk.walk h.walk], hk.directory d h.directory⟩

theorem locate_child (hn : FilePath.IsName n) : t.locate (dir.child n) = .ok (d ++ [n]) := by
  rw [locate_child_eq hn, h.walk]
  exact walk_name hn h.directory

theorem entry?_child (hn : FilePath.IsName n) : t.entry? (dir.child n) = t.get? (d ++ [n]) := by
  unfold entry?
  rw [h.locate_child hn]

theorem isDirectory_child (hn : FilePath.IsName n) :
    t.isDirectory (dir.child n) = true ↔ t.get? (d ++ [n]) = some .directory := by
  rw [isDirectory, h.entry?_child hn, decide_eq_true_eq]

theorem isFile_child (hn : FilePath.IsName n) :
    t.isFile (dir.child n) = true ↔ ∃ c, t.get? (d ++ [n]) = some (.file c) := by
  rw [isFile, h.entry?_child hn]
  split
  · rename_i c hc
    simp [hc]
  · rename_i hne
    simpa using hne

theorem readText_child (hn : FilePath.IsName n) (s : String) :
    t.readText (dir.child n) = some s ↔ t.get? (d ++ [n]) = some (.file (.text s)) := by
  rw [readText, h.entry?_child hn]
  split
  · rename_i c hc
    cases c <;> simp [Contents.text?, hc]
  · rename_i hne
    simpa using hne _

theorem write_child (hn : FilePath.IsName n) (c : Contents) : t.write (dir.child n) c =
    if t.get? (d ++ [n]) = some .directory then none else some (t.set (d ++ [n]) (.file c)) := by
  rw [write, h.locate_child hn]

theorem removeFile_child (hn : FilePath.IsName n) {c : Contents}
    (hc : t.get? (d ++ [n]) = some (.file c)) :
    t.removeFile (dir.child n) = some (t.erase (d ++ [n])) := by
  rw [removeFile, h.locate_child hn]
  simp only [hc]

/-- A file moves to any place in its directory where no directory is. -/
theorem rename_child (hn : FilePath.IsName n) (hk : FilePath.IsName k) (hnk : n ≠ k) {c : Contents}
    (hc : t.get? (d ++ [n]) = some (.file c)) : t.rename (dir.child n) (dir.child k) =
      if t.get? (d ++ [k]) = some .directory then none
      else some ((t.erase (d ++ [n])).set (d ++ [k]) (.file c)) := by
  have hne : d ++ [n] ≠ d ++ [k] := fun he => hnk (by simpa using he)
  rw [rename, h.locate_child hn, h.locate_child hk]
  rcases ht : t.get? (d ++ [k]) with _ | _ | x
  · simp [hc, ht]
  · simp [hc, ht]
  · simp [hc, ht, hne]

end Opens

end SanitizeGen.FileTree
