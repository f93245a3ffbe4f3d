import SanitizeGen.Namespace
import SanitizeGen.Proofs.DirectoryPaths
import SanitizeGen.Proofs.StagedFiles

/-!
# Places of generated files

The files of a namespace are in the directory that its `folders` lead to from the directory for all
generated files (`Opens.exists_of_dirIn`). No folder has the name of a generated file, or of one
that waits. So a directory that is made on the way to generated files is in the place of none
(`MadeOnly.get?_of_dirIn`), and files of different paths have different places.
-/

namespace SanitizeGen

open FilePath

/-! ### Folders of namespaces -/

namespace Namespace

variable (ns : Namespace) (base : FilePath)

/-- The names of the directories that lead to the files of the namespace. -/
def folders : List String := ns.segments.map Ident.name

theorem dirIn_eq : ns.dirIn base = ns.folders.foldl FilePath.child base := by
  rw [dirIn, folders, List.foldl_map]

/-- A name that leads from a directory to a place right in it. -/
structure IsFolder (name : String) : Prop where
  component : IsComponent name
  /-- So it does not lead out of the directory. -/
  noDot : '.' ∉ name.toList

theorem isFolder_of_mem {name : String} (h : name ∈ ns.folders) : IsFolder name := by
  obtain ⟨i, -, rfl⟩ := List.mem_map.1 h
  exact ⟨i.isComponent_name, i.not_mem_name rfl⟩

theorem parts_foldl_child {names : List String} (h : ∀ n ∈ names, IsFolder n) (base : FilePath) :
    (names.foldl FilePath.child base).parts = base.parts ++ names.map String.toList ∧
      (names.foldl FilePath.child base).isAbsolute = base.isAbsolute := by
  induction names generalizing base with
  | nil => simp
  | cons n names ih =>
    obtain ⟨hn, hnames⟩ := List.forall_mem_cons.1 h
    have hrel := hn.component.isAbsolute_eq_false
    obtain ⟨hparts, habs⟩ := ih hnames (base.child n)
    have hchild : (base.child n).parts = base.parts ++ [n.toList] := by
      rw [FilePath.child, parts_join hrel, hn.component.parts_eq]
    rw [List.foldl_cons]
    exact ⟨by simp [hparts, hchild], habs.trans (isAbsolute_join hrel)⟩

theorem parts_dirIn : (ns.dirIn base).parts = base.parts ++ ns.folders.map String.toList := by
  rw [dirIn_eq]
  exact (parts_foldl_child (fun _ => ns.isFolder_of_mem) base).1

theorem isAbsolute_dirIn : (ns.dirIn base).isAbsolute = base.isAbsolute := by
  rw [dirIn_eq]
  exact (parts_foldl_child (fun _ => ns.isFolder_of_mem) base).2

end Namespace

/-! ### Ancestors -/

namespace FilePath

variable {p q : FilePath}

theorem filter_base (p : FilePath) : p.base.filter isPart = p.parts := by
  rw [base, parts]
  split
  · rename_i hopen
    -- nothing, or an empty piece behind the last slash, is left out
    obtain ⟨ps, hps⟩ : ∃ ps, p.pieces = ps ++ [[]] := by
      rw [endsOpen, Bool.or_eq_true] at hopen
      rcases hopen with he | he
      · exact ⟨[], pieces_of_isEmpty he⟩
      · obtain ⟨t, ht⟩ := List.getLast?_eq_some_iff.1 (beq_iff_eq.1 he)
        exact ⟨splitSlash t, by rw [pieces, ht, splitSlash_append]; rfl⟩
    rw [hps, List.dropLast_concat, List.filter_append]
    simp [isPart, isVoid]
  · rfl

theorem parts_folder (p : FilePath) {name : String} (h : IsName name) :
    p.folder.parts = p.parts ∧ p.folder.isAbsolute = p.isAbsolute := by
  have hparts : (p.child name).parts = p.parts ++ [name.toList] := by
    rw [child, parts_join h.isAbsolute_eq_false, h.isComponent.parts_eq]
  rw [← h.directory_child, parts_directory, isAbsolute_directory (by simp [hparts]),
    h.isAbsolute_child, hparts, List.dropLast_concat]
  exact ⟨rfl, rfl⟩

theorem parts_parent (h : p.parent = some q) :
    q.parts <+: p.parts ∧ q.isAbsolute = p.isAbsolute := by
  have hq : p.directory = q := by rw [directory, h, Option.getD_some]
  subst hq
  refine ⟨by rw [parts_directory]; exact List.dropLast_prefix _, ?_⟩
  rcases hdrop : dropVoid p.pieces.reverse with _ | ⟨last, before⟩
  · rw [parent] at h
    simp [hdrop] at h
  have hvoid := isVoid_of_dropVoid hdrop
  rw [Bool.eq_iff_iff, isAbsolute_iff_components, isAbsolute_iff_components, components_directory,
    components_of_dropVoid hdrop]
  by_cases hbefore : before = []
  · -- the only component starts no absolute path
    subst hbefore
    have hlast : last ≠ [] := by
      rintro rfl
      cases hvoid
    simp [normal, hlast]
  · have hpart : isPart last = true := by
      rw [List.isEmpty_eq_false_iff.2 hbefore] at hvoid
      simpa [isPart] using hvoid
    obtain ⟨first, rest, hfirst⟩ :=
      List.exists_cons_of_ne_nil (normal_ne_nil (List.reverse_ne_nil_iff.2 hbefore))
    rw [normal_append (by simpa using hbefore), List.filter_cons_of_pos hpart, List.filter_nil,
      List.dropLast_concat, hfirst]
    rfl

theorem parts_of_mem_ancestors (h : q ∈ FileTree.ancestors p) :
    q.parts <+: p.parts ∧ q.isAbsolute = p.isAbsolute := by
  rw [FileTree.ancestors] at h
  generalize p.text.length = n at h
  induction n generalizing p with
  | zero =>
    obtain rfl := List.mem_singleton.1 h
    exact ⟨List.prefix_rfl, rfl⟩
  | succ n ih =>
    rw [FileTree.ancestors.go] at h
    split at h
    · rename_i r hr
      rcases List.mem_cons.1 h with rfl | h
      · exact ⟨List.prefix_rfl, rfl⟩
      · obtain ⟨hparts, habs⟩ := ih h
        obtain ⟨hparts', habs'⟩ := parts_parent hr
        exact ⟨hparts.trans hparts', habs.trans habs'⟩
    · obtain rfl := List.mem_singleton.1 h
      exact ⟨List.prefix_rfl, rfl⟩

end FilePath

namespace FileTree

variable {t t' made : FileTree} {p base : FilePath} {b d l m : Location} {ns : Namespace}

/-! ### Directories of namespaces -/

theorem opens_iff_dirAt : t.Opens p d ↔ t.dirAt p = some d := by
  rw [dirAt, ← filter_base, enter_filter, enter_eq_some]
  exact ⟨fun h => ⟨h.walk, h.directory⟩, fun h => ⟨h.1, h.2⟩⟩

theorem dirAt_of_locate (h : t.locate p = .ok l) (hl : t.get? l = some .directory) :
    t.dirAt p = some l := by
  rw [locate] at h
  split at h
  · cases h
  · rw [dirAt, parts, enter_filter]
    exact enter_eq_some.2 ⟨h, hl⟩

theorem dirAt_dirIn (t : FileTree) (ns : Namespace) (base : FilePath) : t.dirAt (ns.dirIn base) =
    (t.dirAt base).bind (t.enter · (ns.folders.map String.toList)) := by
  rw [dirAt, start, ns.isAbsolute_dirIn, ns.parts_dirIn, enter_append, dirAt, start]

/-- A folder is looked for in a directory, by its name. -/
theorem enter_folder {name : String} (hname : Namespace.IsFolder name) (l : Location)
    (ps : List (List Char)) : t.enter l (name.toList :: ps) =
      if t.get? l = some .directory ∧
          ¬(nameLimit < name.utf8ByteSize || name.toList.contains '\x00') = true then
        t.enter (l ++ [name]) ps
      else none := by
  have hvoid : ¬(name.toList.isEmpty || name.toList == ['.']) = true := by
    simpa [isPart, isVoid] using hname.component.isPart
  have hdots : ¬(name.toList == ['.', '.']) = true := by
    intro he
    exact hname.noDot (by simp [beq_iff_eq.1 he])
  by_cases hl : t.get? l = some .directory
  · rw [enter, walk, hl]
    simp only [if_neg hvoid, if_neg hdots, String.ofList_toList, true_and]
    by_cases hbad : (nameLimit < name.utf8ByteSize || name.toList.contains '\x00') = true
    · rw [if_pos hbad, if_neg (not_not_intro hbad)]
    · rw [if_neg hbad, if_pos hbad, enter]
  · rw [enter_of_not_directory hl, if_neg fun h => hl h.1]

/-- Folders lead to where they are written. -/
theorem eq_of_enter_folders {names : List String} (hnames : ∀ n ∈ names, Namespace.IsFolder n)
    (h : t.enter l (names.map String.toList) = some m) : m = l ++ names := by
  induction names generalizing l with
  | nil =>
    obtain ⟨hw, -⟩ := enter_eq_some.1 h
    rw [List.append_nil]
    exact (Except.ok.inj hw).symm
  | cons n names ih =>
    obtain ⟨hn, hnames⟩ := List.forall_mem_cons.1 hnames
    rw [List.map_cons, enter_folder hn] at h
    split at h
    · rw [ih hnames h, List.append_assoc, List.singleton_append]
    · cases h

theorem Opens.exists_of_dirIn (h : t.Opens (ns.dirIn base) d) :
    ∃ b, t.dirAt base = some b ∧ d = b ++ ns.folders := by
  rw [opens_iff_dirAt, dirAt_dirIn] at h
  obtain ⟨b, hb, henter⟩ := Option.bind_eq_some_iff.1 h
  exact ⟨b, hb, eq_of_enter_folders (fun _ => ns.isFolder_of_mem) henter⟩

/-- A directory that is made on the way to the files of a namespace, in a directory that is there,
has the name of a folder. -/
theorem MadeOnly.get?_of_dirIn {name : String} (hname : FilePath.IsName name)
    (h : MadeOnly t made (ancestors (ns.dirIn base).folder)) (hb : t.dirAt base = some b)
    (l : Location) : made.get? l = t.get? l ∨ ∃ m, ∃ n ∈ ns.folders, l = m ++ [n] := by
  rcases h.get? l with heq | ⟨hnone, hdir, q, hq, hloc⟩
  · exact .inl heq
  obtain ⟨hparts, habs⟩ := parts_of_mem_ancestors hq
  obtain ⟨hfolder, habs'⟩ := (ns.dirIn base).parts_folder hname
  rw [hfolder, ns.parts_dirIn] at hparts
  rw [habs', ns.isAbsolute_dirIn] at habs
  have hl := dirAt_of_locate hloc hdir
  rw [dirAt, start, habs, ← start] at hl
  by_cases hpre : q.parts <+: base.parts
  · -- on the way to `base` nothing is missing
    obtain ⟨rest, hrest⟩ := hpre
    rw [dirAt, ← hrest, enter_append] at hb
    obtain ⟨l', hl', -⟩ := Option.bind_eq_some_iff.1 hb
    have hmade := h.keepsDirs.enter hl'
    rw [← h.keepsDirs.start_eq, hl] at hmade
    obtain rfl := Option.some.inj hmade
    rw [(enter_eq_some.1 hl').2] at hnone
    cases hnone
  · obtain ⟨ps, hps⟩ := (List.prefix_or_prefix_of_prefix hparts
      (List.prefix_append base.parts _)).resolve_left hpre
    rw [← hps, List.prefix_append_right_inj, List.prefix_iff_eq_take, ← List.map_take] at hparts
    rw [← hps, enter_append] at hl
    obtain ⟨b', -, henter⟩ := Option.bind_eq_some_iff.1 hl
    obtain ⟨names, hnames⟩ : ∃ names, ns.folders.take ps.length = names := ⟨_, rfl⟩
    have hsub : ∀ n ∈ names, n ∈ ns.folders := fun n hn => List.mem_of_mem_take (hnames ▸ hn)
    rw [hnames] at hparts
    rw [hparts] at henter
    have hlocated := eq_of_enter_folders (fun n hn => ns.isFolder_of_mem (hsub n hn)) henter
    rcases List.eq_nil_or_concat names with hnil | ⟨before, n, hconcat⟩
    · rw [hparts, hnil, List.map_nil, List.append_nil] at hps
      exact absurd (hps ▸ List.prefix_rfl) hpre
    · refine .inr ⟨b' ++ before, n, hsub n (by simp [hconcat]), ?_⟩
      rw [hlocated, hconcat, List.concat_eq_append, List.append_assoc]

/-- Folders lead to the same place as long as nothing changes from there on. -/
theorem enter_folders_congr {names : List String} (hnames : ∀ n ∈ names, Namespace.IsFolder n)
    (h : ∀ l', l <+: l' → t'.get? l' = t.get? l') :
    t'.enter l (names.map String.toList) = t.enter l (names.map String.toList) := by
  have hl := h l List.prefix_rfl
  induction names generalizing l with
  | nil => simp only [List.map_nil, enter, walk, hl]
  | cons n names ih =>
    obtain ⟨hn, hnames⟩ := List.forall_mem_cons.1 hnames
    have hsub : ∀ l', l ++ [n] <+: l' → t'.get? l' = t.get? l' := fun l' hl' =>
      h l' ((List.prefix_append l [n]).trans hl')
    rw [List.map_cons, enter_folder hn, enter_folder hn, hl,
      ih hnames hsub (hsub _ List.prefix_rfl)]

/-- What changes elsewhere does not lead away from the directory of a namespace. -/
theorem Opens.keep_of_eq (h : t.Opens (ns.dirIn base) d) (hb : t.dirAt base = some b)
    (hb' : t'.dirAt base = some b) (heq : ∀ l, b <+: l → t'.get? l = t.get? l) :
    t'.Opens (ns.dirIn base) d := by
  rw [opens_iff_dirAt, dirAt_dirIn] at h ⊢
  rw [hb, Option.bind_some] at h
  rw [hb', Option.bind_some, enter_folders_congr (fun _ => ns.isFolder_of_mem) heq, h]

/-- Files in one place have one path. -/
theorem pathIn_eq_of_place {a a' : Artifact} {d' : Location} (h : t.Opens (a.ns.dirIn base) d)
    (h' : t.Opens (a'.ns.dirIn base) d') (he : d ++ [a.fileName] = d' ++ [a'.fileName]) :
    a.pathIn base = a'.pathIn base := by
  obtain ⟨rfl, hname⟩ := List.append_inj' he rfl
  obtain ⟨b, hb, hd⟩ := h.exists_of_dirIn
  obtain ⟨b', hb', hd'⟩ := h'.exists_of_dirIn
  obtain rfl := Option.some.inj (hb.symm.trans hb')
  have hfolders := List.append_cancel_left (hd.symm.trans hd')
  rw [Artifact.pathIn, Artifact.pathIn, Namespace.dirIn_eq, Namespace.dirIn_eq, hfolders,
    List.singleton_inj.1 hname]

end FileTree

/-! ### Names that are no folders -/

theorem IsGeneratedName.not_isFolder {f : String} (hf : IsGeneratedName f) :
    ¬Namespace.IsFolder f :=
  fun h => h.noDot (hf.stem ▸ List.mem_append_right _ (by decide))

theorem not_isFolder_waitingName (f : String) : ¬Namespace.IsFolder (waitingName f) := by
  intro h
  refine h.noDot ?_
  rw [waitingName, String.toList_append]
  exact List.mem_append_right _ (by decide)

end SanitizeGen
