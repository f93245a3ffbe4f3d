import SanitizeGen.Proofs.ModuleFiles
import SanitizeGen.Proofs.ScanDepth

/-!
# What a scan depends on

The scan of a crate looks at its root file and, for each module that it gets to, at the candidates
up to the first that is a file (`Probes`). A scan that succeeds is the same over any tree in which
these paths lead to the same files, or still to none (`scanCrate_congr`).
-/

namespace SanitizeGen

/-- The scan of the crate looks for a file at the path. -/
inductive Probes (tree : FileTree) (root : FilePath) : FilePath → Prop where
  | root : Probes tree root root
  | candidate {path q attrs name before file after} : Reached tree root path q attrs name →
      q.candidates attrs name = before ++ file :: after →
      (∀ f ∈ before, tree.isFile f = false) → Probes tree root file

variable {tree other : FileTree} {root file : FilePath} {path : List Step} {p q : Place}
  {attrs : List Attribute} {name : Ident} {source : SourceFile} {n : Nat}

namespace FileTree

theorem find?_isFile_congr {files : List FilePath}
    (h : ∀ before f after, files = before ++ f :: after → (∀ g ∈ before, tree.isFile g = false) →
      other.contents? f = tree.contents? f)
    (hfile : files.find? tree.isFile = some file) : files.find? other.isFile = some file := by
  obtain ⟨hf, before, after, rfl, hbefore⟩ := List.find?_eq_some_iff_append.1 hfile
  have hnone : ∀ g ∈ before, tree.isFile g = false := by simpa using hbefore
  refine List.find?_eq_some_iff_append.2 ⟨?_, before, after, rfl, fun g hg => ?_⟩
  · rw [isFile_eq, h before file after rfl hnone, ← isFile_eq]
    exact hf
  · obtain ⟨as, bs, rfl⟩ := List.append_of_mem hg
    have has : ∀ g' ∈ as, tree.isFile g' = false := fun g' hg' =>
      hnone g' (List.mem_append_left _ hg')
    rw [isFile_eq, h as g (bs ++ file :: after) (by simp) has, ← isFile_eq, hnone g hg]
    rfl

end FileTree

/-- The first candidate that is a file is looked at, and so are all in front of it. -/
theorem Reached.find?_congr (h : Reached tree root path q attrs name)
    (hsame : ∀ f, Probes tree root f → other.contents? f = tree.contents? f)
    (hfile : (q.candidates attrs name).find? tree.isFile = some file) :
    (q.candidates attrs name).find? other.isFile = some file :=
  FileTree.find?_isFile_congr (fun _ _ _ heq hbefore => hsame _ (.candidate h heq hbefore)) hfile

theorem Reached.probes (h : Reached tree root path q attrs name)
    (hfile : (q.candidates attrs name).find? tree.isFile = some file) : Probes tree root file := by
  obtain ⟨-, before, after, heq, hbefore⟩ := List.find?_eq_some_iff_append.1 hfile
  exact .candidate h heq (by simpa using hbefore)

/-- The scan of a file that the crate's root leads to is the same at each depth. -/
theorem scanFile_congr {rootSource : SourceFile} (hroot : tree.source? root = some rootSource)
    (hsame : ∀ f, Probes tree root f → other.contents? f = tree.contents? f)
    (hsource : tree.source? p.file = some source)
    (hleads : Leads tree.opener (.ofRoot root) rootSource.items path p source.items)
    (hkept : Kept path) (hprobes : Probes tree root p.file)
    (hok : (scanFile tree n p).failure = none) : scanFile other n p = scanFile tree n p := by
  induction n generalizing p source path with
  | zero => cases hok
  | succ n ih =>
    have hother : other.source? p.file = some source :=
      (FileTree.source?_congr (hsame _ hprobes)).trans hsource
    obtain ⟨k, source', hk, hsource', hscan⟩ := scanFile_ok_iff.1 hok
    obtain rfl := Nat.succ.inj hk
    obtain rfl := Option.some.inj (hsource.symm.trans hsource')
    rw [scanFile_of_source hother, scanFile_of_source hsource]
    rw [scanAll_congr ?_ hscan]
    rintro q attrs name ⟨path', inner, hinner, hkept', hmem, hlive⟩ hfollow
    have hleads := hleads.trans (.of_noFiles hinner)
    have hkept := hkept.append hkept'
    have hreached : Reached tree root (path ++ path') q attrs name :=
      ⟨rootSource, inner, hroot, hleads, hkept, hmem, hlive⟩
    obtain ⟨-, file, source, -, hfile, ho, -, -⟩ := FileTree.exists_of_follow_ok hfollow
    rw [FileTree.follow_of_find hfile] at hfollow ⊢
    rw [FileTree.follow_of_find (hreached.find?_congr hsame hfile)]
    exact ih (FileTree.opener_eq_some.1 ho).2 (hleads.trans (.file hmem ho .here))
      (hkept.append (List.forall_mem_cons.2 ⟨hlive, nofun⟩)) (hreached.probes hfile) hfollow

/-- A scan that succeeds is the same over any tree with the same files at the paths it looks at. -/
theorem scanCrate_congr (hsame : ∀ f, Probes tree root f → other.contents? f = tree.contents? f)
    (hok : (scanCrate tree root).failure = none) : scanCrate other root = scanCrate tree root := by
  obtain ⟨-, source, -, hsource, -⟩ := scanFile_ok_iff.1 hok
  have heq : scanFile other tree.depthLimit (.ofRoot root) =
      scanFile tree tree.depthLimit (.ofRoot root) :=
    scanFile_congr hsource hsame hsource .here nofun .root hok
  have hother : (scanFile other tree.depthLimit (.ofRoot root)).failure = none := by
    rw [heq]
    exact hok
  exact (scanFile_depthLimit (Trace.uncut_of_ok hother)).trans heq

end SanitizeGen
