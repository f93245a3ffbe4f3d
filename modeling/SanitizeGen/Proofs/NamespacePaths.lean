import Mathlib.Data.List.Nodup
import SanitizeGen.Proofs.NamespaceText
import SanitizeGen.Proofs.OutputPlaces

/-!
# Paths of namespaces

The directory of a namespace has one component for each segment, its text without the raw mark. The
text by which users include generated files leads there too (`Mirrors`). The names of generated
files are no such components, so the files of two namespaces are out of each other's way
(`mirrors_dirIn`).
-/

namespace SanitizeGen

open FilePath Text

namespace FilePath

variable {names : List String}

theorem joinSlash_eq_intercalate (ps : List (List Char)) : joinSlash ps = ['/'].intercalate ps := by
  induction ps with
  | nil => rfl
  | cons p ps ih =>
    rcases ps with _ | ⟨q, ps⟩
    · simp [joinSlash]
    · rw [joinSlash, ih, List.intercalate_cons_cons, List.append_assoc, List.singleton_append]

theorem filter_isPart (h : ∀ n ∈ names, IsComponent n) :
    (names.map String.toList).filter isPart = names.map String.toList := by
  simpa using fun n hn => (h n hn).isPart

theorem components_intercalate (h : ∀ n ∈ names, IsComponent n) :
    (⟨"/".intercalate names⟩ : FilePath).components = names.map String.toList := by
  rcases names with _ | ⟨n, names⟩
  · rfl
  obtain ⟨hn, hnames⟩ := List.forall_mem_cons.1 h
  have hslash : ∀ q ∈ (n :: names).map String.toList, '/' ∉ q := by
    simpa using ⟨hn.noSlash, fun m hm => (hnames m hm).noSlash⟩
  have hpieces : (⟨"/".intercalate (n :: names)⟩ : FilePath).pieces =
      (n :: names).map String.toList := by
    rw [pieces, String.toList_intercalate, show "/".toList = ['/'] from rfl,
      ← joinSlash_eq_intercalate, splitSlash_joinSlash (by simp) hslash]
  have hne : ¬("/".intercalate (n :: names)).isEmpty = true := by
    intro he
    have hpart := hn.isPart
    rw [pieces_of_isEmpty (p := ⟨"/".intercalate (n :: names)⟩) he] at hpieces
    rw [← (List.cons.inj hpieces).1] at hpart
    cases hpart
  rw [components, if_neg hne, hpieces, normal]
  simp [filter_isPart hnames]

/-- Components with slashes between them are appended to a path one by one. -/
theorem components_join_intercalate (h : ∀ n ∈ names, IsComponent n) (p : FilePath) :
    (p.join ⟨"/".intercalate names⟩).components = p.components ++ names.map String.toList := by
  have hcomponents := components_intercalate h
  have hrel : (⟨"/".intercalate names⟩ : FilePath).isAbsolute = false := by
    refine Bool.eq_false_iff.2 fun habs => ?_
    rw [isAbsolute_iff_components, hcomponents] at habs
    have hmem : [] ∈ names.map String.toList := List.mem_of_head? habs
    rw [← filter_isPart h] at hmem
    cases (List.mem_filter.1 hmem).2
  by_cases hp : p.text.isEmpty = true
  · rw [join_of_isEmpty hp, components_eq_nil.2 hp, hcomponents, List.nil_append]
  · rw [components_join hp hrel, ← filter_components, hcomponents, filter_isPart h]

theorem components_foldl_child (h : ∀ n ∈ names, IsComponent n) (p : FilePath) :
    (names.foldl FilePath.child p).components = p.components ++ names.map String.toList := by
  induction names generalizing p with
  | nil => simp
  | cons n names ih =>
    obtain ⟨hn, hnames⟩ := List.forall_mem_cons.1 h
    simp [ih hnames, hn.components_child]

end FilePath

/-! ### Directories -/

theorem Ident.name_of_parse? (i : Ident) :
    ((Ident.parse? i.text.toList).map Ident.name).getD i.text = i.name := by
  rw [Ident.parse?_text]
  split
  · rename_i hreserved
    rw [Ident.isReserved, Bool.and_eq_true, Bool.not_eq_true'] at hreserved
    exact String.toList_inj.1 (Ident.text_of_not_raw i hreserved.1)
  · rfl

namespace Namespace

variable (ns ns' : Namespace) (base : FilePath)

/-- The texts of the segments without the raw mark. -/
def plainTexts : List (List Char) := ns.segments.map fun i => dropRaw i.text.toList

theorem plainTexts_eq : ns.plainTexts = ns.folders.map String.toList := by
  rw [plainTexts, folders, List.map_map]
  exact List.map_congr_left fun i _ => Ident.dropRaw_text

/-- A text that leads from a directory to a place right in it. -/
structure IsOrdinary (s : List Char) : Prop where
  ne_nil : s ≠ []
  ne_dot : s ≠ ['.']
  ne_dots : s ≠ ['.', '.']
  noSlash : '/' ∉ s
  relative : (⟨String.ofList s⟩ : FilePath).isAbsolute = false

/-- `dir` is under `base` as the namespace is under the root. -/
structure Mirrors (dir : FilePath) : Prop where
  eq : dir = ns.plainTexts.foldl (fun d s => d.child (String.ofList s)) base
  components : dir.components = base.components ++ ns.plainTexts
  ordinary : ∀ s ∈ ns.plainTexts, IsOrdinary s
  /-- Where a text is read as an identifier, the mark is left out of what is read. -/
  reread : ns.includePath = "/".intercalate
    (ns.segments.map fun i => ((Ident.parse? i.text.toList).map Ident.name).getD i.text)
  included : (base.join ⟨ns.includePath⟩).components = dir.components

theorem isComponent_of_mem {n : String} (h : n ∈ ns.folders) : IsComponent n :=
  (ns.isFolder_of_mem h).component

theorem IsFolder.isOrdinary {n : String} (h : IsFolder n) : IsOrdinary n.toList where
  ne_nil he := by simpa [he, isPart, isVoid] using h.component.isPart
  ne_dot he := h.noDot (by simp [he])
  ne_dots he := h.noDot (by simp [he])
  noSlash := h.component.noSlash
  relative := by
    rw [String.ofList_toList]
    exact h.component.isAbsolute_eq_false

theorem components_dirIn : (ns.dirIn base).components = base.components ++ ns.plainTexts := by
  rw [dirIn_eq, components_foldl_child fun n => ns.isComponent_of_mem, plainTexts_eq]

theorem mirrors : ns.Mirrors base (ns.dirIn base) where
  eq := by
    rw [dirIn_eq, plainTexts_eq, List.foldl_map]
    simp only [String.ofList_toList]
  components := ns.components_dirIn base
  ordinary := by
    rw [plainTexts_eq]
    rintro _ hs
    obtain ⟨n, hn, rfl⟩ := List.mem_map.1 hs
    exact (ns.isFolder_of_mem hn).isOrdinary
  reread := by
    rw [includePath]
    exact congrArg _ (List.map_congr_left fun i _ => i.name_of_parse?.symm)
  included := by
    rw [components_dirIn, plainTexts_eq]
    exact components_join_intercalate (fun n => ns.isComponent_of_mem) base

/-! ### Files -/

/-- The names of generated files, and those under which their contents wait. -/
def outputNames : List String :=
  [rootFile, sanitizationsFile].flatMap fun f => [f, waitingName f]

/-- The paths of the generated files of the namespace, and those at which their contents wait. -/
def outputPaths : List FilePath :=
  [rootFile, sanitizationsFile].flatMap fun f =>
    let path := (⟨ns, f, ""⟩ : Artifact).pathIn base
    [path, Artifact.stagingPath path]

theorem outputPaths_eq : ns.outputPaths base = outputNames.map (ns.dirIn base).child := by
  simp [outputPaths, outputNames, Artifact.pathIn, IsGeneratedName.root.stagingPath_child,
    IsGeneratedName.sanitizations.stagingPath_child]

theorem exists_of_mem_outputNames {f : String} (h : f ∈ outputNames) :
    ∃ g, IsGeneratedName g ∧ (f = g ∨ f = waitingName g) := by
  obtain ⟨g, hg, hf⟩ := List.mem_flatMap.1 h
  have hgenerated : g = rootFile ∨ g = sanitizationsFile := by simpa using hg
  refine ⟨g, ?_, by simpa using hf⟩
  rcases hgenerated with rfl | rfl
  · exact .root
  · exact .sanitizations

theorem isComponent_of_mem_outputNames {f : String} (h : f ∈ outputNames) : IsComponent f := by
  obtain ⟨g, hg, rfl | rfl⟩ := exists_of_mem_outputNames h
  · exact hg.name.isComponent
  · exact hg.waiting.isComponent

/-- No generated file has the name of a folder. -/
theorem not_mem_plainTexts {f : String} (h : f ∈ outputNames) : f.toList ∉ ns.plainTexts := by
  rw [plainTexts_eq]
  intro hf
  obtain ⟨n, hn, heq⟩ := List.mem_map.1 hf
  obtain rfl := String.toList_inj.1 heq
  obtain ⟨g, hg, rfl | rfl⟩ := exists_of_mem_outputNames h
  · exact hg.not_isFolder (ns.isFolder_of_mem hn)
  · exact not_isFolder_waitingName g (ns.isFolder_of_mem hn)

variable {ns ns' base}

theorem prefix_outputs_iff {f g : String} (hf : f ∈ outputNames) (hg : g ∈ outputNames) :
    ((ns.dirIn base).child f).components <+: ((ns'.dirIn base).child g).components ↔
      ns.plainTexts = ns'.plainTexts ∧ f = g := by
  rw [(isComponent_of_mem_outputNames hf).components_child,
    (isComponent_of_mem_outputNames hg).components_child, components_dirIn, components_dirIn,
    List.append_assoc, List.append_assoc, List.prefix_append_right_inj, List.prefix_concat_iff]
  constructor
  · rintro (heq | hpre)
    · obtain ⟨hplain, hname⟩ := List.append_inj' heq rfl
      exact ⟨hplain, String.toList_inj.1 (List.singleton_inj.1 hname)⟩
    · exact absurd (hpre.subset (by simp)) (ns'.not_mem_plainTexts hf)
  · rintro ⟨hplain, rfl⟩
    exact .inl (hplain ▸ rfl)

theorem child_outputs_inj {f g : String} (hf : f ∈ outputNames) (hg : g ∈ outputNames)
    (h : (ns.dirIn base).child f = (ns.dirIn base).child g) : f = g := by
  have hpre : ((ns.dirIn base).child f).components <+: ((ns.dirIn base).child g).components :=
    h ▸ List.prefix_rfl
  exact ((prefix_outputs_iff hf hg).1 hpre).2

theorem dirIn_inj : ns.dirIn base = ns'.dirIn base ↔ ns.plainTexts = ns'.plainTexts := by
  constructor
  · intro h
    have hcomponents := congrArg FilePath.components h
    rwa [components_dirIn, components_dirIn, List.append_right_inj] at hcomponents
  · intro h
    rw [(ns.mirrors base).eq, (ns'.mirrors base).eq, h]

/-- The directory of a namespace mirrors it, and is that of another namespace only if these have one
text but for raw marks. Then a generated file, or contents that wait, are in the way of those of the
other namespace only where both are the same; and those of one namespace are apart. -/
theorem mirrors_dirIn (ns ns' : Namespace) (base : FilePath) :
    ns.Mirrors base (ns.dirIn base) ∧
    (ns.dirIn base = ns'.dirIn base ↔ ns.plainTexts = ns'.plainTexts) ∧
    ((ns.dirIn base).components = (ns'.dirIn base).components ↔
      ns.plainTexts = ns'.plainTexts) ∧
    (ns.outputPaths base).Nodup ∧
    ∀ p ∈ ns.outputPaths base, ∀ q ∈ ns'.outputPaths base,
      p.components <+: q.components ↔ ns.plainTexts = ns'.plainTexts ∧ p = q := by
  refine ⟨ns.mirrors base, dirIn_inj, ?_, ?_, ?_⟩
  · rw [components_dirIn, components_dirIn, List.append_right_inj]
  · rw [outputPaths_eq]
    exact List.Nodup.map_on (fun f hf g hg => child_outputs_inj hf hg) (by decide)
  · intro p hp q hq
    rw [outputPaths_eq] at hp hq
    obtain ⟨f, hf, rfl⟩ := List.mem_map.1 hp
    obtain ⟨g, hg, rfl⟩ := List.mem_map.1 hq
    rw [prefix_outputs_iff hf hg]
    refine and_congr_right fun hplain => ?_
    rw [dirIn_inj.2 hplain]
    exact ⟨congrArg _, child_outputs_inj hf hg⟩

theorem mirrors_dirIn_rawModule : rawModule.Mirrors ⟨"out"⟩ ⟨"out/crates/match"⟩ ∧
    rawModule.dirIn ⟨"out"⟩ ≠ (root.child (.plain "crates")).dirIn ⟨"out"⟩ := by
  obtain ⟨hmirrors, hdir, -⟩ := mirrors_dirIn rawModule (root.child (.plain "crates")) ⟨"out"⟩
  exact ⟨hmirrors, fun h => absurd (hdir.1 h) (by decide)⟩

end Namespace

end SanitizeGen
