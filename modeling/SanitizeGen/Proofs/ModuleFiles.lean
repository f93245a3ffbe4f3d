import Mathlib.Data.List.Induction
import SanitizeGen.Proofs.PathComponents
import SanitizeGen.Proofs.ScanProgress
import SanitizeGen.Proofs.WordText

/-!
# Files of modules

A compiler keeps a `Lookup` for each module: a directory, and a component that is pending until a
module is looked for by its name. A path on a block drops the pending component. The scan does not:
it looks for modules where a compiler would that keeps it (`Place.Matches`), so it goes astray where
there is one to drop (`Strays`), and nowhere else. What it looks for decides what it opens and what
it fails with (`candidates_of_reached`).
-/

namespace SanitizeGen

open FilePath

/-! ### Names of module files -/

theorem isComponent_mod : IsComponent "mod.rs" := ⟨by decide, by decide⟩

/-- Paths that are not told apart, one by one. -/
def SamePaths (ps qs : List FilePath) : Prop := ps.map components = qs.map components

/-! ### Lookups -/

/-- Where the modules that a module declares are looked for. -/
structure Lookup where
  dir : FilePath
  /-- What follows the directory in front of the names of modules. -/
  pending : Option Ident

namespace Lookup

/-- The directory that modules are looked for in by their names. -/
def base (l : Lookup) : FilePath :=
  match l.pending with
  | some name => l.dir.child name.name
  | none => l.dir

/-- The files that could hold the module `name`, in the order in which they are looked for. -/
def candidates (l : Lookup) (attrs : List Attribute) (name : Ident) : List FilePath :=
  match pathOverride? attrs with
  | some path => [l.dir.child path]
  | none => [l.base.child (name.name ++ ".rs"), (l.base.child name.name).child "mod.rs"]

/-- The lookup of the module that a step leads to. A path on a block drops the pending component,
or with `keep` it does not. -/
def step (keep : Bool) (l : Lookup) : Step → Lookup
  | .block attrs name =>
    match pathOverride? attrs with
    | some path => ⟨(if keep then l.base else l.dir).child path, none⟩
    | none => ⟨l.base.child name.name, none⟩
  | .file attrs name isMod file _ =>
    ⟨file.directory, if (pathOverride? attrs).isSome || isMod then none else some name⟩

/-- The lookup of the module that `path` leads to from the crate's root. -/
def after (keep : Bool) (root : FilePath) (path : List Step) : Lookup :=
  path.foldl (step keep) ⟨root.directory, none⟩

end Lookup

/-- Whether the attributes give a module no absolute path. -/
def isRelative (attrs : List Attribute) : Bool :=
  (pathOverride? attrs).all fun path => !FilePath.isAbsolute ⟨path⟩

/-- The way ends right in a file that was found by its module's name and is not in a directory of
the module's own. -/
inductive EndsNamed : List Step → Prop where
  | intro {path attrs name file source} : pathOverride? attrs = none →
      EndsNamed (path ++ [.file attrs name false file source])

/-- The way enters a block with a relative path right in a file that was found by its module's name,
and then only blocks without absolute paths. -/
inductive Strays : List Step → Prop where
  | enter {path attrs name} : EndsNamed path → (pathOverride? attrs).isSome = true →
      isRelative attrs = true → Strays (path ++ [.block attrs name])
  | block {path attrs name} : Strays path → isRelative attrs = true →
      Strays (path ++ [.block attrs name])

/-! ### The scan keeps pending components -/

/-- The place looks for modules where the lookup does. -/
structure Place.Matches (p : Place) (l : Lookup) : Prop where
  byName : p.dir.components = l.base.components
  byPath : (if p.isInline then p.dir else p.file.directory).components = l.dir.components

namespace Place

variable {p : Place} {l : Lookup} {attrs : List Attribute} {name : Ident} {file : FilePath}

theorem Matches.samePaths (h : p.Matches l) (attrs : List Attribute) (name : Ident) :
    SamePaths (p.candidates attrs name) (l.candidates attrs name) := by
  rw [candidates, Lookup.candidates, SamePaths]
  cases pathOverride? attrs with
  | some path =>
    simp only [List.map_cons, List.map_nil]
    rw [components_child_congr h.byPath]
  | none =>
    simp only [List.map_cons, List.map_nil]
    rw [components_child_congr h.byName, components_child_congr (components_child_congr h.byName _)]

theorem Matches.inside (h : p.Matches l) (attrs : List Attribute) (name : Ident) :
    (p.inside attrs name).Matches (l.step true (.block attrs name)) := by
  rw [Place.inside, Lookup.step]
  cases pathOverride? attrs with
  | some path => exact ⟨components_child_congr h.byName _, components_child_congr h.byName _⟩
  | none => exact ⟨components_child_congr h.byName _, components_child_congr h.byName _⟩

/-- The file of a module that is found by its name is in one of two directories. -/
theorem isModFile_of_mem (hpath : pathOverride? attrs = none) (h : file ∈ p.candidates attrs name) :
    if p.isModFile name file then file = (p.dir.child name.name).child "mod.rs"
    else file = p.dir.child (name.name ++ ".rs") := by
  rw [candidates, hpath] at h
  split
  · rename_i hmod
    exact beq_iff_eq.1 hmod
  · rename_i hmod
    rcases List.mem_cons.1 h with h | h
    · exact h
    · exact absurd (beq_iff_eq.2 (List.mem_singleton.1 h)) hmod

theorem matches_inFile (hmem : file ∈ p.candidates attrs name) (source : SourceFile) :
    (p.inFile attrs name file).Matches
      (l.step true (.file attrs name (p.isModFile name file) file source)) := by
  refine ⟨?_, rfl⟩
  rw [Place.inFile, Lookup.step, Lookup.base]
  cases hpath : pathOverride? attrs with
  | some path => simp only [Option.isSome_some, if_true, Bool.true_or]
  | none =>
    have hfile := isModFile_of_mem hpath hmem
    simp only [Option.isSome_none, Bool.false_or, Bool.false_eq_true, if_false]
    split at hfile
    · rename_i hmod
      rw [hmod, if_pos rfl, hfile]
      exact (isComponent_mod.components_directory_child _).symm
    · rename_i hmod
      rw [if_neg hmod, hfile]
      exact (components_child_congr (name.isComponent_rs.components_directory_child p.dir) _).symm

end Place

/-- Every step goes where it does with the pending component kept. -/
theorem Leads.matches {tree : FileTree} {p q : Place} {l : Lookup} {items inner : List Item}
    {path : List Step} (h : Leads tree.opener p items path q inner) (hl : p.Matches l) :
    q.Matches (path.foldl (Lookup.step true) l) := by
  induction h generalizing l with
  | here => exact hl
  | block _ _ ih => exact ih (hl.inside _ _)
  | file _ ho _ ih =>
    have hmem := List.mem_of_find?_eq_some (FileTree.opener_eq_some.1 ho).1
    exact ih (Place.matches_inFile hmem _)

/-! ### Ways that stray -/

theorem not_samePaths_of_length {p p' : FilePath} {ps ps' : List FilePath}
    (hlen : p.parts.length = p'.parts.length + 1) : ¬SamePaths (p :: ps) (p' :: ps') := by
  intro h
  have hparts : p.parts = p'.parts := by
    rw [← filter_components, ← filter_components, (List.cons.inj h).1]
  rw [hparts] at hlen
  omega

section

variable {root : FilePath} {path : List Step} {attrs : List Attribute} {name : Ident}

theorem Lookup.after_concat (keep : Bool) (root : FilePath) (path : List Step) (s : Step) :
    after keep root (path ++ [s]) = (after keep root path).step keep s := by
  rw [after, after, List.foldl_append]
  rfl

theorem endsNamed_file_iff {isMod : Bool} {file : FilePath} {source : SourceFile} :
    EndsNamed (path ++ [.file attrs name isMod file source]) ↔
      pathOverride? attrs = none ∧ isMod = false := by
  constructor
  · generalize hlong : path ++ [.file attrs name isMod file source] = long
    rintro ⟨hnone⟩
    cases (List.append_inj' hlong rfl).2
    exact ⟨hnone, rfl⟩
  · rintro ⟨hnone, rfl⟩
    exact .intro hnone

theorem not_endsNamed_block : ¬EndsNamed (path ++ [.block attrs name]) := by
  generalize hlong : path ++ [.block attrs name] = long
  rintro ⟨-⟩
  cases (List.append_inj' hlong rfl).2

theorem not_strays_file {isMod : Bool} {file : FilePath} {source : SourceFile} :
    ¬Strays (path ++ [.file attrs name isMod file source]) := by
  generalize hlong : path ++ [.file attrs name isMod file source] = long
  rintro (_ | _) <;> cases (List.append_inj' hlong rfl).2

theorem strays_block_iff : Strays (path ++ [.block attrs name]) ↔ isRelative attrs = true ∧
    (Strays path ∨ (pathOverride? attrs).isSome = true ∧ EndsNamed path) := by
  constructor
  · generalize hlong : path ++ [.block attrs name] = long
    rintro (⟨hnamed, hsome, hrel⟩ | ⟨h, hrel⟩)
    · obtain ⟨rfl, hs⟩ := List.append_inj' hlong rfl
      cases hs
      exact ⟨hrel, .inr ⟨hsome, hnamed⟩⟩
    · obtain ⟨rfl, hs⟩ := List.append_inj' hlong rfl
      cases hs
      exact ⟨hrel, .inl h⟩
  · rintro ⟨hrel, h | ⟨hsome, hnamed⟩⟩
    · exact .block h hrel
    · exact .enter hnamed hsome hrel

namespace Lookup

/-- The lookups after `path`, with pending components kept and dropped: on ways that stray, the
first directory is one component longer. -/
structure Apart (path : List Step) (kept dropped : Lookup) : Prop where
  pending : kept.pending = dropped.pending
  named : kept.pending.isSome = true ↔ EndsNamed path
  strays : Strays path → kept.base.parts.length = dropped.base.parts.length + 1
  same : ¬Strays path → kept.dir = dropped.dir

theorem base_of_none {l : Lookup} (h : l.pending = none) : l.base = l.dir := by rw [base, h]

namespace Apart

variable {kept dropped : Lookup} (h : Apart path kept dropped)

include h

theorem base_eq (hs : ¬Strays path) : kept.base = dropped.base := by
  rw [base, base, h.pending, h.same hs]

theorem pending_of_strays (hs : Strays path) : kept.pending = none := by
  have hnot : ¬EndsNamed path := by
    rcases hs with _ | _ <;> exact not_endsNamed_block
  simpa using h.named.not.2 hnot

/-- The directory that a relative path on a block continues is one component longer if the block
makes the way stray. -/
theorem length_of_strays (hs : Strays path ∨ EndsNamed path) :
    kept.base.parts.length = dropped.dir.parts.length + 1 := by
  by_cases hstrays : Strays path
  · have hnone := h.pending ▸ h.pending_of_strays hstrays
    rw [h.strays hstrays, base_of_none hnone]
  · obtain ⟨name, hname⟩ := Option.isSome_iff_exists.1 (h.named.2 (hs.resolve_left hstrays))
    rw [base, hname, h.same hstrays]
    exact name.isComponent_name.length_parts_child dropped.dir

theorem blockByName (name : Ident) (hpath : pathOverride? attrs = none) :
    Apart (path ++ [.block attrs name]) (kept.step true (.block attrs name))
      (dropped.step false (.block attrs name)) := by
  have hiff : Strays (path ++ [.block attrs name]) ↔ Strays path := by
    rw [strays_block_iff, isRelative, hpath]
    simp
  rw [step, step, hpath]
  refine ⟨rfl, iff_of_false (by simp) not_endsNamed_block, fun hs => ?_, fun hs => ?_⟩
  · show (kept.base.child name.name).parts.length = (dropped.base.child name.name).parts.length + 1
    rw [name.isComponent_name.length_parts_child, h.strays (hiff.1 hs),
      name.isComponent_name.length_parts_child]
  · exact congrArg (·.child name.name) (h.base_eq (hiff.not.1 hs))

theorem blockByPath (name : Ident) {dest : String} (hpath : pathOverride? attrs = some dest) :
    Apart (path ++ [.block attrs name]) (kept.step true (.block attrs name))
      (dropped.step false (.block attrs name)) := by
  have hiff : Strays (path ++ [.block attrs name]) ↔
      FilePath.isAbsolute ⟨dest⟩ = false ∧ (Strays path ∨ EndsNamed path) := by
    rw [strays_block_iff, isRelative, hpath]
    simp
  rw [step, step, hpath]
  refine ⟨rfl, iff_of_false (by simp) not_endsNamed_block, fun hs => ?_, fun hs => ?_⟩
  · obtain ⟨hrel, hway⟩ := hiff.1 hs
    exact length_parts_child_of_relative hrel (h.length_of_strays hway)
  · by_cases habs : FilePath.isAbsolute ⟨dest⟩ = true
    · exact (child_of_isAbsolute habs).trans (child_of_isAbsolute habs).symm
    · rw [hiff, not_and, not_or] at hs
      obtain ⟨hnot, hnamed⟩ := hs (by simpa using habs)
      have hnone : kept.pending = none := by simpa using h.named.not.2 hnamed
      show kept.base.child dest = dropped.dir.child dest
      rw [base_of_none hnone, h.same hnot]

end Apart

theorem apart_after (root : FilePath) (path : List Step) :
    Apart path (after true root path) (after false root path) := by
  induction path using List.reverseRecOn with
  | nil =>
    have hnil {s : Step} {path : List Step} : path ++ [s] ≠ [] := by simp
    refine ⟨rfl, iff_of_false (by simp [after]) ?_, ?_, fun _ => rfl⟩
    · generalize hlong : ([] : List Step) = long
      rintro ⟨-⟩
      exact hnil hlong.symm
    · generalize hlong : ([] : List Step) = long
      rintro (_ | _) <;> exact absurd hlong.symm hnil
  | append_singleton path s ih =>
    rw [after_concat, after_concat]
    cases s with
    | file attrs name isMod file source =>
      refine ⟨rfl, ?_, fun hs => absurd hs not_strays_file, fun _ => rfl⟩
      rw [endsNamed_file_iff, step]
      cases pathOverride? attrs <;> cases isMod <;> simp
    | block attrs name =>
      cases hpath : pathOverride? attrs with
      | none => exact ih.blockByName name hpath
      | some dest => exact ih.blockByPath name hpath

/-- Keeping the pending component makes a difference to what is looked for exactly on ways that
stray, except for absolute paths. -/
theorem samePaths_after_iff :
    SamePaths ((after true root path).candidates attrs name)
        ((after false root path).candidates attrs name) ↔
      ¬Strays path ∨ isRelative attrs = false := by
  have h := apart_after root path
  revert h
  generalize after true root path = kept
  generalize after false root path = dropped
  intro h
  by_cases hs : Strays path
  · have hlen := h.strays hs
    have hnone := h.pending_of_strays hs
    rw [candidates, candidates, isRelative]
    cases pathOverride? attrs with
    | none =>
      refine iff_of_false (not_samePaths_of_length ?_) (by simp [hs])
      rw [name.isComponent_rs.length_parts_child, hlen, name.isComponent_rs.length_parts_child]
    | some dest =>
      by_cases habs : FilePath.isAbsolute ⟨dest⟩ = true
      · refine iff_of_true ?_ (by simp [habs])
        simp only [child_of_isAbsolute habs]
        rfl
      · refine iff_of_false (not_samePaths_of_length ?_) (by simp [hs, habs])
        rw [base_of_none hnone, base_of_none (h.pending ▸ hnone)] at hlen
        exact length_parts_child_of_relative (by simpa using habs) hlen
  · refine iff_of_true ?_ (.inl hs)
    rw [candidates, candidates, h.base_eq hs, h.same hs]
    rfl

end Lookup

end

/-! ### Modules that a scan looks for -/

/-- The scan of the crate gets to an item that declares the module `name` in a file of its own. -/
def Reached (tree : FileTree) (root : FilePath) (path : List Step) (q : Place)
    (attrs : List Attribute) (name : Ident) : Prop :=
  ∃ source inner, tree.source? root = some source ∧
    Leads tree.opener (.ofRoot root) source.items path q inner ∧ Kept path ∧
    .fileModule attrs name ∈ inner ∧ isTestOnly attrs = false

section

variable {tree : FileTree} {root : FilePath} {path : List Step} {q : Place}
  {attrs : List Attribute} {name : Ident}

theorem Reached.matches (h : Reached tree root path q attrs name) :
    q.Matches (Lookup.after true root path) := by
  obtain ⟨source, inner, -, hleads, -⟩ := h
  exact hleads.matches ⟨rfl, rfl⟩

/-- A scan that succeeds has read the first candidate that is a file, for each module. -/
theorem Reached.exists_opened (h : Reached tree root path q attrs name)
    (hok : (scanCrate tree root).failure = none) : ∃ file,
      (q.candidates attrs name).find? tree.isFile = some file ∧
      .opened (q.ns.child name) file ∈ (scanCrate tree root).events := by
  obtain ⟨source, inner, hsource, hleads, hkept, hmem, hlive⟩ := h
  obtain ⟨n, source', -, hsource', hscan, hevents⟩ := exists_of_scanFile_ok hok
  obtain rfl := Option.some.inj (hsource.symm.trans hsource')
  obtain ⟨g, ⟨depth, rfl⟩, hg, hgsub⟩ :=
    hleads.exists_scanned tree.follows_opener hkept ⟨n, rfl⟩ hscan
  obtain ⟨hitem, hsub⟩ := scan_of_mem hg hmem
  rw [Item.scan_fileModule hlive] at hitem hsub
  obtain ⟨_, file, _, _, hfile, _, _, hfollow⟩ := FileTree.exists_of_follow_ok hitem
  refine ⟨file, hfile, ?_⟩
  rw [scanCrate, hevents]
  exact List.mem_cons_of_mem _ (hgsub _ (hsub _ (hfollow ▸ List.mem_cons_self)))

theorem ComesTo.reached (h : ComesTo tree (.ofRoot root) path q (.fileModule attrs name)) :
    Reached tree root path q attrs name := by
  obtain ⟨source, hsource, hgets⟩ := h
  obtain ⟨inner, hleads, hkept, hmem, hlive⟩ := hgets.exists_leads
  exact ⟨source, inner, hsource, hleads, hkept, hmem, hlive⟩

end

/-- The scan of a crate looks for a module where a compiler would that keeps pending components, and
so where one looks that drops them unless the way to the module strays. It opens the first candidate
that is a file, or fails if there is none. It fails with nothing else than what is wrong with the
files that it comes to, or with a marker, unless the modules are nested without end. -/
theorem candidates_of_reached {tree : FileTree} {root : FilePath} :
    (∀ {path q attrs name}, Reached tree root path q attrs name →
      SamePaths (q.candidates attrs name) ((Lookup.after true root path).candidates attrs name) ∧
      (SamePaths (q.candidates attrs name) ((Lookup.after false root path).candidates attrs name) ↔
        ¬Strays path ∨ isRelative attrs = false) ∧
      ((scanCrate tree root).failure = none → ∃ file,
        (q.candidates attrs name).find? tree.isFile = some file ∧
        .opened (q.ns.child name) file ∈ (scanCrate tree root).events)) ∧
    (∀ {path q attrs name}, ComesTo tree (.ofRoot root) path q (.fileModule attrs name) →
      Reached tree root path q attrs name ∧
      ((q.candidates attrs name).find? tree.isFile = none → (scanCrate tree root).failure =
        some (.moduleNotFound (q.ns.child name) q.file (q.candidates attrs name))) ∧
      ∀ {file}, (q.candidates attrs name).find? tree.isFile = some file →
        (∀ e, tree.Refuses file e → (scanCrate tree root).failure = some e) ∧
        ((∀ e, ¬tree.Refuses file e) → ¬Endless tree (.ofRoot root) →
          .opened (q.ns.child name) file ∈ (scanCrate tree root).events)) ∧
    (∀ {ns file}, .opened ns file ∈ (scanCrate tree root).events → (ns = .root ∧ file = root) ∨
      ∃ path q attrs name, ComesTo tree (.ofRoot root) path q (.fileModule attrs name) ∧
        ns = q.ns.child name ∧ (q.candidates attrs name).find? tree.isFile = some file) ∧
    (∀ {e}, (∀ last, e ≠ .endlessModules last) → ((scanCrate tree root).failure = some e ↔
      tree.Refuses root e ∨
        ∃ path q i, ComesTo tree (.ofRoot root) path q i ∧ FailsAt tree q i e)) ∧
    ((∃ last, (scanCrate tree root).failure = some (.endlessModules last)) ↔
      Endless tree (.ofRoot root)) := by
  have hfails {path q i e} (h : ComesTo tree (.ofRoot root) path q i) (hi : FailsAt tree q i e) :
      (scanCrate tree root).failure = some e :=
    (failure_scanFile_iff hi.ne_endlessModules).2 (.inr ⟨path, q, i, h, hi⟩)
  refine ⟨fun {path q attrs name} h => ?_, fun {path q attrs name} h => ?_, fun h => ?_,
    failure_scanFile_iff, endless_iff.symm⟩
  · have hsame := h.matches.samePaths attrs name
    refine ⟨hsame, ?_, h.exists_opened⟩
    rw [← Lookup.samePaths_after_iff, SamePaths, SamePaths, ← hsame]
  · refine ⟨h.reached, fun hnone => hfails h (.missing hnone), fun {file} hfile => ?_⟩
    refine ⟨fun e he => hfails h (.refused hfile he), fun hread hend => ?_⟩
    rcases hsource : tree.source? file with _ | source
    · obtain ⟨e, he⟩ := exists_refuses_of_source? hsource
      exact absurd he (hread e)
    · exact h.opened_mem (FileTree.opener_eq_some.2 ⟨hfile, hsource⟩) hend
  · rcases exists_of_opened_mem h with hroot | ⟨path, q, attrs, name, _, hcomes, hns, ho⟩
    · exact .inl hroot
    · exact .inr ⟨path, q, attrs, name, hcomes, hns, (FileTree.opener_eq_some.1 ho).1⟩

/-- Whether the first of the items declares a module in another file that satisfies `P`. -/
def startsWithFile (items : List Item) (P : List Attribute → Ident → Bool) : Bool :=
  match items with
  | .fileModule attrs name :: _ => P attrs name
  | _ => false

/-- Whether the first of the items is a module between braces that satisfies `P`. -/
def startsWithBlock (items : List Item) (P : List Attribute → Ident → List Item → Bool) : Bool :=
  match items with
  | .inlineModule attrs name own :: _ => P attrs name own
  | _ => false

theorem exists_of_startsWithFile {P : List Attribute → Ident → Bool} {items : List Item}
    (h : startsWithFile items P = true) :
    ∃ attrs name after, items = [] ++ .fileModule attrs name :: after ∧ P attrs name = true := by
  unfold startsWithFile at h
  split at h
  · exact ⟨_, _, _, rfl, h⟩
  · cases h

theorem exists_of_startsWithBlock {P : List Attribute → Ident → List Item → Bool}
    {items : List Item} (h : startsWithBlock items P = true) : ∃ attrs name own after,
      items = [] ++ .inlineModule attrs name own :: after ∧ P attrs name own = true := by
  unfold startsWithBlock at h
  split at h
  · exact ⟨_, _, _, _, rfl, h⟩
  · cases h

/-- A crate with a block that has a relative path, right in a file that was found by its name. -/
def strayCrate : FileTree :=
  ⟨[], [(["src"], .directory), (["src", "lib.rs"], .file (.text "mod n;")),
    (["src", "n.rs"], .file (.text "#[path = \"p\"] mod inner { mod x; }")),
    (["src", "p"], .directory), (["src", "p", "x.rs"], .file (.text ""))]⟩

/-- The scan gets to the block in `strayCrate`, which declares a module whose file is where a
compiler looks for it. -/
theorem exists_comesTo_strayCrate : ∃ path q attrs name,
    ComesTo strayCrate (.ofRoot ⟨"src/lib.rs"⟩) path q (.fileModule attrs name) ∧
    Strays path ∧ isRelative attrs = true ∧ q.file = ⟨"src/n.rs"⟩ ∧
    q.candidates attrs name = [⟨"src/n/p/x.rs"⟩, ⟨"src/n/p/x/mod.rs"⟩] ∧
    (Lookup.after false ⟨"src/lib.rs"⟩ path).candidates attrs name =
      [⟨"src/p/x.rs"⟩, ⟨"src/p/x/mod.rs"⟩] := by
  have h : ((strayCrate.source? ⟨"src/lib.rs"⟩).any fun source =>
      startsWithFile source.items fun attrs name =>
        !isTestOnly attrs && pathOverride? attrs == none && name.name == "n" &&
        (strayCrate.opener (.ofRoot ⟨"src/lib.rs"⟩) attrs name).any fun found =>
          found.1 == ⟨"src/n.rs"⟩ && !(Place.ofRoot ⟨"src/lib.rs"⟩).isModFile name found.1 &&
          startsWithBlock found.2.items fun battrs _ own =>
            !isTestOnly battrs && pathOverride? battrs == some "p" &&
            startsWithFile own fun xattrs x =>
              !isTestOnly xattrs && pathOverride? xattrs == none && x.name == "x") = true := by
    decide +kernel
  obtain ⟨source, hroot, h⟩ := (Option.any_eq_true _ _).1 h
  obtain ⟨attrs, name, after, hitems, h⟩ := exists_of_startsWithFile h
  simp only [Bool.and_eq_true, Bool.not_eq_true', beq_iff_eq] at h
  obtain ⟨⟨⟨hlive, hpath⟩, hname⟩, h⟩ := h
  obtain ⟨⟨file, found⟩, hopen, h⟩ := (Option.any_eq_true _ _).1 h
  simp only [Bool.and_eq_true, Bool.not_eq_true', beq_iff_eq] at h
  obtain ⟨⟨hfile, hmod⟩, h⟩ := h
  obtain ⟨battrs, inner, own, rest, hfound, h⟩ := exists_of_startsWithBlock h
  simp only [Bool.and_eq_true, Bool.not_eq_true', beq_iff_eq] at h
  obtain ⟨⟨hblive, hbpath⟩, h⟩ := h
  obtain ⟨xattrs, x, more, hown, h⟩ := exists_of_startsWithFile h
  simp only [Bool.and_eq_true, Bool.not_eq_true', beq_iff_eq] at h
  obtain ⟨⟨hxlive, hxpath⟩, hx⟩ := h
  have hrel : isRelative battrs = true := by
    rw [isRelative, hbpath]
    decide
  refine ⟨[.file attrs name false file found, .block battrs inner],
    ((Place.ofRoot ⟨"src/lib.rs"⟩).inFile attrs name file).inside battrs inner, xattrs, x,
    ⟨source, hroot, ?_⟩, @Strays.enter [_] _ _ (@EndsNamed.intro [] _ _ _ _ hpath)
    (by simp [hbpath]) hrel, by simp [isRelative, hxpath], hfile, ?_, ?_⟩
  · rw [hitems, ← hmod]
    refine .file nofun hlive hopen ?_
    rw [hfound]
    refine .block nofun hblive ?_
    rw [hown]
    exact .here nofun hxlive
  · simp only [Place.candidates, Place.inside, Place.inFile, Place.ofRoot, hpath, hbpath, hxpath,
      hname, hx, Option.isSome_none, Option.getD_some, Bool.false_eq_true, if_false]
    decide +kernel
  · simp only [Lookup.after, Lookup.step, Lookup.candidates, Lookup.base, List.foldl_cons,
      List.foldl_nil, Bool.false_eq_true, if_false, hbpath, hxpath, hx, hfile]
    decide +kernel

/-- In `strayCrate` the scan looks elsewhere and does not find the file that a compiler finds, since
the way to the module strays. -/
theorem not_samePaths_strayCrate : ∃ path q attrs name,
    Reached strayCrate ⟨"src/lib.rs"⟩ path q attrs name ∧
    ¬SamePaths (q.candidates attrs name)
      ((Lookup.after false ⟨"src/lib.rs"⟩ path).candidates attrs name) ∧
    ((Lookup.after false ⟨"src/lib.rs"⟩ path).candidates attrs name).find? strayCrate.isFile =
      some ⟨"src/p/x.rs"⟩ ∧
    (scanCrate strayCrate ⟨"src/lib.rs"⟩).failure = some (.moduleNotFound (q.ns.child name)
      ⟨"src/n.rs"⟩ [⟨"src/n/p/x.rs"⟩, ⟨"src/n/p/x/mod.rs"⟩]) := by
  obtain ⟨path, q, attrs, name, hcomes, hstrays, hrel, hparent, hlooked, hcompiler⟩ :=
    exists_comesTo_strayCrate
  obtain ⟨hcandidates, hruns, -⟩ := @candidates_of_reached strayCrate ⟨"src/lib.rs"⟩
  obtain ⟨hreached, hmissing, -⟩ := hruns hcomes
  refine ⟨path, q, attrs, name, hreached, ?_, by rw [hcompiler]; decide +kernel, ?_⟩
  · rw [(hcandidates hreached).2.1]
    simp [hstrays, hrel]
  · rw [← hparent, ← hlooked]
    exact hmissing (by rw [hlooked]; decide +kernel)

end SanitizeGen
