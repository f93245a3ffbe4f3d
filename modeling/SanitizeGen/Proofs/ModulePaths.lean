import SanitizeGen.Scan.Crate

/-!
# Ways to the modules of a crate

`Leads o p items path q inner` says that the steps `path` lead from the module with the items
`items` to one with the items `inner`, where `o` opens modules in files of their own. A scan goes
all these ways as long as no module on them is for tests alone: it succeeds only if it does so in
each module (`Leads.exists_scanned`), and what it yields comes from an item of one of them
(`yieldsWithin_of_scanAll`).
-/

namespace SanitizeGen

/-- What finds the items of a module in a file of its own: the file, and what it holds. -/
abbrev Opener := Place → List Attribute → Ident → Option (FilePath × SourceFile)

/-- Modules in files of their own are left alone. -/
def noFiles : Opener := fun _ _ _ => none

namespace FileTree

/-- What a source file of the tree holds. -/
def source? (tree : FileTree) (file : FilePath) : Option SourceFile :=
  (tree.readText file).bind fun text => SourceFile.ofText? text.toList

/-- A module is in the first of its files that is there. -/
def opener (tree : FileTree) : Opener := fun p attrs name =>
  ((p.candidates attrs name).find? tree.isFile).bind fun file => (tree.source? file).map (file, ·)

end FileTree

/-- Whether a file that holds the module `name` is the one in a directory of the module's own. -/
def Place.isModFile (p : Place) (name : Ident) (file : FilePath) : Bool :=
  file == (p.dir.child name.name).child "mod.rs"

/-- A step from a module to one that it declares. -/
inductive Step where
  /-- Into a module between braces. -/
  | block (attrs : List Attribute) (name : Ident)
  /-- Into a module in a file of its own, which is in a directory of its own if `isMod` says so. -/
  | file (attrs : List Attribute) (name : Ident) (isMod : Bool) (file : FilePath)
      (source : SourceFile)

namespace Step

/-- The attributes on the item of the module, those inside its braces included. -/
def attrs : Step → List Attribute
  | block attrs _ => attrs
  | file attrs _ _ _ _ => attrs

/-- The attributes at the top of the module's own file. -/
def fileAttrs : Step → List Attribute
  | block _ _ => []
  | file _ _ _ _ source => source.attrs

end Step

/-- Whether no module on the way is for tests alone, by the attributes on its item. -/
def Kept (path : List Step) : Prop := ∀ s ∈ path, isTestOnly s.attrs = false

/-- The steps `path` lead from the module at `p` with `items` to the one at `q` with `inner`. -/
inductive Leads (o : Opener) : Place → List Item → List Step → Place → List Item → Prop where
  | here {p items} : Leads o p items [] p items
  | block {p items attrs name own path q inner} :
      .inlineModule attrs name own ∈ items → Leads o (p.inside attrs name) own path q inner →
      Leads o p items (.block attrs name :: path) q inner
  | file {p items attrs name file source path q inner} :
      .fileModule attrs name ∈ items → o p attrs name = some (file, source) →
      Leads o (p.inFile attrs name file) source.items path q inner →
      Leads o p items (.file attrs name (p.isModFile name file) file source :: path) q inner

namespace Leads

variable {o : Opener} {p q r : Place} {items inner deep : List Item} {path path' : List Step}

theorem trans (h : Leads o p items path q inner) (h' : Leads o q inner path' r deep) :
    Leads o p items (path ++ path') r deep := by
  induction h with
  | here => exact h'
  | block hmem _ ih => exact .block hmem (ih h')
  | file hmem ho _ ih => exact .file hmem ho (ih h')

theorem of_noFiles (h : Leads noFiles p items path q inner) : Leads o p items path q inner := by
  induction h with
  | here => exact .here
  | block hmem _ ih => exact .block hmem ih
  | file _ ho => cases ho

end Leads

theorem Kept.append {path path' : List Step} (h : Kept path) (h' : Kept path') :
    Kept (path ++ path') :=
  List.forall_mem_append.2 ⟨h, h'⟩

/-! ### What a scan yields -/

/-- What is in a trace: its events, and the error that ended it. -/
def Trace.Yields (t : Trace) : Event ⊕ Error → Prop
  | .inl e => e ∈ t.events
  | .inr err => t.failure = some err

namespace Trace

variable {t : Trace} {u : Unit → Trace} {x : Event ⊕ Error}

theorem yields_of_andThen (h : (t.andThen u).Yields x) : t.Yields x ∨ (u ()).Yields x := by
  cases x with
  | inl e => exact mem_of_mem_andThen h
  | inr err => exact failure_of_andThen h

theorem not_yields_nil : ¬nil.Yields x := by
  rintro h
  cases x <;> cases h

theorem yields_one {e : Event} (h : (one e).Yields x) : x = .inl e := by
  cases x with
  | inl e' => exact congrArg _ (List.mem_singleton.1 h)
  | inr err => cases h

theorem yields_fail {err : Error} (h : (fail err).Yields x) : x = .inr err := by
  cases x with
  | inl e => cases h
  | inr err' => exact congrArg _ (Option.some.inj h).symm

end Trace

/-- The module at `q` yields `x` by an item of its own: one that is skipped, one that holds data, or
a module in another file, where `F` says what is yielded from there. -/
inductive YieldsHere (F : Place → List Attribute → Ident → Prop) (q : Place) (inner : List Item)
    (x : Event ⊕ Error) : Prop where
  | skipped : x = .inl (.testOnly q.ns q.file) → YieldsHere F q inner x
  | data {d} : .data d ∈ inner → isTestOnly d.attrs = false → (d.scan q).Yields x →
      YieldsHere F q inner x
  | file {attrs name} : .fileModule attrs name ∈ inner → isTestOnly attrs = false →
      F q attrs name → YieldsHere F q inner x

/-- Some module that `items` lead to, none on the way being for tests alone, yields `x` by an item
of its own. -/
def YieldsWithin (o : Opener) (F : Place → List Attribute → Ident → Prop) (p : Place)
    (items : List Item) (x : Event ⊕ Error) : Prop :=
  ∃ path q inner, Leads o p items path q inner ∧ Kept path ∧ YieldsHere F q inner x

section

variable {f : Follow} {p : Place} {i : Item} {items : List Item} {x : Event ⊕ Error}

/-- What a scan yields comes from one of the items, and it has gone through all in front of that. -/
theorem exists_append_of_yields (h : (Item.scanAll f p items).Yields x) :
    ∃ before i after, items = before ++ i :: after ∧
      (∀ j ∈ before, (Item.scan f p j).failure = none) ∧ (Item.scan f p i).Yields x := by
  induction items with
  | nil => exact absurd h Trace.not_yields_nil
  | cons i items ih =>
    rw [Item.scanAll] at h
    rcases hi : (Item.scan f p i).failure with _ | err
    · rcases Trace.yields_of_andThen h with h | h
      · exact ⟨[], i, items, rfl, List.forall_mem_nil _, h⟩
      · obtain ⟨before, j, after, rfl, hbefore, hj⟩ := ih h
        exact ⟨i :: before, j, after, rfl, List.forall_mem_cons.2 ⟨hi, hbefore⟩, hj⟩
    · rw [Trace.andThen, hi] at h
      exact ⟨[], i, items, rfl, List.forall_mem_nil _, h⟩

theorem exists_mem_of_yields_scanAll (h : (Item.scanAll f p items).Yields x) :
    ∃ i ∈ items, (Item.scan f p i).Yields x := by
  obtain ⟨before, i, after, rfl, -, hi⟩ := exists_append_of_yields h
  exact ⟨i, by simp, hi⟩

/-- What a scan of items yields comes from a module that they lead to through blocks. -/
theorem yieldsWithin_of_scanAll (h : (Item.scanAll f p items).Yields x) :
    YieldsWithin noFiles (fun q attrs name => (f q attrs name).Yields x) p items x := by
  suffices hitem : ∀ (i : Item) {p items}, i ∈ items → (Item.scan f p i).Yields x →
      YieldsWithin noFiles (fun q attrs name => (f q attrs name).Yields x) p items x by
    obtain ⟨i, hi, h⟩ := exists_mem_of_yields_scanAll h
    exact hitem i hi h
  intro i
  induction i using Item.induction with
  | data d =>
    intro p items hi h
    rw [Item.scan] at h
    split at h
    · exact ⟨[], p, items, .here, List.forall_mem_nil _, .skipped (Trace.yields_one h)⟩
    · rename_i hlive
      exact ⟨[], p, items, .here, List.forall_mem_nil _, .data hi (by simpa using hlive) h⟩
  | inlineModule attrs name own ih =>
    intro p items hi h
    rw [Item.scan] at h
    split at h
    · exact ⟨[], p, items, .here, List.forall_mem_nil _, .skipped (Trace.yields_one h)⟩
    · rename_i hlive
      have hlive : isTestOnly attrs = false := by simpa using hlive
      obtain ⟨j, hj, h⟩ := exists_mem_of_yields_scanAll h
      obtain ⟨path, q, inner, hleads, hkept, hhere⟩ := ih j hj hj h
      exact ⟨_, q, inner, .block hi hleads, List.forall_mem_cons.2 ⟨hlive, hkept⟩, hhere⟩
  | fileModule attrs name =>
    intro p items hi h
    rw [Item.scan] at h
    split at h
    · exact ⟨[], p, items, .here, List.forall_mem_nil _, .skipped (Trace.yields_one h)⟩
    · rename_i hlive
      exact ⟨[], p, items, .here, List.forall_mem_nil _, .file hi (by simpa using hlive) h⟩
  | other =>
    intro p items hi h
    exact absurd h Trace.not_yields_nil

end

/-! ### What a scan finds -/

/-- Whether the event is a marker or a tagged item. -/
def Event.isFinding : Event → Bool
  | .marker _ => true
  | .tagged _ => true
  | _ => false

namespace DataItem

/-- What an item in the module at `p` is found to be. -/
inductive Shows (d : DataItem) (p : Place) : Event → Prop where
  | marker {flag} : derives d.attrs "PackageId" = true → packageFlag d.attrs = .ok flag →
      Shows d p (.marker ⟨p.ns, Mode.ofFlag flag, d.name.text, p.file⟩)
  | tagged : derives d.attrs "Sanitize" = true → Shows d p (.tagged ⟨p.ns, d, p.file⟩)

variable {d : DataItem} {p : Place} {e : Event}

theorem shows_of_mem (h : e ∈ (d.scan p).events) : d.Shows p e := by
  rcases Trace.mem_of_mem_andThen h with h | h
  · unfold scanMarker at h
    split at h
    · rename_i hd
      split at h
      · rename_i flag hflag
        obtain rfl := List.mem_singleton.1 h
        exact .marker hd hflag
      · cases h
    · cases h
  · unfold scanTag at h
    split at h
    · rename_i hd
      obtain rfl := List.mem_singleton.1 h
      exact .tagged hd
    · cases h

theorem mem_of_shows (hok : (d.scan p).failure = none) (h : d.Shows p e) :
    e ∈ (d.scan p).events := by
  obtain ⟨hmarker, -⟩ := Trace.failure_andThen.1 hok
  rw [scan, Trace.andThen_of_ok hmarker, List.mem_append]
  cases h with
  | marker hd hflag =>
    rw [scanMarker, if_pos hd, hflag]
    exact .inl List.mem_cons_self
  | tagged hd =>
    rw [scanTag, if_pos hd]
    exact .inr List.mem_cons_self

/-- The scan of an item fails only at a malformed flag of a marker. -/
theorem failure_scan_eq_some {err : Error} : (d.scan p).failure = some err ↔
    derives d.attrs "PackageId" = true ∧ ∃ e, packageFlag d.attrs = .error e ∧
      .invalidMarker (p.ns.qualify d.name.text) p.file e = err := by
  have htag : (d.scanTag p).failure = none := by
    rw [scanTag]
    split <;> rfl
  have hscan : (d.scan p).failure = (d.scanMarker p).failure := by
    rw [scan, Trace.andThen]
    split
    · rfl
    · rename_i h
      rw [h]
      exact htag
  rw [hscan, scanMarker]
  cases derives d.attrs "PackageId"
  · simp [Trace.nil]
  · cases packageFlag d.attrs <;> simp [Trace.one, Trace.fail]

end DataItem

/-- An item in the module that the steps `path` lead to is found to be `e`. -/
def ToldAt (o : Opener) (p : Place) (items : List Item) (path : List Step) (e : Event) : Prop :=
  ∃ q inner d, Leads o p items path q inner ∧ .data d ∈ inner ∧ isTestOnly d.attrs = false ∧
    d.Shows q e

/-- An item in a module that is not for tests alone is found to be `e`. -/
def Told (o : Opener) (p : Place) (items : List Item) (e : Event) : Prop :=
  ∃ path, Kept path ∧ ToldAt o p items path e

theorem ToldAt.isFinding {o : Opener} {p : Place} {items : List Item} {path : List Step} {e : Event}
    (h : ToldAt o p items path e) : e.isFinding = true := by
  obtain ⟨q, inner, d, -, -, -, hshows⟩ := h
  cases hshows <;> rfl

theorem told_of_yieldsWithin {o : Opener} {F : Place → List Attribute → Ident → Prop} {p : Place}
    {items : List Item} {e : Event} (hfind : e.isFinding = true)
    (hF : ∀ q attrs name, ¬F q attrs name)
    (h : YieldsWithin o F p items (.inl e)) : Told o p items e := by
  obtain ⟨path, q, inner, hleads, hkept, hskip | ⟨hd, hlive, h⟩ | ⟨-, -, h⟩⟩ := h
  · obtain rfl := Sum.inl.inj hskip
    cases hfind
  · exact ⟨path, hkept, q, inner, _, hleads, hd, hlive, DataItem.shows_of_mem h⟩
  · exact absurd h (hF _ _ _)

/-! ### Modules that a scan goes through -/

section

variable {o : Opener} {f : Follow} {p : Place} {i : Item} {items : List Item} {e : Event}

/-- A scan of items that succeeds has gone through each of them. -/
theorem scan_of_mem (h : (Item.scanAll f p items).failure = none) (hi : i ∈ items) :
    (Item.scan f p i).failure = none ∧
      ∀ e ∈ (Item.scan f p i).events, e ∈ (Item.scanAll f p items).events := by
  induction items with
  | nil => cases hi
  | cons j items ih =>
    rw [Item.scanAll] at h ⊢
    obtain ⟨hj, hrest⟩ := Trace.failure_andThen.1 h
    rw [Trace.andThen_of_ok hj]
    rcases List.mem_cons.1 hi with rfl | hi
    · exact ⟨hj, fun e he => List.mem_append_left _ he⟩
    · obtain ⟨hok, hsub⟩ := ih hrest hi
      exact ⟨hok, fun e he => List.mem_append_right _ (hsub e he)⟩

/-- The follows `fs` go where `o` leads: one that succeeds has gone through the module's items with
another. -/
def Follows (o : Opener) (fs : Follow → Prop) : Prop :=
  ∀ {f p attrs name file source}, fs f → o p attrs name = some (file, source) →
    (f p attrs name).failure = none → ∃ g, fs g ∧
      (Item.scanAll g (p.inFile attrs name file) source.items).failure = none ∧
      ∀ e ∈ (Item.scanAll g (p.inFile attrs name file) source.items).events,
        e ∈ (f p attrs name).events

/-- A scan that succeeds has gone through each module that its items lead to. -/
theorem Leads.exists_scanned {fs : Follow → Prop} (hfs : Follows o fs) {q : Place}
    {inner : List Item} {path : List Step} (h : Leads o p items path q inner)
    (hkept : Kept path) (hf : fs f) (hok : (Item.scanAll f p items).failure = none) :
    ∃ g, fs g ∧ (Item.scanAll g q inner).failure = none ∧
      ∀ e ∈ (Item.scanAll g q inner).events, e ∈ (Item.scanAll f p items).events := by
  induction h generalizing f with
  | here => exact ⟨f, hf, hok, fun _ => id⟩
  | block hmem _ ih =>
    obtain ⟨hlive, hkept⟩ := List.forall_mem_cons.1 hkept
    obtain ⟨hitem, hsub⟩ := scan_of_mem hok hmem
    rw [Step.attrs] at hlive
    rw [Item.scan_inlineModule hlive] at hitem hsub
    obtain ⟨g, hg, hgok, hgsub⟩ := ih hkept hf hitem
    exact ⟨g, hg, hgok, fun e he => hsub e (hgsub e he)⟩
  | file hmem ho _ ih =>
    obtain ⟨hlive, hkept⟩ := List.forall_mem_cons.1 hkept
    obtain ⟨hitem, hsub⟩ := scan_of_mem hok hmem
    rw [Step.attrs] at hlive
    rw [Item.scan_fileModule hlive] at hitem hsub
    obtain ⟨f', hf', hok', hsub'⟩ := hfs hf ho hitem
    obtain ⟨g, hg, hgok, hgsub⟩ := ih hkept hf' hok'
    exact ⟨g, hg, hgok, fun e he => hsub e (hsub' e (hgsub e he))⟩

/-- A scan that succeeds has found all that is in modules that are not for tests alone. -/
theorem Told.mem_events {fs : Follow → Prop} (hfs : Follows o fs) (hf : fs f)
    (hok : (Item.scanAll f p items).failure = none) (h : Told o p items e) :
    e ∈ (Item.scanAll f p items).events := by
  obtain ⟨path, hkept, q, inner, d, hleads, hd, hlive, hshows⟩ := h
  obtain ⟨g, -, hgok, hgsub⟩ := hleads.exists_scanned hfs hkept hf hok
  obtain ⟨hitem, hsub⟩ := scan_of_mem hgok hd
  rw [Item.scan_data hlive] at hitem hsub
  exact hgsub e (hsub e (DataItem.mem_of_shows hitem hshows))

end

end SanitizeGen
