import SanitizeGen.Proofs.ScanDepth

/-!
# How far a scan gets

A scan goes past an item (`Passes`) if neither it nor anything that it leads to makes the scan fail,
and it gets to an item (`GetsTo`) by going past all in front of it, in each module on the way. So
the scan of a file fails with what is wrong with the file or with an item that it gets to, and with
nothing else (`failure_scanFile_iff`), unless ever more files are nested on the way (`endless_iff`).
It opens the files of the modules that it gets to (`exists_of_opened_mem`, `ComesTo.opened_mem`).
-/

namespace SanitizeGen

/-! ### Why a scan fails -/

/-- What is wrong with an item of the module at `q`: the flag of a marker, or the file of a module,
if there is one. -/
inductive FailsAt (tree : FileTree) (q : Place) : Item → Error → Prop where
  | marker {d e} : derives d.attrs "PackageId" = true → packageFlag d.attrs = .error e →
      FailsAt tree q (.data d) (.invalidMarker (q.ns.qualify d.name.text) q.file e)
  | missing {attrs name} : (q.candidates attrs name).find? tree.isFile = none →
      FailsAt tree q (.fileModule attrs name)
        (.moduleNotFound (q.ns.child name) q.file (q.candidates attrs name))
  | refused {attrs name file e} : (q.candidates attrs name).find? tree.isFile = some file →
      tree.Refuses file e → FailsAt tree q (.fileModule attrs name) e

/-- If the attributes make an item a marker, its flag is well-formed. -/
def WellMarked (attrs : List Attribute) : Prop :=
  derives attrs "PackageId" = true → ∃ flag, packageFlag attrs = .ok flag

/-- Whether the item is in no build without tests. Items that are never looked at count as well. -/
def Item.isHidden : Item → Bool
  | .data d => isTestOnly d.attrs
  | .inlineModule attrs _ _ => isTestOnly attrs
  | .fileModule attrs _ => isTestOnly attrs
  | .other => true

/-- The scan goes past the item at `p`, and past all that it leads to. -/
inductive Passes (o : Opener) : Place → Item → Prop where
  | hidden {p i} : i.isHidden = true → Passes o p i
  | data {p d} : WellMarked d.attrs → Passes o p (.data d)
  | block {p attrs name own} : (∀ i ∈ own, Passes o (p.inside attrs name) i) →
      Passes o p (.inlineModule attrs name own)
  | file {p attrs name file source} : o p attrs name = some (file, source) →
      (∀ i ∈ source.items, Passes o (p.inFile attrs name file) i) →
      Passes o p (.fileModule attrs name)

/-- The scan of `items` at `p` gets by the steps `path` to an item `i` of the module at `q`. -/
inductive GetsTo (o : Opener) : Place → List Item → List Step → Place → Item → Prop where
  | here {p before i after} : (∀ j ∈ before, Passes o p j) → i.isHidden = false →
      GetsTo o p (before ++ i :: after) [] p i
  | block {p before attrs name own after path q i} : (∀ j ∈ before, Passes o p j) →
      isTestOnly attrs = false → GetsTo o (p.inside attrs name) own path q i →
      GetsTo o p (before ++ .inlineModule attrs name own :: after) (.block attrs name :: path) q i
  | file {p before attrs name file source after path q i} : (∀ j ∈ before, Passes o p j) →
      isTestOnly attrs = false → o p attrs name = some (file, source) →
      GetsTo o (p.inFile attrs name file) source.items path q i →
      GetsTo o p (before ++ .fileModule attrs name :: after)
        (.file attrs name (p.isModFile name file) file source :: path) q i

/-- The scan of the file at `p` gets to an item. -/
def ComesTo (tree : FileTree) (p : Place) (path : List Step) (q : Place) (i : Item) : Prop :=
  ∃ source, tree.source? p.file = some source ∧ GetsTo tree.opener p source.items path q i

/-- Whether the module is in a file of its own. -/
def Step.isFile : Step → Bool
  | block _ _ => false
  | file _ _ _ _ _ => true

/-- The scan of the file at `p` gets through any number of nested files. -/
def Endless (tree : FileTree) (p : Place) : Prop :=
  ∀ n, ∃ path q i, ComesTo tree p path q i ∧ n ≤ path.countP Step.isFile

/-- What an item of the module at `q` yields by itself if modules are followed `m` files deep. -/
inductive YieldsAt (tree : FileTree) (m : Nat) (q : Place) : Item → Event ⊕ Error → Prop where
  | data {d x} : (d.scan q).Yields x → YieldsAt tree m q (.data d) x
  | fails {i e} : FailsAt tree q i e → YieldsAt tree m q i (.inr e)
  | opens {attrs name file source} : tree.opener q attrs name = some (file, source) →
      YieldsAt tree m q (.fileModule attrs name) (.inl (.opened (q.ns.child name) file))
  | cut {attrs name file} : m = 0 → (q.candidates attrs name).find? tree.isFile = some file →
      YieldsAt tree m q (.fileModule attrs name) (.inr (.endlessModules file))

/-- The scan of `items` at `p`, `n` files deep, yields `x` at an item that it gets to. -/
def YieldsInTurn (tree : FileTree) (n : Nat) (p : Place) (items : List Item)
    (x : Event ⊕ Error) : Prop :=
  ∃ path q i m, GetsTo tree.opener p items path q i ∧ path.countP Step.isFile + m = n ∧
    YieldsAt tree m q i x

theorem GetsTo.exists_leads {o : Opener} {p q : Place} {items : List Item} {path : List Step}
    {i : Item} (h : GetsTo o p items path q i) :
    ∃ inner, Leads o p items path q inner ∧ Kept path ∧ i ∈ inner ∧ i.isHidden = false := by
  induction h with
  | here _ hlive => exact ⟨_, .here, List.forall_mem_nil _, by simp, hlive⟩
  | block _ hlive _ ih =>
    obtain ⟨inner, hleads, hkept, hmem, hi⟩ := ih
    exact ⟨inner, .block (by simp) hleads, List.forall_mem_cons.2 ⟨hlive, hkept⟩, hmem, hi⟩
  | file _ hlive ho _ ih =>
    obtain ⟨inner, hleads, hkept, hmem, hi⟩ := ih
    exact ⟨inner, .file (by simp) ho hleads, List.forall_mem_cons.2 ⟨hlive, hkept⟩, hmem, hi⟩

/-! ### Items one after the other -/

section

variable {t : Trace} {u : Unit → Trace} {x : Event ⊕ Error}

theorem Trace.yields_andThen_left (h : t.Yields x) : (t.andThen u).Yields x := by
  cases x with
  | inl e =>
    rcases ht : t.failure with _ | err
    · rw [andThen_of_ok ht]
      exact List.mem_append_left _ h
    · rw [andThen, ht]
      exact h
  | inr err =>
    rw [andThen, show t.failure = some err from h]
    exact h

theorem Trace.yields_andThen_right (ht : t.failure = none) (h : (u ()).Yields x) :
    (t.andThen u).Yields x := by
  rw [andThen_of_ok ht]
  cases x with
  | inl e => exact List.mem_append_right _ h
  | inr err => exact h

variable {f : Follow} {p : Place} {i : Item} {items before after : List Item} {d : DataItem}

theorem Item.scanAll_append (f : Follow) (p : Place) (before after : List Item) :
    scanAll f p (before ++ after) = (scanAll f p before).andThen fun _ => scanAll f p after := by
  induction before with
  | nil => rfl
  | cons i before ih => rw [List.cons_append, scanAll, scanAll, ih, Trace.andThen_assoc]

theorem failure_scanAll_of_forall (h : ∀ i ∈ items, (Item.scan f p i).failure = none) :
    (Item.scanAll f p items).failure = none := by
  induction items with
  | nil => rfl
  | cons i items ih =>
    obtain ⟨hi, hitems⟩ := List.forall_mem_cons.1 h
    rw [Item.scanAll]
    exact Trace.failure_andThen.2 ⟨hi, ih hitems⟩

theorem yields_scanAll_of_scan (hbefore : (Item.scanAll f p before).failure = none)
    (h : (Item.scan f p i).Yields x) : (Item.scanAll f p (before ++ i :: after)).Yields x := by
  rw [Item.scanAll_append, Item.scanAll]
  exact Trace.yields_andThen_right hbefore (Trace.yields_andThen_left h)

theorem scan_of_isHidden (h : i.isHidden = true) :
    Item.scan f p i = .nil ∨ Item.scan f p i = .one (.testOnly p.ns p.file) := by
  cases i <;> rw [Item.scan]
  case other => exact .inl rfl
  all_goals
    rw [Item.isHidden] at h
    exact .inr (if_pos h)

theorem failure_scan_of_isHidden (h : i.isHidden = true) : (Item.scan f p i).failure = none := by
  rcases scan_of_isHidden (f := f) (p := p) h with heq | heq <;> rw [heq] <;> rfl

/-- The scan of an item by itself succeeds if no flag of a marker is malformed. -/
theorem DataItem.failure_scan_eq_none : (d.scan p).failure = none ↔ WellMarked d.attrs := by
  rw [Option.eq_none_iff_forall_ne_some, WellMarked]
  simp only [ne_eq, failure_scan_eq_some, not_and, not_exists]
  constructor
  · intro h hd
    rcases hflag : packageFlag d.attrs with e | flag
    · exact absurd rfl (h _ hd e hflag)
    · exact ⟨flag, rfl⟩
  · rintro h err hd e he
    obtain ⟨flag, hflag⟩ := h hd
    cases he.symm.trans hflag

end

/-! ### Items that a scan goes past -/

variable {tree : FileTree} {p q : Place} {i : Item} {items before after : List Item}
  {path : List Step} {attrs : List Attribute} {name : Ident} {file : FilePath} {e : Error}
  {x : Event ⊕ Error} {m n : Nat}

theorem passes_of_scan (h : (Item.scan (tree.follow (scanFile tree n)) p i).failure = none) :
    Passes tree.opener p i := by
  induction n using Nat.strongRecOn generalizing p i with
  | _ n ih =>
    induction i using Item.induction generalizing p with
    | data d =>
      rw [Item.scan] at h
      split at h
      · rename_i hskip
        exact .hidden hskip
      · exact .data (DataItem.failure_scan_eq_none.1 h)
    | inlineModule attrs name own ihOwn =>
      rw [Item.scan] at h
      split at h
      · rename_i hskip
        exact .hidden hskip
      · exact .block fun j hj => ihOwn j hj (scan_of_mem h hj).1
    | fileModule attrs name =>
      rw [Item.scan] at h
      split at h
      · rename_i hskip
        exact .hidden hskip
      · obtain ⟨m, file, source, rfl, -, ho, hscan, -⟩ := FileTree.exists_of_follow_ok h
        exact .file ho fun j hj => ih m (Nat.lt_succ_self m) (scan_of_mem hscan hj).1
    | other => exact .hidden rfl

/-- If what is in a file is scanned up to the limit, then the file is. -/
theorem scanFile_depthLimit_of_source {source : SourceFile}
    (hsource : tree.source? p.file = some source)
    (hcut : (Item.scanAll (tree.follow (scanFile tree tree.depthLimit)) p
      source.items).ending ≠ .cut) :
    scanFile tree tree.depthLimit p = (Trace.one (.opened p.ns p.file)).andThen fun _ =>
      Item.scanAll (tree.follow (scanFile tree tree.depthLimit)) p source.items := by
  have hstep := scanFile_of_source hsource tree.depthLimit
  rw [← hstep]
  refine scanFile_depthLimit ?_
  rwa [hstep, Trace.ending_andThen, if_pos (Trace.ending_eq_ok.2 rfl)]

theorem Passes.failure_scan (h : Passes tree.opener p i) :
    (Item.scan (tree.follow (scanFile tree tree.depthLimit)) p i).failure = none := by
  induction h with
  | hidden h => exact failure_scan_of_isHidden h
  | data h =>
    rw [Item.scan]
    split
    · rfl
    · exact DataItem.failure_scan_eq_none.2 h
  | block _ ih =>
    rw [Item.scan]
    split
    · rfl
    · exact failure_scanAll_of_forall ih
  | file ho _ ih =>
    rw [Item.scan]
    split
    · rfl
    · obtain ⟨hfile, hsource⟩ := FileTree.opener_eq_some.1 ho
      have hscan := failure_scanAll_of_forall ih
      rw [FileTree.follow_of_find hfile,
        scanFile_depthLimit_of_source hsource (Trace.uncut_of_ok hscan)]
      exact Trace.failure_andThen.2 ⟨rfl, hscan⟩

/-- At any depth a scan goes past these items unless it is cut short in them. -/
theorem failure_scanAll_of_passes (h : ∀ i ∈ items, Passes tree.opener p i)
    (hcut : (Item.scanAll (tree.follow (scanFile tree n)) p items).ending ≠ .cut) :
    (Item.scanAll (tree.follow (scanFile tree n)) p items).failure = none := by
  have hlimit := scanAll_congr_of_inherited .uncut
    (fun q attrs name _ => follow_congr (fun _ _ hp => scanFile_depthLimit hp) q attrs name) hcut
  rw [← hlimit]
  exact failure_scanAll_of_forall fun i hi => (h i hi).failure_scan

/-! ### What a scan fails with -/

theorem FailsAt.ne_endlessModules (h : FailsAt tree q i e) (last : FilePath) :
    e ≠ .endlessModules last := by
  rintro rfl
  rcases h with _ | _ | ⟨-, ⟨⟩⟩

theorem FailsAt.uncut {t : Trace} (h : FailsAt tree q i e) (hfail : t.failure = some e) :
    t.ending ≠ .cut := by
  rw [Ne, Trace.ending_eq_cut, hfail]
  simpa using h.ne_endlessModules

theorem FailsAt.failure_scan (h : FailsAt tree q i e) (hlive : i.isHidden = false) (n : Nat) :
    (Item.scan (tree.follow (scanFile tree (n + 1))) q i).failure = some e := by
  cases h with
  | marker hd he =>
    rw [Item.scan_data hlive]
    exact DataItem.failure_scan_eq_some.2 ⟨hd, _, he, rfl⟩
  | missing hnone =>
    rw [Item.scan_fileModule hlive, FileTree.follow, hnone]
    rfl
  | refused hfile hrefuses =>
    rw [Item.scan_fileModule hlive, FileTree.follow_of_find hfile,
      FileTree.Refuses.scanFile_eq (p := q.inFile _ _ _) hrefuses]
    rfl

/-- The scan fails with what is wrong with an item that it gets to. -/
theorem GetsTo.failure_scanAll (h : GetsTo tree.opener p items path q i)
    (hfails : FailsAt tree q i e) :
    (Item.scanAll (tree.follow (scanFile tree tree.depthLimit)) p items).failure = some e := by
  have hpast {p before} (hbefore : ∀ j ∈ before, Passes tree.opener p j) :=
    failure_scanAll_of_forall fun j hj => (hbefore j hj).failure_scan
  induction h with
  | here hbefore hlive =>
    exact yields_scanAll_of_scan (x := .inr e) (hpast hbefore) (hfails.failure_scan hlive _)
  | block hbefore hlive _ ih =>
    refine yields_scanAll_of_scan (x := .inr e) (hpast hbefore) ?_
    rw [Item.scan_inlineModule hlive]
    exact ih hfails
  | file hbefore hlive ho _ ih =>
    refine yields_scanAll_of_scan (x := .inr e) (hpast hbefore) ?_
    obtain ⟨hfile, hsource⟩ := FileTree.opener_eq_some.1 ho
    -- a file whose items fail with `e` is not cut short, so the limit leaves room for it
    rw [Item.scan_fileModule hlive, FileTree.follow_of_find hfile,
      scanFile_depthLimit_of_source hsource (hfails.uncut (ih hfails))]
    exact Trace.yields_andThen_right (x := .inr e) rfl (ih hfails)

/-! ### What a scan yields -/

/-- What the scan of a file yields: what is wrong with the file, or that it is opened, or what its
items yield. -/
theorem yields_scanFile (h : (scanFile tree n p).Yields x) :
    (n = 0 ∧ x = .inr (.endlessModules p.file)) ∨ (∃ e, tree.Refuses p.file e ∧ x = .inr e) ∨
    ∃ m source, n = m + 1 ∧ tree.source? p.file = some source ∧
      (x = .inl (.opened p.ns p.file) ∨
        (Item.scanAll (tree.follow (scanFile tree m)) p source.items).Yields x) := by
  cases n with
  | zero => exact .inl ⟨rfl, Trace.yields_fail h⟩
  | succ m =>
    rcases hsource : tree.source? p.file with _ | source
    · obtain ⟨e, he⟩ := exists_refuses_of_source? hsource
      rw [he.scanFile_eq] at h
      exact .inr (.inl ⟨e, he, Trace.yields_fail h⟩)
    · rw [scanFile_of_source hsource] at h
      exact .inr (.inr ⟨m, source, rfl, rfl, (Trace.yields_of_andThen h).imp_left Trace.yields_one⟩)

/-- What the scan of items yields, but for what is skipped, comes from an item that it gets to. -/
theorem yieldsInTurn_of_scanAll
    (h : (Item.scanAll (tree.follow (scanFile tree n)) p items).Yields x)
    (hskip : ∀ ns file, x ≠ .inl (.testOnly ns file)) :
    YieldsInTurn tree n p items x := by
  -- files by induction on the depth, and the items of one file on their structure
  induction n using Nat.strongRecOn generalizing p items with
  | _ n ih =>
    suffices hitem : ∀ (i : Item) {p} (before after), (∀ j ∈ before, Passes tree.opener p j) →
        (Item.scan (tree.follow (scanFile tree n)) p i).Yields x →
        YieldsInTurn tree n p (before ++ i :: after) x by
      obtain ⟨before, i, after, rfl, hbefore, hi⟩ := exists_append_of_yields h
      exact hitem i before after (fun j hj => passes_of_scan (hbefore j hj)) hi
    intro i
    induction i using Item.induction with
    | data d =>
      intro p before after hbefore h
      rw [Item.scan] at h
      split at h
      · exact absurd (Trace.yields_one h) (hskip _ _)
      · rename_i hlive
        have hlive : isTestOnly d.attrs = false := by simpa using hlive
        exact ⟨[], p, _, n, .here hbefore hlive, by simp, .data h⟩
    | inlineModule attrs name own ihOwn =>
      intro p before after hbefore h
      rw [Item.scan] at h
      split at h
      · exact absurd (Trace.yields_one h) (hskip _ _)
      · rename_i hlive
        obtain ⟨front, j, rest, rfl, hfront, hj⟩ := exists_append_of_yields h
        obtain ⟨path, q, i, m, hgets, hcount, hi⟩ :=
          ihOwn j (by simp) front rest (fun k hk => passes_of_scan (hfront k hk)) hj
        exact ⟨_, q, i, m, .block hbefore (by simpa using hlive) hgets, hcount, hi⟩
    | fileModule attrs name =>
      intro p before after hbefore h
      rw [Item.scan] at h
      split at h
      · exact absurd (Trace.yields_one h) (hskip _ _)
      rename_i hlive
      have hlive : isTestOnly attrs = false := by simpa using hlive
      have hhere : GetsTo tree.opener p (before ++ .fileModule attrs name :: after) [] p
          (.fileModule attrs name) := .here hbefore hlive
      rcases hfile : (p.candidates attrs name).find? tree.isFile with _ | file
      · rw [FileTree.follow, hfile] at h
        obtain rfl := Trace.yields_fail h
        exact ⟨[], p, _, n, hhere, by simp, .fails (.missing hfile)⟩
      rw [FileTree.follow_of_find hfile] at h
      rcases yields_scanFile h with ⟨hn, rfl⟩ | ⟨e, he, rfl⟩ | ⟨m, source, rfl, hsource, hx⟩
      · exact ⟨[], p, _, n, hhere, by simp, .cut hn hfile⟩
      · exact ⟨[], p, _, n, hhere, by simp, .fails (.refused hfile he)⟩
      have ho := FileTree.opener_eq_some.2 ⟨hfile, hsource⟩
      rcases hx with rfl | hx
      · exact ⟨[], p, _, m + 1, hhere, by simp, .opens ho⟩
      · obtain ⟨path, q, i, k, hgets, hcount, hi⟩ := ih m (Nat.lt_succ_self m) hx
        refine ⟨_, q, i, k, .file hbefore hlive ho hgets, ?_, hi⟩
        rw [List.countP_cons_of_pos rfl, ← hcount]
        omega
    | other => exact fun _ _ _ h => absurd h Trace.not_yields_nil

/-- A scan of items that is not cut short goes on to an item if it goes past all in front of it. -/
theorem scan_of_uncut (hbefore : ∀ j ∈ before, Passes tree.opener p j)
    (hcut : (Item.scanAll (tree.follow (scanFile tree n)) p
      (before ++ i :: after)).ending ≠ .cut) :
    (Item.scan (tree.follow (scanFile tree n)) p i).ending ≠ .cut ∧
      ∀ x, (Item.scan (tree.follow (scanFile tree n)) p i).Yields x →
        (Item.scanAll (tree.follow (scanFile tree n)) p (before ++ i :: after)).Yields x := by
  rw [Item.scanAll_append] at hcut
  have hok := failure_scanAll_of_passes hbefore (Trace.Inherited.uncut.left hcut)
  have hrest := Trace.Inherited.uncut.right hcut hok
  rw [Item.scanAll] at hrest
  exact ⟨Trace.Inherited.uncut.left hrest, fun x hx => yields_scanAll_of_scan hok hx⟩

/-- A scan of items that is not cut short goes on to each item that it gets to, and yields all that
the item does. -/
theorem GetsTo.exists_scanned (h : GetsTo tree.opener p items path q i)
    (hcut : (Item.scanAll (tree.follow (scanFile tree n)) p items).ending ≠ .cut) :
    ∃ m, path.countP Step.isFile + m = n ∧
      (Item.scan (tree.follow (scanFile tree m)) q i).ending ≠ .cut ∧
      ∀ x, (Item.scan (tree.follow (scanFile tree m)) q i).Yields x →
        (Item.scanAll (tree.follow (scanFile tree n)) p items).Yields x := by
  induction h generalizing n with
  | here hbefore hlive =>
    obtain ⟨hitem, hsub⟩ := scan_of_uncut hbefore hcut
    exact ⟨n, by simp, hitem, hsub⟩
  | block hbefore hlive _ ih =>
    obtain ⟨hitem, hsub⟩ := scan_of_uncut hbefore hcut
    rw [Item.scan_inlineModule hlive] at hitem hsub
    obtain ⟨m, hcount, huncut, hown⟩ := ih hitem
    exact ⟨m, hcount, huncut, fun x hx => hsub x (hown x hx)⟩
  | file hbefore hlive ho _ ih =>
    obtain ⟨hitem, hsub⟩ := scan_of_uncut hbefore hcut
    obtain ⟨hfile, hsource⟩ := FileTree.opener_eq_some.1 ho
    rw [Item.scan_fileModule hlive, FileTree.follow_of_find hfile] at hitem hsub
    cases n with
    | zero => exact absurd rfl hitem
    | succ n =>
      rw [scanFile_of_source hsource] at hitem hsub
      obtain ⟨m, hcount, huncut, hown⟩ := ih (Trace.Inherited.uncut.right hitem rfl)
      refine ⟨m, ?_, huncut, fun x hx => hsub x (Trace.yields_andThen_right rfl (hown x hx))⟩
      rw [List.countP_cons_of_pos rfl]
      omega

/-! ### Scans of one file -/

/-- A scan that is cut short has been through as many nested files as it is deep. -/
theorem exists_comesTo_of_cut (h : (scanFile tree (n + 1) p).ending = .cut) :
    ∃ path q attrs name file, ComesTo tree p path q (.fileModule attrs name) ∧
      path.countP Step.isFile = n ∧ (q.candidates attrs name).find? tree.isFile = some file := by
  obtain ⟨last, hlast⟩ := Trace.ending_eq_cut.1 h
  rcases yields_scanFile (x := .inr (.endlessModules last)) hlast with
    ⟨⟨⟩, -⟩ | ⟨e, he, hlast⟩ | ⟨m, source, hm, hsource, hx⟩
  · cases hlast
    cases he
  obtain rfl := Nat.succ.inj hm
  obtain ⟨path, q, i, k, hgets, hcount, hi⟩ :=
    yieldsInTurn_of_scanAll (hx.resolve_left nofun) nofun
  cases hi with
  | data hd =>
    obtain ⟨-, _, -, heq⟩ := DataItem.failure_scan_eq_some.1 hd
    cases heq
  | fails hfails => exact absurd rfl (hfails.ne_endlessModules last)
  | cut hk hfile =>
    obtain rfl := hk
    exact ⟨path, q, _, _, last, ⟨source, hsource, hgets⟩, hcount, hfile⟩

/-- The scan of a file is cut short only if there are ever more nested files to go through. -/
theorem endless_iff : Endless tree p ↔
    ∃ last, (scanFile tree tree.depthLimit p).failure = some (.endlessModules last) := by
  rw [← Trace.ending_eq_cut]
  constructor
  · intro hend
    by_contra hcut
    obtain ⟨path, q, i, ⟨source, hsource, hgets⟩, hcount⟩ := hend tree.depthLimit
    rw [FileTree.depthLimit, scanFile_of_source hsource] at hcut
    obtain ⟨m, hm, -⟩ := hgets.exists_scanned (Trace.Inherited.uncut.right hcut rfl)
    rw [FileTree.depthLimit] at hcount
    omega
  · intro hcut n
    have hn : (scanFile tree (n + 1) p).ending = .cut := by
      by_contra huncut
      rw [scanFile_depthLimit huncut] at hcut
      exact huncut hcut
    obtain ⟨path, q, attrs, name, file, hcomes, hcount, -⟩ := exists_comesTo_of_cut hn
    exact ⟨path, q, _, hcomes, hcount.ge⟩

/-- The scan of a file fails with what is wrong with the file, or with an item that it gets to. -/
theorem failure_scanFile_iff (he : ∀ last, e ≠ .endlessModules last) :
    (scanFile tree tree.depthLimit p).failure = some e ↔
      tree.Refuses p.file e ∨ ∃ path q i, ComesTo tree p path q i ∧ FailsAt tree q i e := by
  constructor
  · intro h
    rcases yields_scanFile (x := .inr e) h with
      ⟨-, heq⟩ | ⟨e', he', heq⟩ | ⟨m, source, -, hsource, hx⟩
    · exact absurd (Sum.inr.inj heq) (he _)
    · obtain rfl := Sum.inr.inj heq
      exact .inl he'
    obtain ⟨path, q, i, k, hgets, -, hi⟩ :=
      yieldsInTurn_of_scanAll (hx.resolve_left nofun) nofun
    refine .inr ⟨path, q, i, ⟨source, hsource, hgets⟩, ?_⟩
    cases hi with
    | data hd =>
      obtain ⟨hmarker, flag, hflag, rfl⟩ := DataItem.failure_scan_eq_some.1 hd
      exact .marker hmarker hflag
    | fails hfails => exact hfails
    | cut => exact absurd rfl (he _)
  · rintro (hrefuses | ⟨path, q, i, ⟨source, hsource, hgets⟩, hfails⟩)
    · rw [FileTree.depthLimit, hrefuses.scanFile_eq]
      rfl
    · have hfail := hgets.failure_scanAll hfails
      rw [scanFile_depthLimit_of_source hsource (hfails.uncut hfail)]
      exact Trace.yields_andThen_right (x := .inr e) rfl hfail

/-- What the scan of a file opens is the file itself, or that of a module that it gets to. -/
theorem exists_of_opened_mem {ns : Namespace} (h : .opened ns file ∈ (scanFile tree n p).events) :
    (ns = p.ns ∧ file = p.file) ∨ ∃ path q attrs name source,
      ComesTo tree p path q (.fileModule attrs name) ∧ ns = q.ns.child name ∧
      tree.opener q attrs name = some (file, source) := by
  rcases yields_scanFile (x := .inl (.opened ns file)) h with
    ⟨-, ⟨⟩⟩ | ⟨e, -, ⟨⟩⟩ | ⟨m, source, -, hsource, heq | hscan⟩
  · cases heq
    exact .inl ⟨rfl, rfl⟩
  obtain ⟨path, q, i, k, hgets, -, hi⟩ := yieldsInTurn_of_scanAll hscan nofun
  cases hi with
  | data hd => cases DataItem.shows_of_mem hd
  | opens ho => exact .inr ⟨path, q, _, _, _, ⟨source, hsource, hgets⟩, rfl, ho⟩

/-- A scan that ends opens the file of each module that it gets to. -/
theorem ComesTo.opened_mem {source : SourceFile}
    (h : ComesTo tree p path q (.fileModule attrs name))
    (ho : tree.opener q attrs name = some (file, source)) (hend : ¬Endless tree p) :
    .opened (q.ns.child name) file ∈ (scanFile tree tree.depthLimit p).events := by
  obtain ⟨own, hown, hgets⟩ := h
  obtain ⟨-, -, -, -, hlive⟩ := hgets.exists_leads
  obtain ⟨hfile, hsource⟩ := FileTree.opener_eq_some.1 ho
  rw [endless_iff, ← Trace.ending_eq_cut, FileTree.depthLimit, scanFile_of_source hown] at hend
  obtain ⟨m, -, huncut, hsub⟩ := hgets.exists_scanned (Trace.Inherited.uncut.right hend rfl)
  rw [Item.scan_fileModule hlive, FileTree.follow_of_find hfile] at huncut hsub
  rw [FileTree.depthLimit, scanFile_of_source hown]
  cases m with
  | zero => exact absurd rfl huncut
  | succ m =>
    rw [scanFile_of_source hsource] at hsub
    exact Trace.yields_andThen_right (x := .inl _) rfl
      (hsub _ (Trace.yields_andThen_left (x := .inl _) List.mem_cons_self))

end SanitizeGen
