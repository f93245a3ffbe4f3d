import SanitizeGen.Proofs.PrintedFiles

/-!
# Other markers behind the first one

A crate and an edited copy of it are walked side by side in the order of the scan
(`MarkersEdited`). The walk knows whether it has passed a marker, and only from there on may the
copy have other markers. What is found in the copy differs in the attributes of tagged items at
most, and the first marker is the same (`MarkersEdited.agrees`), so both crates have one plan
(`plan_of_editedMarkers`). If the settings name mode and namespace, no marker decides anything, and
the copy may differ from the start.
-/

namespace SanitizeGen

open FileTree

/-! ### Edits -/

def DataItem.isMarker (d : DataItem) : Bool := !isTestOnly d.attrs && derives d.attrs "PackageId"

/-- An item that may be added: it tags nothing, and a marker is well-formed. -/
inductive Item.IsExtra : Item → Prop where
  | data {d : DataItem} : derives d.attrs "Sanitize" = false → WellMarked d.attrs → IsExtra (.data d)
  | block {attrs name items} : (∀ i ∈ items, IsExtra i) → IsExtra (.inlineModule attrs name items)
  | other : IsExtra .other

/-- The attributes `edited` mark an item in another way, or no more. -/
structure Remarked (attrs edited : List Attribute) : Prop where
  testOnly : isTestOnly edited = isTestOnly attrs
  tagged : derives edited "Sanitize" = derives attrs "Sanitize"
  wellMarked : WellMarked edited

/-- The items of the first list at a place and those of the second one differ in markers behind the
first one. The flag in front says whether a marker has been passed before them, the one at the end
whether one has behind them. Files of modules are walked where the modules are declared. -/
inductive MarkersEdited (before after : FileTree) :
    Bool → Place → List Item → List Item → Bool → Prop where
  | nil {seen p} : MarkersEdited before after seen p [] [] seen
  | data {seen p d items edited last} :
      MarkersEdited before after (seen || d.isMarker) p items edited last →
      MarkersEdited before after seen p (.data d :: items) (.data d :: edited) last
  | other {seen p items edited last} : MarkersEdited before after seen p items edited last →
      MarkersEdited before after seen p (.other :: items) (.other :: edited) last
  | change {p attrs name generics kind attrs' items edited last} : Remarked attrs attrs' →
      MarkersEdited before after true p items edited last →
      MarkersEdited before after true p (.data ⟨attrs, name, generics, kind⟩ :: items)
        (.data ⟨attrs', name, generics, kind⟩ :: edited) last
  | insert {p i items edited last} : i.IsExtra →
      MarkersEdited before after true p items edited last →
      MarkersEdited before after true p items (i :: edited) last
  | remove {p i items edited last} : i.IsExtra →
      MarkersEdited before after true p items edited last →
      MarkersEdited before after true p (i :: items) edited last
  | block {seen p attrs name own ownEdited passed items edited last} : isTestOnly attrs = false →
      MarkersEdited before after seen (p.inside attrs name) own ownEdited passed →
      MarkersEdited before after passed p items edited last →
      MarkersEdited before after seen p (.inlineModule attrs name own :: items)
        (.inlineModule attrs name ownEdited :: edited) last
  | file {seen p attrs name file source source' passed items edited last} :
      isTestOnly attrs = false → before.opener p attrs name = some (file, source) →
      after.source? file = some source' →
      MarkersEdited before after seen (p.inFile attrs name file) source.items source'.items
        passed →
      MarkersEdited before after passed p items edited last →
      MarkersEdited before after seen p (.fileModule attrs name :: items)
        (.fileModule attrs name :: edited) last
  | skippedBlock {seen p attrs name own items edited last} : isTestOnly attrs = true →
      MarkersEdited before after seen p items edited last →
      MarkersEdited before after seen p (.inlineModule attrs name own :: items)
        (.inlineModule attrs name own :: edited) last
  | skippedFile {seen p attrs name items edited last} : isTestOnly attrs = true →
      MarkersEdited before after seen p items edited last →
      MarkersEdited before after seen p (.fileModule attrs name :: items)
        (.fileModule attrs name :: edited) last

/-! ### What is found -/

/-- The tagged item without its attributes, which do not matter for its target. -/
def Tagged.withoutAttrs (t : Tagged) : Tagged := { t with item := { t.item with attrs := [] } }

theorem Tagged.resolve_withoutAttrs (t : Tagged) : t.withoutAttrs.resolve = t.resolve := rfl

namespace Findings

variable (es fs : List Event)

theorem tagged_append : (ofEvents (es ++ fs)).tagged = (ofEvents es).tagged ++ (ofEvents fs).tagged :=
  List.filterMap_append

theorem package_append :
    (ofEvents (es ++ fs)).package = (ofEvents es).package.or (ofEvents fs).package := by
  simp only [package, ofEvents, List.filterMap_append, List.head?_append]

end Findings

/-- The trace `u` succeeds with what `t` finds, but for the attributes of tagged items and, once a
marker has been passed, for markers. -/
structure Trace.Agrees (seen : Bool) (t u : Trace) (last : Bool) : Prop where
  ok : u.failure = none
  tagged : (Findings.ofEvents u.events).tagged.map Tagged.withoutAttrs =
    (Findings.ofEvents t.events).tagged.map Tagged.withoutAttrs
  package : seen = false →
    (Findings.ofEvents u.events).package = (Findings.ofEvents t.events).package
  last : last = (seen || (Findings.ofEvents t.events).package.isSome)

namespace Trace.Agrees

variable {seen passed last : Bool} {t u : Trace} {t' u' : Unit → Trace}

theorem refl (h : t.failure = none) :
    Agrees seen t t (seen || (Findings.ofEvents t.events).package.isSome) :=
  ⟨h, rfl, fun _ => rfl, rfl⟩

theorem of_unmarked (h : t.failure = none) (hm : (Findings.ofEvents t.events).package = none) :
    Agrees seen t t seen :=
  ⟨h, rfl, fun _ => rfl, by rw [hm, Option.isSome_none, Bool.or_false]⟩

theorem andThen (ht : t.failure = none) (h : Agrees seen t u passed)
    (h' : Agrees passed (t' ()) (u' ()) last) :
    Agrees seen (t.andThen t') (u.andThen u') last := by
  rw [Trace.andThen_of_ok ht, Trace.andThen_of_ok h.ok]
  refine ⟨h'.ok, ?_, fun hseen => ?_, ?_⟩
  · simp only [Findings.tagged_append, List.map_append, h.tagged, h'.tagged]
  · simp only [Findings.package_append, h.package hseen]
    rcases hfirst : (Findings.ofEvents t.events).package with _ | m
    · have hpassed : passed = false := by rw [h.last, hseen, hfirst]; rfl
      rw [Option.none_or, Option.none_or, h'.package hpassed]
    · rfl
  · rw [h'.last, h.last, Findings.package_append, Option.isSome_or, Bool.or_assoc]

/-- Behind a marker it only matters what is tagged. -/
theorem of_tagged (h : u.failure = none)
    (htagged : (Findings.ofEvents u.events).tagged.map Tagged.withoutAttrs =
      (Findings.ofEvents t.events).tagged.map Tagged.withoutAttrs) : Agrees true t u true :=
  ⟨h, htagged, nofun, rfl⟩

theorem of_untagged (h : u.failure = none) (ht : (Findings.ofEvents t.events).tagged = [])
    (hu : (Findings.ofEvents u.events).tagged = []) : Agrees true t u true :=
  of_tagged h (by rw [ht, hu])

theorem insert (h : u.failure = none) (hu : (Findings.ofEvents u.events).tagged = [])
    (h' : Agrees true t (u' ()) last) : Agrees true t (u.andThen u') last := by
  change Agrees true (Trace.nil.andThen fun _ => t) (u.andThen u') last
  exact andThen rfl (of_untagged h rfl hu) h'

theorem remove (h : t.failure = none) (ht : (Findings.ofEvents t.events).tagged = [])
    (h' : Agrees true (t' ()) u last) : Agrees true (t.andThen t') u last := by
  change Agrees true (t.andThen t') (Trace.nil.andThen fun _ => u) last
  exact andThen h (of_untagged rfl ht rfl) h'

end Trace.Agrees

/-! ### Scans of edited items -/

section

variable {f : Follow} {p : Place} {d : DataItem}

theorem DataItem.exists_scanMarker (h : WellMarked d.attrs) : ∃ es,
    d.scanMarker p = ⟨es, none⟩ ∧ (Findings.ofEvents es).tagged = [] := by
  rw [scanMarker]
  split
  · rename_i hd
    obtain ⟨flag, hflag⟩ := h hd
    rw [hflag]
    exact ⟨_, rfl, rfl⟩
  · exact ⟨_, rfl, rfl⟩

/-- Once a marker has been passed, the attributes of an item only tell whether it is tagged. -/
theorem DataItem.agrees_scan {attrs attrs' : List Attribute} {name : Ident} {generics : Generics}
    {kind : DataKind} (h : Remarked attrs attrs')
    (hok : (DataItem.scan ⟨attrs, name, generics, kind⟩ p).failure = none) :
    Trace.Agrees true (DataItem.scan ⟨attrs, name, generics, kind⟩ p)
      (DataItem.scan ⟨attrs', name, generics, kind⟩ p) true := by
  obtain ⟨es, hes, htagged⟩ := exists_scanMarker (p := p) (failure_scan_eq_none.1 hok)
  obtain ⟨es', hes', htagged'⟩ :=
    exists_scanMarker (d := ⟨attrs', name, generics, kind⟩) (p := p) h.wellMarked
  rw [scan, scan]
  refine .andThen (by rw [hes]) (.of_untagged (by rw [hes']) (by rw [hes, htagged])
    (by rw [hes', htagged'])) ?_
  rw [scanTag, scanTag, h.tagged]
  split
  · exact .of_tagged rfl rfl
  · exact .of_tagged rfl rfl

theorem untagged_scanAll {items : List Item}
    (h : ∀ i ∈ items, (Item.scan f p i).failure = none ∧
      (Findings.ofEvents (Item.scan f p i).events).tagged = []) :
    (Item.scanAll f p items).failure = none ∧
      (Findings.ofEvents (Item.scanAll f p items).events).tagged = [] := by
  induction items with
  | nil => exact ⟨rfl, rfl⟩
  | cons i items ih =>
    obtain ⟨⟨hok, htagged⟩, hitems⟩ := List.forall_mem_cons.1 h
    obtain ⟨hrest, hnone⟩ := ih hitems
    rw [Item.scanAll, Trace.andThen_of_ok hok]
    exact ⟨hrest, by rw [Findings.tagged_append, htagged, hnone, List.append_nil]⟩

theorem Item.IsExtra.untagged {i : Item} (h : i.IsExtra) : (Item.scan f p i).failure = none ∧
    (Findings.ofEvents (Item.scan f p i).events).tagged = [] := by
  induction h generalizing p with
  | @data d hplain hmarked =>
    rw [Item.scan]
    split
    · exact ⟨rfl, rfl⟩
    · obtain ⟨es, hes, htagged⟩ := DataItem.exists_scanMarker (p := p) hmarked
      rw [DataItem.scan, DataItem.scanTag, hes, hplain, if_neg Bool.false_ne_true,
        Trace.andThen_of_ok rfl]
      exact ⟨rfl, by rw [Findings.tagged_append, htagged]; rfl⟩
  | block _ ih =>
    rw [Item.scan]
    split
    · exact ⟨rfl, rfl⟩
    · exact untagged_scanAll fun i hi => ih i hi
  | other => exact ⟨rfl, rfl⟩

/-- An item that is kept may be the first marker. -/
theorem DataItem.package_scan (h : (Item.scan f p (.data d)).failure = none) :
    (Findings.ofEvents (Item.scan f p (.data d)).events).package.isSome = d.isMarker := by
  rw [Item.scan, isMarker] at *
  split
  · rename_i htest
    rw [htest]
    rfl
  · rename_i hlive
    rw [if_neg hlive] at h
    obtain ⟨hmarker, -⟩ := Trace.failure_andThen.1 h
    have htag : (Findings.ofEvents (d.scanTag p).events).package = none := by
      rw [scanTag]
      split <;> rfl
    rw [scan, Trace.andThen_of_ok hmarker, Findings.package_append, htag, Option.or_none,
      Bool.eq_false_iff.2 hlive, Bool.not_false, Bool.true_and]
    rw [scanMarker] at hmarker ⊢
    split
    · rename_i hd
      rw [if_pos hd] at hmarker
      split at hmarker
      · rw [hd]
        rfl
      · cases hmarker
    · rename_i hd
      rw [Bool.eq_false_iff.2 hd]
      rfl

end

section

variable {before after : FileTree} {seen passed last : Bool} {p : Place} {n : Nat} {i i' : Item}
  {items edited : List Item} {f g : Follow}

theorem scanAll_cons_agrees (hok : (Item.scanAll f p (i :: items)).failure = none)
    (hitem : (Item.scan f p i).failure = none →
      Trace.Agrees seen (Item.scan f p i) (Item.scan g p i') passed)
    (hitems : (Item.scanAll f p items).failure = none →
      Trace.Agrees passed (Item.scanAll f p items) (Item.scanAll g p edited) last) :
    Trace.Agrees seen (Item.scanAll f p (i :: items)) (Item.scanAll g p (i' :: edited)) last := by
  rw [Item.scanAll] at hok
  obtain ⟨hi, hrest⟩ := Trace.failure_andThen.1 hok
  rw [Item.scanAll, Item.scanAll]
  exact .andThen hi (hitem hi) (hitems hrest)

/-- The scan of edited items succeeds as that of the items does, and it finds the same. -/
theorem MarkersEdited.agrees (h : MarkersEdited before after seen p items edited last)
    (hedited : EditedApart before after [])
    (hok : (Item.scanAll (before.follow (scanFile before n)) p items).failure = none) :
    Trace.Agrees seen (Item.scanAll (before.follow (scanFile before n)) p items)
      (Item.scanAll (after.follow (scanFile after n)) p edited) last := by
  induction h generalizing n with
  | nil => exact .of_unmarked rfl rfl
  | @data seen p d items edited last _ ih =>
    refine scanAll_cons_agrees hok (fun hd => ?_) fun hok => ih hok
    have hrefl : Trace.Agrees seen _ _ _ := .refl hd
    rw [DataItem.package_scan hd] at hrefl
    rw [Item.scan] at hrefl ⊢
    rw [Item.scan]
    exact hrefl
  | other _ ih =>
    exact scanAll_cons_agrees hok (fun _ => .of_unmarked rfl rfl) fun hok => ih hok
  | @change p attrs name generics kind attrs' items edited last h _ ih =>
    refine scanAll_cons_agrees hok (fun hd => ?_) fun hok => ih hok
    rw [Item.scan] at hd ⊢
    rw [Item.scan, h.testOnly]
    split
    · exact .of_untagged rfl rfl rfl
    · rename_i hlive
      rw [if_neg hlive] at hd
      exact DataItem.agrees_scan h hd
  | insert hi _ ih =>
    rw [Item.scanAll]
    exact .insert hi.untagged.1 hi.untagged.2 (ih hok)
  | remove hi _ ih =>
    rw [Item.scanAll] at hok ⊢
    exact .remove hi.untagged.1 hi.untagged.2 (ih (Trace.failure_andThen.1 hok).2)
  | block hlive _ _ ihOwn ih =>
    refine scanAll_cons_agrees hok (fun hown => ?_) fun hok => ih hok
    rw [Item.scan_inlineModule hlive] at hown
    rw [Item.scan_inlineModule hlive, Item.scan_inlineModule hlive]
    exact ihOwn hown
  | @file seen p attrs name file source source' passed items edited last hlive ho hsource' _ _ ihOwn
      ih =>
    refine scanAll_cons_agrees hok (fun hfollow => ?_) fun hok => ih hok
    rw [Item.scan_fileModule hlive] at hfollow
    rw [Item.scan_fileModule hlive, Item.scan_fileModule hlive]
    -- both trees have the module in the same file, and there the walk goes on
    obtain ⟨k, file', source'', rfl, hfile, ho', hscan, -⟩ := FileTree.exists_of_follow_ok hfollow
    obtain ⟨rfl, rfl⟩ := Prod.mk.inj (Option.some.inj (ho.symm.trans ho'))
    have hsource := (FileTree.opener_eq_some.1 ho).2
    have hfile' : (p.candidates attrs name).find? after.isFile = some file := by
      rw [funext hedited.isFile_eq, hfile]
    rw [FileTree.follow_of_find hfile, FileTree.follow_of_find hfile',
      scanFile_of_source (p := p.inFile attrs name file) hsource,
      scanFile_of_source (p := p.inFile attrs name file) hsource']
    exact .andThen rfl (.of_unmarked rfl rfl) (ihOwn hscan)
  | skippedBlock htest _ ih =>
    refine scanAll_cons_agrees hok (fun _ => ?_) fun hok => ih hok
    rw [Item.scan, Item.scan, if_pos htest, if_pos htest]
    exact .of_unmarked rfl rfl
  | skippedFile htest _ ih =>
    refine scanAll_cons_agrees hok (fun _ => ?_) fun hok => ih hok
    rw [Item.scan, Item.scan, if_pos htest, if_pos htest]
    exact .of_unmarked rfl rfl

end

/-! ### One plan for both crates -/

/-- The crates from `root` on differ in markers behind the first one; from the start if `seen`. -/
def CrateEdited (before after : FileTree) (seen : Bool) (root : FilePath) : Prop :=
  ∃ source source' last, before.source? root = some source ∧ after.source? root = some source' ∧
    MarkersEdited before after seen (.ofRoot root) source.items source'.items last

section

variable {before after : FileTree} {seen : Bool} {root outDir : FilePath} {found found' : Findings}
  {c : Config} {env : Environment} {p : Plan}

theorem CrateEdited.exists_findings (h : CrateEdited before after seen root)
    (hedited : EditedApart before after [])
    (hfound : (scanCrate before root).findings = .ok found) : ∃ found',
      (scanCrate after root).findings = .ok found' ∧
      found'.tagged.map Tagged.withoutAttrs = found.tagged.map Tagged.withoutAttrs ∧
      (seen = false → found'.package = found.package) := by
  obtain ⟨source, source', last, hsource, hsource', hmarkers⟩ := h
  obtain ⟨hok, rfl⟩ := Trace.findings_eq_ok.1 hfound
  obtain ⟨n, own, hn, hown, hscan⟩ := scanFile_ok_iff.1 hok
  obtain rfl := Option.some.inj (hsource.symm.trans hown)
  have hagrees : Trace.Agrees seen (scanFile before (n + 1) (.ofRoot root))
      (scanFile after (n + 1) (.ofRoot root)) last := by
    rw [scanFile_of_source (p := .ofRoot root) hsource,
      scanFile_of_source (p := .ofRoot root) hsource']
    exact .andThen rfl (.of_unmarked rfl rfl) (hmarkers.agrees hedited hscan)
  have hbefore : scanCrate before root = scanFile before (n + 1) (.ofRoot root) :=
    congrArg (scanFile before · (.ofRoot root)) hn
  have hafter : scanCrate after root = scanFile after (n + 1) (.ofRoot root) :=
    scanFile_depthLimit (Trace.uncut_of_ok hagrees.ok)
  rw [hbefore, hafter]
  exact ⟨_, Trace.findings_eq_ok.2 ⟨hagrees.ok, rfl⟩, hagrees.tagged, hagrees.package⟩

/-- Whether the settings name both what a marker decides. -/
def Config.needsNoMarker (c : Config) : Bool := c.mode.isSome && c.ns.isSome

/-- The plan is made of the targets of tagged items and, unless the settings decide, of the first
marker. -/
theorem Config.planFor_congr
    (htagged : found'.tagged.map Tagged.withoutAttrs = found.tagged.map Tagged.withoutAttrs)
    (hpackage : c.needsNoMarker = false → found'.package = found.package)
    (hruntime : c.runtime.getD (runtimePath env after) = c.runtime.getD (runtimePath env before)) :
    c.planFor env after outDir found' = c.planFor env before outDir found := by
  have hrun (pass : Pass) :
      pass.run Tagged.resolve found'.tagged = pass.run Tagged.resolve found.tagged := by
    have h := congrArg (pass.run Tagged.resolve) htagged
    simpa only [Pass.run_map, Tagged.resolve_withoutAttrs] using h
  have hcount : found'.tagged.length = found.tagged.length := by
    simpa using congrArg List.length htagged
  unfold planFor
  rw [hruntime]
  simp only [hrun, hcount]
  rcases hmode : c.mode with _ | mode <;> rcases hns : c.ns with _ | ns
  case some.some => rfl
  all_goals rw [hpackage (by simp [needsNoMarker, hmode, hns])]

/-- A crate and one with other markers have one plan, if they have one path of the runtime crate. -/
theorem plan_of_editedMarkers (hplan : (c.plan env before).result = .ok p)
    (hroot : c.root env before = .ok root) (h : CrateEdited before after c.needsNoMarker root)
    (hedited : EditedApart before after [])
    (hruntime : c.runtime.getD (runtimePath env after) = c.runtime.getD (runtimePath env before)) :
    (c.plan env after).result = .ok p := by
  have hfile : after.isFile = before.isFile := funext hedited.isFile_eq
  have hroot' : c.root env after = .ok root := by
    rw [← hroot]
    simp only [Config.root, hfile]
  unfold Config.plan at hplan ⊢
  rw [hroot] at hplan
  rw [hroot']
  rcases hout : c.target env with e | outDir
  · rw [hout] at hplan
    cases hplan
  rw [hout] at hplan
  simp only at hplan ⊢
  rcases hfound : (scanCrate before root).findings with e | found
  · rw [hfound] at hplan
    cases hplan
  rw [hfound] at hplan
  obtain ⟨found', hfound', htagged, hpackage⟩ := h.exists_findings hedited hfound
  rw [hfound']
  exact (Config.planFor_congr htagged hpackage hruntime).trans hplan

end

end SanitizeGen
