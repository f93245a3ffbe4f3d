import Mathlib.Data.List.Lex
import Mathlib.Order.Nat
import SanitizeGen.Proofs.ModulePaths

/-!
# The order of a source

The structs, enums and unions of a text are ordered by where they stand: by the place of each module
around them among its neighbours, and then by their own. The scan of the text goes through those
that are not for tests alone in that order, each once (`scanAll_told`), so it finds the tagged ones
and the markers in that order, or fails at the first malformed marker (`findings_of_positions`).
-/

namespace SanitizeGen

/-- A place among nested items: that of each module on the way, then that of the item itself. They
are ordered like words. -/
abbrev Position := List Nat

/-- The struct, enum or union `d` stands at `pos` among `items`, inside the modules `names`. Neither
it nor any of the modules is for tests alone. -/
inductive StandsAt : List Item → Position → List Ident → DataItem → Prop where
  | here {items k d} : items[k]? = some (.data d) → isTestOnly d.attrs = false →
      StandsAt items [k] [] d
  | block {items k attrs name own pos names d} : items[k]? = some (.inlineModule attrs name own) →
      isTestOnly attrs = false → StandsAt own pos names d →
      StandsAt items (k :: pos) (name :: names) d

/-- The attribute is a list of traits to derive, and the last name of one of them is `trait`. -/
inductive Attribute.Derives (trait : String) (a : Attribute) : Prop where
  | intro {p d args names} {i : Ident} : a.content = .list p d args → p.isWord "derive" = true →
      Tokens.pathNames? args = some names → i ∈ names → i.text = trait → Derives trait a

/-- The struct, enum or union at `pos` derives `Sanitize`, and `t` is what is found of it. -/
def TaggedAt (ns : Namespace) (file : FilePath) (items : List Item) (pos : Position) (t : Tagged) :
    Prop :=
  ∃ names d, StandsAt items pos names d ∧ (∃ a ∈ d.attrs, a.Derives "Sanitize") ∧
    t = ⟨⟨ns.segments ++ names⟩, d, file⟩

/-- The struct, enum or union at `pos` derives `PackageId`, its flag is well formed, and `m` is what
is found of it. -/
def MarkedAt (ns : Namespace) (file : FilePath) (items : List Item) (pos : Position) (m : Marker) :
    Prop :=
  ∃ names d flag, StandsAt items pos names d ∧ (∃ a ∈ d.attrs, a.Derives "PackageId") ∧
    packageFlag d.attrs = .ok flag ∧
    m = ⟨⟨ns.segments ++ names⟩, Mode.ofFlag flag, d.name.text, file⟩

/-- The struct, enum or union `d` at `pos` derives `PackageId`, and its flag is malformed. -/
def MalformedAt (items : List Item) (pos : Position) (names : List Ident) (d : DataItem)
    (e : FlagError) : Prop :=
  StandsAt items pos names d ∧ (∃ a ∈ d.attrs, a.Derives "PackageId") ∧
    packageFlag d.attrs = .error e

/-- The list `xs` holds what is at any position by `P`, in the order of the positions and each of
them once. -/
def InSourceOrder {α : Type} (P : Position → α → Prop) (xs : List α) : Prop :=
  ∃ placed : List (Position × α), (placed.map Prod.fst).Pairwise (· < ·) ∧
    (∀ pos x, (pos, x) ∈ placed ↔ P pos x) ∧ placed.map Prod.snd = xs

theorem derives_iff {attrs : List Attribute} {trait : String} :
    derives attrs trait = true ↔ ∃ a ∈ attrs, a.Derives trait := by
  rw [derives, List.contains_iff_mem, derivedNames, List.mem_flatMap]
  refine exists_congr fun a => and_congr_right fun _ => ?_
  rw [Attribute.derivedNames]
  constructor
  · intro h
    split at h
    · rename_i hname
      split at h
      · rename_i p d args hcontent
        obtain ⟨i, hi, htext⟩ := List.mem_map.1 h
        rcases hnames : Tokens.pathNames? args with _ | names
        · rw [hnames] at hi
          cases hi
        · rw [hnames] at hi
          rw [Attribute.isNamed, hcontent] at hname
          exact .intro hcontent hname hnames hi htext
      · cases h
    · cases h
  · rintro ⟨hcontent, hname, hnames, hi, htext⟩
    rw [Attribute.isNamed, hcontent, Meta.name, if_pos hname]
    refine List.mem_map.2 ⟨_, ?_, htext⟩
    rwa [hnames]

/-! ### Items and where they stand -/

/-- A struct, an enum or a union, where it stands, and the modules around it. -/
structure Standing where
  pos : Position
  names : List Ident
  item : DataItem

/-- What stands in a module is in the module `name`, the `k`-th of its items, for those around. -/
def Standing.under (k : Nat) (name : Ident) (s : Standing) : Standing :=
  ⟨k :: s.pos, name :: s.names, s.item⟩

mutual

/-- The structs, enums and unions of the item at `k` that are not for tests alone. -/
def Item.standings (k : Nat) : Item → List Standing
  | .data d => if isTestOnly d.attrs then [] else [⟨[k], [], d⟩]
  | .inlineModule attrs name own =>
    if isTestOnly attrs then [] else (Item.standingsFrom 0 own).map (Standing.under k name)
  | .fileModule _ _ => []
  | .other => []

/-- The structs, enums and unions of items from the place `k` on. -/
def Item.standingsFrom (k : Nat) : List Item → List Standing
  | [] => []
  | i :: is => Item.standings k i ++ Item.standingsFrom (k + 1) is

end

section

variable {k : Nat} {i : Item} {items : List Item} {s : Standing}

theorem mem_standingsFrom :
    s ∈ Item.standingsFrom k items ↔ ∃ j i, items[j]? = some i ∧ s ∈ Item.standings (k + j) i := by
  induction items generalizing k with
  | nil => simp [Item.standingsFrom]
  | cons i items ih =>
    rw [Item.standingsFrom, List.mem_append, ih]
    constructor
    · rintro (h | ⟨j, i', hj, h⟩)
      · exact ⟨0, i, rfl, h⟩
      · exact ⟨j + 1, i', hj, by rwa [show k + (j + 1) = k + 1 + j by omega]⟩
    · rintro ⟨j | j, i', hj, h⟩
      · obtain rfl := Option.some.inj hj
        exact .inl h
      · exact .inr ⟨j, i', hj, by rwa [show k + 1 + j = k + (j + 1) by omega]⟩

theorem standsAt_of_mem (i : Item) (hi : items[k]? = some i) (h : s ∈ Item.standings k i) :
    StandsAt items s.pos s.names s.item := by
  induction i using Item.induction generalizing items k s with
  | data d =>
    rw [Item.standings] at h
    split at h
    · cases h
    · rename_i hlive
      obtain rfl := List.mem_singleton.1 h
      exact .here hi (by simpa using hlive)
  | inlineModule attrs name own ih =>
    rw [Item.standings] at h
    split at h
    · cases h
    · rename_i hlive
      obtain ⟨s, hs, rfl⟩ := List.mem_map.1 h
      obtain ⟨j, i, hj, hs⟩ := mem_standingsFrom.1 hs
      exact .block hi (by simpa using hlive) (ih i (List.mem_of_getElem? hj) hj (by simpa using hs))
  | fileModule attrs name => cases h
  | other => cases h

theorem mem_standings_of_standsAt {pos : Position} {names : List Ident} {d : DataItem}
    (h : StandsAt items pos names d) :
    ∃ k i, items[k]? = some i ∧ ⟨pos, names, d⟩ ∈ Item.standings k i := by
  induction h with
  | @here items k d hk hlive =>
    exact ⟨k, _, hk, by simp [Item.standings, hlive]⟩
  | @block items k attrs name own pos names d hk hlive _ ih =>
    obtain ⟨j, i, hj, hs⟩ := ih
    refine ⟨k, _, hk, ?_⟩
    rw [Item.standings, if_neg (by simp [hlive])]
    exact List.mem_map.2 ⟨_, mem_standingsFrom.2 ⟨j, i, hj, by simpa using hs⟩, rfl⟩

theorem standsAt_iff {pos : Position} {names : List Ident} {d : DataItem} :
    StandsAt items pos names d ↔ ⟨pos, names, d⟩ ∈ Item.standingsFrom 0 items := by
  rw [mem_standingsFrom]
  constructor
  · intro h
    simpa using mem_standings_of_standsAt h
  · rintro ⟨j, i, hj, h⟩
    exact standsAt_of_mem i hj (by simpa using h)

theorem exists_pos_of_mem (h : s ∈ Item.standings k i) : ∃ pos, s.pos = k :: pos := by
  cases i with
  | data d =>
    rw [Item.standings] at h
    split at h
    · cases h
    · obtain rfl := List.mem_singleton.1 h
      exact ⟨[], rfl⟩
  | inlineModule attrs name own =>
    rw [Item.standings] at h
    split at h
    · cases h
    · obtain ⟨s, -, rfl⟩ := List.mem_map.1 h
      exact ⟨s.pos, rfl⟩
  | fileModule attrs name => cases h
  | other => cases h

/-- Items are met in the order of their positions if those in each module are. -/
theorem pairwise_standingsFrom_of_forall
    (h : ∀ i ∈ items, ∀ k, (Item.standings k i).Pairwise fun s s' => s.pos < s'.pos) (k : Nat) :
    (Item.standingsFrom k items).Pairwise fun s s' => s.pos < s'.pos := by
  induction items generalizing k with
  | nil => exact .nil
  | cons i items ih =>
    obtain ⟨hi, hitems⟩ := List.forall_mem_cons.1 h
    rw [Item.standingsFrom, List.pairwise_append]
    refine ⟨hi k, ih hitems (k + 1), fun s hs s' hs' => ?_⟩
    obtain ⟨j, i', -, hs'⟩ := mem_standingsFrom.1 hs'
    obtain ⟨pos, hpos⟩ := exists_pos_of_mem hs
    obtain ⟨pos', hpos'⟩ := exists_pos_of_mem hs'
    -- the first numbers differ already, so what the two have below them does not count
    rw [hpos, hpos', List.cons_lt_cons_iff]
    exact .inl (by omega)

theorem pairwise_standings (i : Item) (k : Nat) :
    (Item.standings k i).Pairwise fun s s' => s.pos < s'.pos := by
  induction i using Item.induction generalizing k with
  | data d =>
    rw [Item.standings]
    split
    · exact .nil
    · exact List.pairwise_singleton _ _
  | inlineModule attrs name own ih =>
    rw [Item.standings]
    split
    · exact .nil
    · refine List.pairwise_map.2 ((pairwise_standingsFrom_of_forall ih 0).imp fun h => ?_)
      exact List.cons_lt_cons_iff.2 (.inr ⟨rfl, h⟩)
  | fileModule attrs name => exact .nil
  | other => exact .nil

theorem pairwise_standingsFrom (items : List Item) (k : Nat) :
    (Item.standingsFrom k items).Pairwise fun s s' => s.pos < s'.pos :=
  pairwise_standingsFrom_of_forall (fun i _ => pairwise_standings i) k

/-- What is made of each item by itself is in the order of the source. -/
theorem inSourceOrder_filterMap {α : Type} {P : Position → α → Prop} (f : Standing → Option α)
    (hP : ∀ pos x, P pos x ↔ ∃ names d, StandsAt items pos names d ∧ f ⟨pos, names, d⟩ = some x) :
    InSourceOrder P ((Item.standingsFrom 0 items).filterMap f) := by
  refine ⟨(Item.standingsFrom 0 items).filterMap fun s => (f s).map (s.pos, ·), ?_, fun pos x => ?_,
    ?_⟩
  · rw [List.map_filterMap, List.pairwise_filterMap]
    refine (pairwise_standingsFrom items 0).imp fun {s s'} h pos hpos pos' hpos' => ?_
    obtain ⟨x, -, rfl⟩ := by simpa using hpos
    obtain ⟨x', -, rfl⟩ := by simpa using hpos'
    exact h
  · rw [hP, List.mem_filterMap]
    constructor
    · rintro ⟨s, hs, hf⟩
      obtain ⟨x, hx, heq⟩ := Option.map_eq_some_iff.1 hf
      obtain ⟨rfl, rfl⟩ := by simpa using heq
      exact ⟨s.names, s.item, standsAt_iff.2 hs, hx⟩
    · rintro ⟨names, d, hd, hf⟩
      exact ⟨_, standsAt_iff.1 hd, by rw [hf]; rfl⟩
  · rw [List.map_filterMap]
    congr 1
    funext s
    cases f s <;> rfl

end

/-! ### What the scan tells -/

namespace Trace

/-- The trace without all that is no finding. -/
def told (t : Trace) : Trace := ⟨t.events.filter Event.isFinding, t.failure⟩

theorem told_andThen (t : Trace) (u : Unit → Trace) :
    (t.andThen u).told = t.told.andThen fun _ => (u ()).told := by
  rcases ht : t.failure with _ | err
  · rw [andThen_of_ok ht, andThen_of_ok (t := t.told) ht, told, List.filter_append]
    rfl
  · rw [andThen, andThen, ht, told, ht]

theorem andThen_nil (t : Trace) : (t.andThen fun _ => nil) = t := by
  rcases h : t.failure with _ | err
  · rw [andThen_of_ok h, nil, List.append_nil, ← h]
  · rw [andThen, h]

/-- One thing after the other, up to the first failure. -/
def inTurn {α : Type} (f : α → Trace) : List α → Trace
  | [] => nil
  | a :: as => (f a).andThen fun _ => inTurn f as

section

variable {α β : Type} {f : α → Trace} {as bs : List α} {a : α} {err : Error}

theorem inTurn_append :
    inTurn f (as ++ bs) = (inTurn f as).andThen fun _ => inTurn f bs := by
  induction as with
  | nil => rfl
  | cons a as ih => rw [List.cons_append, inTurn, inTurn, ih, andThen_assoc]

theorem inTurn_map (g : β → α) (bs : List β) : inTurn f (bs.map g) = inTurn (f ∘ g) bs := by
  induction bs with
  | nil => rfl
  | cons b bs ih => rw [List.map_cons, inTurn, inTurn, ih]; rfl

theorem inTurn_of_ok (h : ∀ a ∈ as, (f a).failure = none) :
    inTurn f as = ⟨as.flatMap fun a => (f a).events, none⟩ := by
  induction as with
  | nil => rfl
  | cons a as ih =>
    obtain ⟨ha, has⟩ := List.forall_mem_cons.1 h
    rw [inTurn, andThen_of_ok ha, ih has]
    rfl

theorem failure_inTurn (h : ∀ a ∈ as, (f a).failure = none) (ha : (f a).failure = some err) :
    (inTurn f (as ++ a :: bs)).failure = some err := by
  rw [inTurn_append, inTurn_of_ok h, andThen_of_ok rfl, inTurn, andThen, ha]
  exact ha

end

end Trace

/-- What is found of an item by itself. -/
def Standing.scan (ns : Namespace) (file : FilePath) (s : Standing) : Trace :=
  s.item.scan ⟨⟨ns.segments ++ s.names⟩, file.directory, file, false⟩

namespace DataItem

variable {d : DataItem} {p q : Place}

theorem scan_congr (hns : q.ns = p.ns) (hfile : q.file = p.file) : d.scan q = d.scan p := by
  simp only [scan, scanMarker, scanTag, hns, hfile]

theorem told_scan (d : DataItem) (p : Place) : (d.scan p).told = d.scan p := by
  have h : (d.scan p).events.filter Event.isFinding = (d.scan p).events :=
    List.filter_eq_self.2 fun e he => by cases shows_of_mem he <;> rfl
  rw [Trace.told, h]

/-- The marker that is found of an item. -/
def marker? (d : DataItem) (p : Place) : Option Marker :=
  if derives d.attrs "PackageId" then
    match packageFlag d.attrs with
    | .ok flag => some ⟨p.ns, Mode.ofFlag flag, d.name.text, p.file⟩
    | .error _ => none
  else none

def tagged? (d : DataItem) (p : Place) : Option Tagged :=
  if derives d.attrs "Sanitize" then some ⟨p.ns, d, p.file⟩ else none

theorem findings_scan (hok : (d.scan p).failure = none) :
    (Findings.ofEvents (d.scan p).events).markers = (d.marker? p).toList ∧
      (Findings.ofEvents (d.scan p).events).tagged = (d.tagged? p).toList := by
  obtain ⟨hmarker, -⟩ := Trace.failure_andThen.1 hok
  rw [scan, Trace.andThen_of_ok hmarker, scanMarker, scanTag, marker?, tagged?]
  cases derives d.attrs "PackageId" <;> cases derives d.attrs "Sanitize" <;>
    cases packageFlag d.attrs <;> exact ⟨rfl, rfl⟩

end DataItem

section

variable {ns : Namespace} {file : FilePath} {p : Place} {items : List Item}

theorem told_scanAll_of_forall {k : Nat}
    (h : ∀ i ∈ items, ∀ k, (Item.scan leaveFiles p i).told =
      Trace.inTurn (Standing.scan p.ns p.file) (Item.standings k i)) :
    (Item.scanAll leaveFiles p items).told =
      Trace.inTurn (Standing.scan p.ns p.file) (Item.standingsFrom k items) := by
  induction items generalizing k with
  | nil => rfl
  | cons i items ih =>
    obtain ⟨hi, hitems⟩ := List.forall_mem_cons.1 h
    rw [Item.scanAll, Trace.told_andThen, hi k, ih hitems, Item.standingsFrom, Trace.inTurn_append]

theorem told_scan (i : Item) (k : Nat) : (Item.scan leaveFiles p i).told =
    Trace.inTurn (Standing.scan p.ns p.file) (Item.standings k i) := by
  induction i using Item.induction generalizing p k with
  | data d =>
    rw [Item.scan, Item.standings]
    split
    · rfl
    · rw [DataItem.told_scan, Trace.inTurn, Trace.inTurn, Trace.andThen_nil]
      exact DataItem.scan_congr (by simp) rfl
  | inlineModule attrs name own ih =>
    rw [Item.scan, Item.standings]
    split
    · rfl
    · rw [told_scanAll_of_forall (k := 0) fun i hi k => ih i hi k, Trace.inTurn_map]
      congr 1
      funext s
      refine DataItem.scan_congr ?_ rfl
      simp [Standing.under, Place.inside, Namespace.child]
  | fileModule attrs name =>
    rw [Item.scan]
    split <;> rfl
  | other => rfl

/-- The scan of items tells of the structs, enums and unions among them in the order of the
source. -/
theorem told_scanAll (p : Place) (items : List Item) : (Item.scanAll leaveFiles p items).told =
    Trace.inTurn (Standing.scan p.ns p.file) (Item.standingsFrom 0 items) :=
  told_scanAll_of_forall fun i _ k => told_scan i k

end

/-! ### What the scan finds -/

namespace Rules

/-- The words in front of what a scan looks at, behind its attributes and its visibility. -/
def StartsScanned (g : Rules) (ts : Tokens) : Prop :=
  ∃ attrs vis s s', g.outerAttrs.run ts = some (attrs, s) ∧ visibility.run s = some (vis, s') ∧
    (s'.startsWordIn ["struct", "enum", "union", "mod"] = true ∨
      s'.startsWord "unsafe" = true ∧ (s'.skip 1).startsWord "mod" = true)

/-- Unless `C` holds, whatever `p` reads is no item that a scan looks at. -/
def PassesUnless (C : Prop) (p : Reader Item) : Prop :=
  ∀ ts i r, p.run ts = some (i, r) → i = .other ∨ C

namespace PassesUnless

variable {C : Prop} {p q : Reader Item}

theorem of_holds (h : C) : PassesUnless C p := fun _ _ _ _ => .inr h

theorem other (p : Reader Unit) : PassesUnless C (do p; return .other) := by
  intro ts i r h
  obtain ⟨_, _, -, h⟩ := Reader.run_bind_eq_some.1 h
  cases h
  exact .inl rfl

theorem ite {b : Bool} (hp : b = true → PassesUnless C p) (hq : ¬b = true → PassesUnless C q) :
    PassesUnless C (if b then p else q) := by
  split
  · exact hp ‹_›
  · exact hq ‹_›

theorem check {b : Bool} (hp : b = true → PassesUnless C p) :
    PassesUnless C (do Reader.check b; p) := by
  intro ts i r h
  obtain ⟨_, s, hb, h⟩ := Reader.run_bind_eq_some.1 h
  cases b
  · cases hb
  · exact hp rfl _ _ _ h

end PassesUnless

theorem startsScanned_of_itemRule {g : Rules} {ts r : Tokens} {i : Item}
    (h : g.itemRule.run ts = some (i, r)) : i = .other ∨ g.StartsScanned ts := by
  obtain ⟨attrs, s, hattrs, h⟩ := Reader.run_bind_eq_some.1 h
  obtain ⟨vis, s', hvis, h⟩ := Reader.run_bind_eq_some.1 h
  obtain ⟨_, _, hs, h⟩ := Reader.run_bind_eq_some.1 h
  cases hs
  refine Or.imp_right (fun h => ⟨attrs, vis, s, s', hattrs, hvis, h⟩)
    (PassesUnless.ite (fun _ => .other _) (fun _ => ?_) _ _ _ h)
  -- the branches in the order of the rule: only a module, behind its mark or not, and a struct, an
  -- enum or a union are anything else than `other`
  iterate 4 refine .ite (fun _ => .other _) fun _ => ?_
  refine .ite (fun hmark => ?_) fun _ => .ite (fun hmod => ?_) fun _ => ?_
  · iterate 3 refine .ite (fun _ => .other _) fun _ => ?_
    exact .check fun hmod => .of_holds (.inr ⟨hmark, hmod⟩)
  · exact .of_holds (.inl (by simp [Tokens.startsWordIn, hmod]))
  · refine .ite (fun _ => .other _) fun _ => .ite (fun hdata => ?_) fun _ => ?_
    · refine .of_holds (.inl ?_)
      simp only [Tokens.startsWordIn, List.any_cons, List.any_nil, Bool.or_false, Bool.or_eq_true,
        Bool.and_eq_true] at hdata ⊢
      tauto
    · iterate 3 refine .ite (fun _ => .other _) fun _ => ?_
      exact .check fun _ => .other _

end Rules

theorem SourceScan.findings_told (t : Trace) (file : FilePath) :
    findings ⟨t.told, file⟩ = findings ⟨t, file⟩ := by
  have htold (es : List Event) : { Findings.ofEvents (es.filter Event.isFinding) with
      files := [file] } = { Findings.ofEvents es with files := [file] } := by
    simp only [Findings.ofEvents, List.filterMap_filter]
    congr <;> funext e <;> cases e <;> rfl
  rw [findings, findings, Trace.findings, Trace.findings, Trace.told]
  cases t.failure
  · exact congrArg Except.ok (htold t.events)
  · rfl

theorem SourceScan.findings_ofItems (items : List Item) (ns : Namespace) (file : FilePath) :
    (ofItems items ns file).findings =
      findings ⟨.inTurn (Standing.scan ns file) (Item.standingsFrom 0 items), file⟩ := by
  rw [ofItems, ← findings_told, told_scanAll]

theorem Findings.ofEvents_flatMap {α : Type} {f : α → List Event} {marker? : α → Option Marker}
    {tagged? : α → Option Tagged} {as : List α}
    (h : ∀ a ∈ as, (ofEvents (f a)).markers = (marker? a).toList ∧
      (ofEvents (f a)).tagged = (tagged? a).toList) :
    (ofEvents (as.flatMap f)).markers = as.filterMap marker? ∧
      (ofEvents (as.flatMap f)).tagged = as.filterMap tagged? := by
  rw [List.filterMap_eq_flatMap_toList, List.filterMap_eq_flatMap_toList]
  exact ⟨List.filterMap_flatMap.trans (List.flatMap_congr fun a ha => (h a ha).1),
    List.filterMap_flatMap.trans (List.flatMap_congr fun a ha => (h a ha).2)⟩

section

variable {ns : Namespace} {file : FilePath} {items : List Item} {s : Standing}

theorem MalformedAt.failure_scan {pos : Position} {names : List Ident} {d : DataItem}
    {e : FlagError} (h : MalformedAt items pos names d e) :
    (Standing.scan ns file ⟨pos, names, d⟩).failure =
      some (.invalidMarker (Namespace.qualify ⟨ns.segments ++ names⟩ d.name.text) file e) :=
  DataItem.failure_scan_eq_some.2 ⟨derives_iff.2 h.2.1, e, h.2.2, rfl⟩

theorem exists_malformedAt {err : Error} (hs : s ∈ Item.standingsFrom 0 items)
    (h : (s.scan ns file).failure = some err) : ∃ e, MalformedAt items s.pos s.names s.item e := by
  obtain ⟨hd, e, he, -⟩ := DataItem.failure_scan_eq_some.1 h
  exact ⟨e, standsAt_iff.2 hs, derives_iff.1 hd, he⟩

/-- If no marker is malformed, the scan finds what is found of each item by itself. -/
theorem findings_of_forall_ok
    (h : ∀ s ∈ Item.standingsFrom 0 items, (s.scan ns file).failure = none) :
    ∃ found, (SourceScan.ofItems items ns file).findings = .ok found ∧
      InSourceOrder (TaggedAt ns file items) found.tagged ∧
      InSourceOrder (MarkedAt ns file items) found.markers ∧ found.files = [file] := by
  have hfindings := Findings.ofEvents_flatMap fun s hs => DataItem.findings_scan (h s hs)
  rw [SourceScan.findings_ofItems, Trace.inTurn_of_ok h]
  refine ⟨_, SourceScan.findings_eq_ok.2 ⟨rfl, rfl⟩, ?_, ?_, rfl⟩
  · refine hfindings.2 ▸ inSourceOrder_filterMap _ fun pos t => ?_
    refine exists_congr fun names => exists_congr fun d => and_congr_right fun _ => ?_
    rw [DataItem.tagged?, ← derives_iff]
    cases derives d.attrs "Sanitize" <;> simp [eq_comm]
  · refine hfindings.1 ▸ inSourceOrder_filterMap _ fun pos m => ?_
    refine exists_congr fun names => exists_congr fun d => ?_
    rw [exists_and_left, DataItem.marker?, ← derives_iff]
    refine and_congr_right fun _ => ?_
    cases derives d.attrs "PackageId" <;> cases packageFlag d.attrs <;> simp [eq_comm]

theorem findings_of_malformedAt {err : Error} (hs : s ∈ Item.standingsFrom 0 items)
    (h : (s.scan ns file).failure = some err) :
    ∃ pos names d e, MalformedAt items pos names d e ∧
      (∀ pos' names' d' e', MalformedAt items pos' names' d' e' → pos ≤ pos') ∧
      (SourceScan.ofItems items ns file).findings =
        .error (.invalidMarker (Namespace.qualify ⟨ns.segments ++ names⟩ d.name.text) file e) := by
  -- `s` need not be the first one that fails
  obtain ⟨s, hfind⟩ := Option.isSome_iff_exists.1 ((List.find?_isSome
    (p := fun s : Standing => (s.scan ns file).failure.isSome)).2 ⟨s, hs, by rw [h]; rfl⟩)
  obtain ⟨hs, before, after, hitems, hbefore⟩ := List.find?_eq_some_iff_append.1 hfind
  obtain ⟨err, herr⟩ := Option.isSome_iff_exists.1 hs
  have hok : ∀ s' ∈ before, (s'.scan ns file).failure = none := fun s' hs' => by
    simpa using hbefore s' hs'
  obtain ⟨e, he⟩ := exists_malformedAt (hitems ▸ List.mem_append_right _ List.mem_cons_self) herr
  refine ⟨s.pos, s.names, s.item, e, he, fun pos' names' d' e' h' => ?_, ?_⟩
  · have hpairs := pairwise_standingsFrom items 0
    have hmem := standsAt_iff.1 h'.1
    rw [hitems] at hpairs hmem
    rcases List.mem_append.1 hmem with hmem | hmem
    · cases (hok _ hmem).symm.trans h'.failure_scan
    · rcases List.mem_cons.1 hmem with rfl | hmem
      · exact le_refl _
      · exact le_of_lt ((List.pairwise_cons.1 (List.pairwise_append.1 hpairs).2.1).1 _ hmem)
  · rw [SourceScan.findings_ofItems, hitems, SourceScan.findings, Trace.findings,
      Trace.failure_inTurn hok he.failure_scan]
    rfl

end

/-- A scan of one text finds the tagged items and the markers in the order of the source, or fails
at the first malformed marker. Of the text, only what follows the words for structs, enums, unions
and modules is looked at. -/
theorem findings_of_positions (items : List Item) (ns : Namespace) (file : FilePath) :
    ((∀ pos names d e, ¬MalformedAt items pos names d e) →
      ∃ found, (SourceScan.ofItems items ns file).findings = .ok found ∧
        InSourceOrder (TaggedAt ns file items) found.tagged ∧
        InSourceOrder (MarkedAt ns file items) found.markers ∧ found.files = [file]) ∧
    ((∃ pos names d e, MalformedAt items pos names d e) →
      ∃ pos names d e, MalformedAt items pos names d e ∧
        (∀ pos' names' d' e', MalformedAt items pos' names' d' e' → pos ≤ pos') ∧
        (SourceScan.ofItems items ns file).findings =
          .error (.invalidMarker (Namespace.qualify ⟨ns.segments ++ names⟩ d.name.text) file e)) ∧
    (∀ text attrs, SourceFile.ofText? text.toList = some ⟨attrs, items⟩ →
      SourceScan.ofText text ns file = SourceScan.ofItems items ns file) ∧
    ∀ (g : Rules) ts i r, g.itemRule.run ts = some (i, r) → i = .other ∨ g.StartsScanned ts := by
  refine ⟨fun h => ?_, fun h => ?_, fun text attrs h => ?_, fun g ts i r h => ?_⟩
  · refine findings_of_forall_ok fun s hs => ?_
    rcases herr : (s.scan ns file).failure with _ | err
    · rfl
    · obtain ⟨e, he⟩ := exists_malformedAt hs herr
      exact absurd he (h _ _ _ _)
  · obtain ⟨pos, names, d, e, h⟩ := h
    exact findings_of_malformedAt (standsAt_iff.1 h.1) h.failure_scan
  · rw [SourceScan.ofText, h]
  · exact Rules.startsScanned_of_itemRule h

/-- A text with two tagged structs, the second one in a module and a marker too. -/
def pairText : String :=
  "#[derive(Sanitize)] struct Key; mod inner \x7b #[derive(PackageId, mrclean::Sanitize)] " ++
  "#[package_id(debug = true)] struct Pair; \x7d #[cfg(test)] #[derive(Sanitize)] struct Off; " ++
  "fn run() \x7b #[derive(Sanitize)] struct Local; \x7d"

/-- A text with two malformed markers, the first one in a module. -/
def markerText : String :=
  "#[derive(Sanitize)] struct Key; mod inner \x7b #[derive(PackageId)] struct First; \x7d " ++
  "#[derive(PackageId)] struct Second;"

/-- The structs of `pairText` are found in order, and the marker of `markerText` that comes first is
told of. -/
theorem findings_of_positions_texts : ∃ pair marked : SourceFile,
    SourceFile.ofText? pairText.toList = some pair ∧
    SourceFile.ofText? markerText.toList = some marked ∧
    (∃ found, (SourceScan.ofText pairText .root ⟨"src/lib.rs"⟩).findings = .ok found ∧
      InSourceOrder (TaggedAt .root ⟨"src/lib.rs"⟩ pair.items) found.tagged ∧
      InSourceOrder (MarkedAt .root ⟨"src/lib.rs"⟩ pair.items) found.markers ∧
      found.tagged.map Tagged.path = ["Key", "inner::Pair"] ∧
      found.markers.map Marker.item = ["Pair"]) ∧
    ∃ pos names d e, MalformedAt marked.items pos names d e ∧
      (∀ pos' names' d' e', MalformedAt marked.items pos' names' d' e' → pos ≤ pos') ∧
      Namespace.qualify ⟨names⟩ d.name.text = "inner::First" := by
  have hpair : ((SourceFile.ofText? pairText.toList).any fun source =>
      (SourceScan.ofItems source.items .root ⟨"src/lib.rs"⟩).findings.toOption.any fun found =>
        found.tagged.map Tagged.path == ["Key", "inner::Pair"] &&
          found.markers.map Marker.item == ["Pair"]) = true := by decide +kernel
  have hmarked : ((SourceFile.ofText? markerText.toList).any fun source =>
      match (SourceScan.ofItems source.items .root ⟨"src/lib.rs"⟩).findings with
      | .error (.invalidMarker item _ _) => item == "inner::First"
      | _ => false) = true := by decide +kernel
  obtain ⟨pair, hp, hpair⟩ := (Option.any_eq_true _ _).1 hpair
  obtain ⟨marked, hm, hmarked⟩ := (Option.any_eq_true _ _).1 hmarked
  have hbad : ∃ pos names d e, MalformedAt marked.items pos names d e := by
    by_contra hnone
    obtain ⟨found, hfound, -⟩ := (findings_of_positions marked.items .root ⟨"src/lib.rs"⟩).1
      fun pos names d e h => hnone ⟨pos, names, d, e, h⟩
    rw [hfound] at hmarked
    cases hmarked
  obtain ⟨hok, herror, htext, -⟩ := findings_of_positions pair.items .root ⟨"src/lib.rs"⟩
  have hgood : ∀ pos names d e, ¬MalformedAt pair.items pos names d e := by
    intro pos names d e h
    obtain ⟨_, _, _, _, -, -, hfail⟩ := herror ⟨pos, names, d, e, h⟩
    rw [hfail] at hpair
    cases hpair
  obtain ⟨found, hfound, htagged, hmarkers, -⟩ := hok hgood
  obtain ⟨pos, names, d, e, hmalformed, hfirst, hfail⟩ :=
    (findings_of_positions marked.items .root ⟨"src/lib.rs"⟩).2.1 hbad
  rw [hfound] at hpair
  rw [hfail] at hmarked
  obtain ⟨hpaths, hitems⟩ := by
    simpa only [Except.toOption, Option.any_some, Bool.and_eq_true, beq_iff_eq] using hpair
  exact ⟨pair, marked, hp, hm,
    ⟨found, (htext pairText pair.attrs hp).symm ▸ hfound, htagged, hmarkers, hpaths, hitems⟩,
    pos, names, d, e, hmalformed, hfirst, beq_iff_eq.1 hmarked⟩

end SanitizeGen
