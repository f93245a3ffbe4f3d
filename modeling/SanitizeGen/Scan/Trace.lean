import SanitizeGen.Error
import SanitizeGen.Log
import SanitizeGen.Mode

/-!
# Traces of a scan

A scan yields a `Trace`: what it came across, in order, and the error that ended it, if any. The
`Findings` and the log are read off the trace.
-/

namespace SanitizeGen

/-- An item that derives `PackageId`. -/
structure Marker where
  /-- The module of the item; generated files are for it. -/
  ns : Namespace
  mode : Mode
  /-- The name of the item. -/
  item : String
  file : FilePath
  deriving DecidableEq

/-- What a scan comes across. -/
inductive Event where
  /-- A file was read as the module `ns`. -/
  | opened (ns : Namespace) (file : FilePath)
  /-- An item was skipped since only tests have it. -/
  | testOnly (ns : Namespace) (file : FilePath)
  /-- A module was skipped since its items are in another file. -/
  | elsewhere (ns : Namespace)
  | marker (m : Marker)
  | tagged (t : Tagged)

/-- What a scan came across, and why it ended early, if it did. -/
structure Trace where
  events : List Event
  failure : Option Error

namespace Trace

/-- Nothing happens. -/
def nil : Trace := ⟨[], none⟩

/-- One thing happens. -/
def one (e : Event) : Trace := ⟨[e], none⟩

/-- The scan fails. -/
def fail (e : Error) : Trace := ⟨[], some e⟩

/-- First `t`, then `u`, unless `t` fails. -/
def andThen (t : Trace) (u : Unit → Trace) : Trace :=
  match t.failure with
  | some _ => t
  | none => ⟨t.events ++ (u ()).events, (u ()).failure⟩

variable {t : Trace} {u : Unit → Trace}

theorem andThen_of_ok (h : t.failure = none) :
    t.andThen u = ⟨t.events ++ (u ()).events, (u ()).failure⟩ := by
  rw [andThen, h]

theorem failure_andThen :
    (t.andThen u).failure = none ↔ t.failure = none ∧ (u ()).failure = none := by
  cases h : t.failure <;> simp [andThen, h]

theorem andThen_assoc (t : Trace) (u v : Unit → Trace) :
    (t.andThen u).andThen v = t.andThen fun _ => (u ()).andThen v := by
  cases ht : t.failure <;> simp only [andThen, ht]
  cases hu : (u ()).failure <;> simp only [hu, List.append_assoc]

theorem mem_of_mem_andThen {e : Event} (h : e ∈ (t.andThen u).events) :
    e ∈ t.events ∨ e ∈ (u ()).events := by
  rcases ht : t.failure with _ | err
  · rwa [andThen_of_ok ht, List.mem_append] at h
  · rw [andThen, ht] at h
    exact .inl h

theorem failure_of_andThen {err : Error} (h : (t.andThen u).failure = some err) :
    t.failure = some err ∨ (u ()).failure = some err := by
  rcases ht : t.failure with _ | err'
  · rw [andThen_of_ok ht] at h
    exact .inr h
  · rw [andThen, ht] at h
    exact .inl (ht.symm.trans h)

end Trace

/-- What a scan has found. -/
structure Findings where
  /-- In source order. -/
  markers : List Marker
  /-- In source order. -/
  tagged : List Tagged
  /-- Every file that was read. -/
  files : List FilePath

namespace Findings

/-- The marker that decides mode and namespace: the first one. -/
def package (f : Findings) : Option Marker := f.markers.head?

/-- What the events tell. -/
def ofEvents (es : List Event) : Findings where
  markers := es.filterMap fun
    | .marker m => some m
    | _ => none
  tagged := es.filterMap fun
    | .tagged t => some t
    | _ => none
  files := es.filterMap fun
    | .opened _ file => some file
    | _ => none

theorem mem_markers_ofEvents {es : List Event} {m : Marker} :
    m ∈ (ofEvents es).markers ↔ .marker m ∈ es := by
  simp only [ofEvents, List.mem_filterMap]
  constructor
  · rintro ⟨e, he, hm⟩
    cases e <;> cases hm
    exact he
  · exact fun h => ⟨_, h, rfl⟩

theorem mem_tagged_ofEvents {es : List Event} {t : Tagged} :
    t ∈ (ofEvents es).tagged ↔ .tagged t ∈ es := by
  simp only [ofEvents, List.mem_filterMap]
  constructor
  · rintro ⟨e, he, ht⟩
    cases e <;> cases ht
    exact he
  · exact fun h => ⟨_, h, rfl⟩

end Findings

/-- What a scan has found, or the error that ended it. -/
def Trace.findings (t : Trace) : Except Error Findings :=
  match t.failure with
  | some e => .error e
  | none => .ok (Findings.ofEvents t.events)

theorem Trace.findings_eq_ok {t : Trace} {f : Findings} :
    t.findings = .ok f ↔ t.failure = none ∧ Findings.ofEvents t.events = f := by
  cases h : t.failure <;> simp [findings, h]

/-- The record of an event. -/
def Event.record : Event → LogRecord
  | .opened ns file => ⟨.debug, "parsed module file", [("module", ns.text), ("file", file.text)]⟩
  | .testOnly ns file =>
    ⟨.debug, "skipping test-only item", [("module", ns.text), ("file", file.text)]⟩
  | .elsewhere ns => ⟨.debug, "skipping out-of-line module", [("module", ns.text)]⟩
  | .marker m =>
    ⟨.info, "found package marker",
      [("namespace", m.ns.text), ("mode", m.mode.name), ("item", m.item)]⟩
  | .tagged t => ⟨.debug, "found sanitize target", [("item", t.path), ("file", t.file.text)]⟩

end SanitizeGen
