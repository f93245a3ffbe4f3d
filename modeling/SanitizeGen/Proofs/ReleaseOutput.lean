import SanitizeGen.Proofs.PassRun
import SanitizeGen.Tag.Resolve

/-!
# Release files show nothing of fields

`Target.bare` drops the fields of a target. In release mode the file of some targets is the file of
their bare forms (`sanitizations_release_bare`), and the bare form of a struct's target is fixed by
the struct's module, name and generics (`bare_of_resolve`). So two crates whose structs differ in
their bodies only have the same release file (`run_release_eq_of_sameHead`).
-/

namespace SanitizeGen

namespace Target

/-- The target without its fields. -/
def bare (t : Target) : Target := { t with fields := [] }

variable (t : Target)

@[simp] theorem receiver_bare : t.bare.receiver = t.receiver := rfl

@[simp] theorem generics_bare : t.bare.generics = t.generics := rfl

end Target

namespace Template

variable (t : Target) (ts : List Target) (runtime : String)

theorem body_release_bare : body t.bare .release runtime = body t .release runtime := rfl

/-- A release implementation has the predicates of its struct and no bounds of fields. -/
theorem predicates_release : predicates t .release = t.generics.predicates := by
  simp [predicates, Mode.isDebug]

theorem function_release_bare :
    function t.bare .release runtime = function t .release runtime := by
  simp only [function, predicates_release, body_release_bare, Target.generics_bare,
    Target.receiver_bare]

theorem registrationLine_bare : registrationLine t.bare = registrationLine t := rfl

theorem registration_bare :
    registration (ts.map Target.bare) runtime = registration ts runtime := by
  have hl : (ts.map Target.bare).map registrationLine = ts.map registrationLine := by
    rw [List.map_map]
    exact List.map_congr_left fun t _ => registrationLine_bare t
  have hg : (ts.map Target.bare).all Target.isGeneric = ts.all Target.isGeneric := by
    rw [List.all_map]
    rfl
  unfold registration
  rw [hl, hg]

theorem sanitizations_release_bare :
    sanitizations (ts.map Target.bare) .release runtime = sanitizations ts .release runtime := by
  have hf : (ts.map Target.bare).map (fun t => "\n" ++ function t .release runtime) =
      ts.map fun t => "\n" ++ function t .release runtime := by
    rw [List.map_map]
    exact List.map_congr_left fun t _ => congrArg ("\n" ++ ·) (function_release_bare t runtime)
  unfold sanitizations
  rw [hf, registration_bare]

end Template

theorem Pass.artifact?_release_bare (ns : Namespace) (runtime : String) (ts : List Target) :
    artifact? ⟨.release, ns, runtime⟩ (ts.map Target.bare) =
      artifact? ⟨.release, ns, runtime⟩ ts := by
  simp only [artifact?, List.isEmpty_map, Template.sanitizations_release_bare]

namespace Tagged

/-- Two tagged items agree on everything but their bodies: module, name and generics. -/
structure SameHead (d e : Tagged) : Prop where
  ns : d.ns = e.ns
  name : d.item.name = e.item.name
  generics : d.item.generics = e.item.generics

variable {d e : Tagged} {t u : Target}

/-- Module, name and generics of a struct are all that its bare target holds. -/
theorem bare_of_resolve (h : d.resolve = .ok t) :
    t.bare = ⟨d.path, [], d.item.generics.target⟩ := by
  rcases hk : d.item.kind with fields | _ | _
  · rcases hf : Fields.targets d.item.generics.typeParams fields.labelled with err | fs
    · simp [resolve, hk, hf] at h
    · simp only [resolve, hk, hf, Except.ok.injEq] at h
      rw [← h]
      rfl
  · simp [resolve, hk] at h
  · simp [resolve, hk] at h

theorem SameHead.bare_eq (h : d.SameHead e) (ht : d.resolve = .ok t) (hu : e.resolve = .ok u) :
    t.bare = u.bare := by
  rw [bare_of_resolve ht, bare_of_resolve hu, path, path, h.ns, h.name, h.generics]

/-- Structs that agree but for their bodies have the same bare targets, position by position. -/
theorem SameHead.map_bare_eq {ds es : List Tagged} {ts us : List Target}
    (h : List.Forall₂ SameHead ds es) (ht : List.Forall₂ (fun d t => resolve d = .ok t) ds ts)
    (hu : List.Forall₂ (fun e u => resolve e = .ok u) es us) :
    ts.map Target.bare = us.map Target.bare := by
  induction h generalizing ts us with
  | nil =>
    cases ht
    cases hu
    rfl
  | cons hde _ ih =>
    obtain _ | ⟨htd, ht⟩ := ht
    obtain _ | ⟨hue, hu⟩ := hu
    rw [List.map_cons, List.map_cons, hde.bare_eq htd hue, ih ht hu]

end Tagged

/-- What the bodies of structs hold does not show in release mode: declarations that agree position
by position on module, name and generics, and that all resolve, have the same artifact. -/
theorem run_release_eq_of_sameHead (runtime : String) (ns : Namespace) {ds es : List Tagged}
    (h : List.Forall₂ Tagged.SameHead ds es) (hd : ∀ d ∈ ds, ∃ t, d.resolve = .ok t)
    (he : ∀ e ∈ es, ∃ t, e.resolve = .ok t) :
    ∃ a, Pass.run ⟨.release, ns, runtime⟩ Tagged.resolve ds = .ok a ∧
      Pass.run ⟨.release, ns, runtime⟩ Tagged.resolve es = .ok a := by
  obtain ⟨ts, hts⟩ := Pass.exists_forall₂_read hd
  obtain ⟨us, hus⟩ := Pass.exists_forall₂_read he
  have hbare := Tagged.SameHead.map_bare_eq h hts hus
  refine ⟨Pass.artifact? ⟨.release, ns, runtime⟩ ts, Pass.run_eq_ok.2 ⟨ts, hts, rfl⟩,
    Pass.run_eq_ok.2 ⟨us, hus, ?_⟩⟩
  rw [← Pass.artifact?_release_bare, ← hbare, Pass.artifact?_release_bare]

/-- `struct Key<T>` with a body of one's choice. -/
def keyWith (fields : Fields) : Tagged where
  ns := ⟨[⟨false, "vault", by decide, by decide⟩]⟩
  item := ⟨[], ⟨false, "Key", by decide, by decide⟩,
    { params := [⟨.type [] ⟨false, "T", by decide, by decide⟩ [], false⟩] }, .struct fields⟩
  file := ⟨"src/vault.rs"⟩

/-- `struct Key<T> { secret: T }` and `struct Key<T>;` have one release artifact. -/
theorem run_release_eq_named_unit : ∃ a,
    Pass.run ⟨.release, .root, "::mrclean"⟩ Tagged.resolve
      [keyWith (.named [(⟨false, "secret", by decide, by decide⟩,
        ⟨[], .path false [.bare ⟨false, "T", by decide, by decide⟩]⟩)])] = .ok a ∧
    Pass.run ⟨.release, .root, "::mrclean"⟩ Tagged.resolve [keyWith .unit] = .ok a :=
  run_release_eq_of_sameHead "::mrclean" .root (.cons ⟨rfl, rfl, rfl⟩ .nil)
    (fun _ hd => List.mem_singleton.1 hd ▸ ⟨_, rfl⟩)
    (fun _ hd => List.mem_singleton.1 hd ▸ ⟨_, rfl⟩)

end SanitizeGen
