import SanitizeGen.Build.Generate
import SanitizeGen.Proofs.PassRun

/-!
# Where plans come from

A plan is made of what the scan of the sources has found (`Config.exists_of_plan`). `generate`
installs it, and without one it leaves the tree as it is (`generate_of_plan`,
`generate_of_no_plan`).
-/

namespace SanitizeGen

section

variable {α β ε ε' : Type}

theorem exists_of_bind {x : Except ε α} {f : α → Except ε β} {b : β} (h : x >>= f = .ok b) :
    ∃ a, x = .ok a ∧ f a = .ok b := by
  cases x with
  | error e => cases h
  | ok a => exact ⟨a, rfl, h⟩

theorem error_of_bind {x : Except ε α} {f : α → Except ε β} {e : ε} (h : x >>= f = .error e) :
    x = .error e ∨ ∃ a, x = .ok a ∧ f a = .error e := by
  cases x with
  | error e' => exact .inl (congrArg Except.error (Except.error.inj h))
  | ok a => exact .inr ⟨a, rfl, h⟩

theorem ok_of_mapError {x : Except ε α} {f : ε → ε'} {a : α} (h : x.mapError f = .ok a) :
    x = .ok a := by
  cases x with
  | error e => cases h
  | ok a => exact congrArg Except.ok (Except.ok.inj h)

theorem exists_of_mapError {x : Except ε α} {f : ε → ε'} {e : ε'} (h : x.mapError f = .error e) :
    ∃ e', x = .error e' ∧ f e' = e := by
  cases x with
  | error e' => exact ⟨e', rfl, Except.error.inj h⟩
  | ok a => cases h

end

variable {c : Config} {env : Environment} {tree : FileTree} {p : Plan}

namespace Config

/-- The mode, the namespace and the functions are settled one after the other. -/
theorem planFor_eq (c : Config) (env : Environment) (tree : FileTree) (outDir : FilePath)
    (found : Findings) : c.planFor env tree outDir found =
      (match c.mode, found.package with
        | some m, _ => Except.ok m
        | none, some marker => .ok marker.mode
        | none, none => .error (.missingConfig .mode)) >>= fun mode =>
      (match c.ns, found.package with
        | some text, _ => (Namespace.parse text).mapError .invalidNamespace
        | none, some marker => .ok marker.ns
        | none, none => .error (.missingConfig .package)) >>= fun ns =>
      (Pass.run ⟨mode, ns, c.runtime.getD (runtimePath env tree)⟩ Tagged.resolve
        found.tagged).mapError .resolve >>= fun artifact =>
      .ok ⟨mode, ns, outDir, artifact, found.tagged.length⟩ := by
  unfold planFor
  rcases c.mode with _ | mode <;> rcases found.package with _ | marker <;>
    rcases c.ns with _ | text <;> rfl

/-- A plan has the targets of all tagged items, in their order. -/
theorem exists_of_planFor {outDir : FilePath} {found : Findings}
    (h : c.planFor env tree outDir found = .ok p) : ∃ ts,
      List.Forall₂ (fun d t => d.resolve = .ok t) found.tagged ts ∧ p.outDir = outDir ∧
      p.artifact = Pass.artifact? ⟨p.mode, p.ns, c.runtime.getD (runtimePath env tree)⟩ ts ∧
      p.count = found.tagged.length := by
  rw [planFor_eq] at h
  obtain ⟨mode, -, h⟩ := exists_of_bind h
  obtain ⟨ns, -, h⟩ := exists_of_bind h
  obtain ⟨artifact, ha, h⟩ := exists_of_bind h
  obtain rfl := Except.ok.inj h
  obtain ⟨ts, hts, rfl⟩ := Pass.run_eq_ok.1 (ok_of_mapError ha)
  exact ⟨ts, hts, rfl, rfl, rfl⟩

theorem exists_of_plan (h : (c.plan env tree).result = .ok p) : ∃ root found ts,
    c.root env tree = .ok root ∧ c.target env = .ok p.outDir ∧
    (scanCrate tree root).findings = .ok found ∧
    List.Forall₂ (fun d t => d.resolve = .ok t) found.tagged ts ∧
    p.artifact = Pass.artifact? ⟨p.mode, p.ns, c.runtime.getD (runtimePath env tree)⟩ ts ∧
    p.count = found.tagged.length := by
  unfold plan at h
  split at h
  · cases h
  · rename_i root hroot
    split at h
    · cases h
    · rename_i outDir htarget
      simp only at h
      split at h
      · cases h
      · rename_i found hfound
        obtain ⟨ts, hts, hout, hart, hcount⟩ := exists_of_planFor h
        exact ⟨root, found, ts, hroot, hout ▸ htarget, hfound, hts, hart, hcount⟩

end Config

/-- `generate` installs the plan. -/
theorem generate_of_plan (h : (c.plan env tree).result = .ok p) :
    (generate env c tree).1 = (p.install tree).1 ∧
      (generate env c tree).2.result = (p.install tree).2.result := by
  unfold generate
  rcases hp : c.plan env tree with ⟨log, printed, e | q⟩
  · rw [hp] at h
    cases h
  · rw [hp] at h
    obtain rfl := Except.ok.inj h
    simp only [and_self]

/-- Without a plan, nothing is written. -/
theorem generate_of_no_plan {e : Error} (h : (c.plan env tree).result = .error e) :
    (generate env c tree).1 = tree ∧ (generate env c tree).2.result = .error e := by
  unfold generate
  rcases hp : c.plan env tree with ⟨log, printed, e' | q⟩
  · rw [hp] at h
    obtain rfl := Except.error.inj h
    exact ⟨rfl, rfl⟩
  · rw [hp] at h
    cases h

end SanitizeGen
