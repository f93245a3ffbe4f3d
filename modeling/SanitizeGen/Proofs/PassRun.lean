import Mathlib.Data.List.Forall2
import SanitizeGen.Artifact

/-!
# What a pass returns

A pass succeeds exactly when every declaration resolves, and its artifact is then the one of the
targets in the order of the declarations (`run_eq_ok`).
-/

namespace SanitizeGen.Pass

variable {δ ε : Type} {read : δ → Except ε Target}

/-- Reading succeeds with the targets that the declarations resolve to, one for each. -/
theorem resolveAll_eq_ok {ds : List δ} {ts : List Target} :
    (resolveAll read ds).1 = .ok ts ↔ List.Forall₂ (fun d t => read d = .ok t) ds ts := by
  induction ds generalizing ts with
  | nil => simp [resolveAll, eq_comm]
  | cons d ds ih =>
    rcases hd : read d with e | t
    · simp [resolveAll, hd, List.forall₂_cons_left_iff]
    · rcases hr : resolveAll read ds with ⟨e | us, n⟩
      · have hnone : ∀ us, ¬ List.Forall₂ (fun d t => read d = .ok t) ds us := fun us hus => by
          have := ih.2 hus
          simp [hr] at this
        simp [resolveAll, hd, hr, List.forall₂_cons_left_iff, hnone]
      · have hus := fun vs => @ih vs
        simp only [hr, Except.ok.injEq] at hus
        simp only [resolveAll, hd, hr, Except.ok.injEq, List.forall₂_cons_left_iff, ← hus]
        constructor
        · rintro rfl
          exact ⟨t, us, rfl, rfl, rfl⟩
        · rintro ⟨_, _, rfl, rfl, rfl⟩
          rfl

/-- If each declaration resolves, they all do together. -/
theorem exists_forall₂_read {ds : List δ} (h : ∀ d ∈ ds, ∃ t, read d = .ok t) :
    ∃ ts, List.Forall₂ (fun d t => read d = .ok t) ds ts := by
  induction ds with
  | nil => exact ⟨[], .nil⟩
  | cons d ds ih =>
    obtain ⟨t, ht⟩ := h d (by simp)
    obtain ⟨ts, hts⟩ := ih fun d' hd' => h d' (by simp [hd'])
    exact ⟨t :: ts, .cons ht hts⟩

theorem run_eq_ok {p : Pass} {ds : List δ} {a : Option Artifact} :
    p.run read ds = .ok a ↔
      ∃ ts, List.Forall₂ (fun d t => read d = .ok t) ds ts ∧ p.artifact? ts = a := by
  simp only [run, ← resolveAll_eq_ok]
  cases (resolveAll read ds).1 <;> simp [Except.map]

theorem resolveAll_map {δ' : Type} (f : δ' → δ) (ds : List δ') :
    resolveAll read (ds.map f) = resolveAll (fun d => read (f d)) ds := by
  induction ds with
  | nil => rfl
  | cons d ds ih => simp only [List.map_cons, resolveAll, ih]

/-- What declarations resolve to is all that matters of them. -/
theorem run_map {δ' : Type} (p : Pass) (f : δ' → δ) (ds : List δ') :
    p.run read (ds.map f) = p.run (fun d => read (f d)) ds := by
  rw [run, run, resolveAll_map]

end SanitizeGen.Pass
