import SanitizeGen.Proofs.PassRun

/-!
# Passes of readers with a state

A reader of declarations may keep a state, such as a count of what it has read. `Pass.runWith` is a
pass by such a reader. What it does is told by `Pass.Runs`: it reads one declaration after the
other, each once, and stops after the first that fails (`Pass.runWith_iff_runs`). By a reader
without a state it is `Pass.run`.
-/

namespace SanitizeGen

variable {σ δ ε : Type}

/-- What resolves declarations, in a state that it may change. -/
abbrev Resolver (σ δ ε : Type) : Type := δ → ExceptT ε (StateM σ) Target

namespace Resolver

/-- The reader that also notes every declaration it is given. -/
def logged (read : Resolver σ δ ε) : Resolver (σ × List δ) δ ε := fun d (s, log) =>
  ((read d s).1, (read d s).2, log ++ [d])

/-- The reader that counts the declarations it is given, and has no other state. -/
def counting (resolve : δ → Except ε Target) : Resolver Nat δ ε := fun d n => (resolve d, n + 1)

/-- From the state `s` on, the declarations resolve to targets one after the other. The last state
is the one after all of them. -/
inductive Resolves (read : Resolver σ δ ε) : σ → List δ → List Target → σ → Prop where
  | nil {s} : Resolves read s [] [] s
  | cons {s d t s' ds ts s''} : read d s = (.ok t, s') → Resolves read s' ds ts s'' →
      Resolves read s (d :: ds) (t :: ts) s''

end Resolver

open Resolver

section

variable {α β : Type} {read : Resolver σ δ ε} {s s' s'' : σ} {d : δ} {ds before after log : List δ}
  {t : Target} {ts : List Target} {e : ε}

theorem bind_apply (x : ExceptT ε (StateM σ) α) (f : α → ExceptT ε (StateM σ) β) (s : σ) :
    (x >>= f) s =
      match x s with
      | (.ok a, s') => f a s'
      | (.error e, s') => (.error e, s') := by
  show (match x s with | (a, s') => ExceptT.bindCont f a s') = _
  rcases x s with ⟨e | a, s'⟩
  · rfl
  · rfl

theorem mapM_cons_apply (read : Resolver σ δ ε) (d : δ) (ds : List δ) (s : σ) :
    (d :: ds).mapM read s =
      match read d s with
      | (.ok t, s') =>
        match ds.mapM read s' with
        | (.ok ts, s'') => (.ok (t :: ts), s'')
        | (.error e, s'') => (.error e, s'')
      | (.error e, s') => (.error e, s') := by
  rw [List.mapM_cons, bind_apply]
  rcases read d s with ⟨e | t, s'⟩
  · rfl
  · simp only [bind_apply]
    rcases ds.mapM read s' with ⟨e | ts, s''⟩
    · rfl
    · rfl

namespace Resolver.Resolves

theorem mapM_eq (h : read.Resolves s ds ts s') : ds.mapM read s = (.ok ts, s') := by
  induction h with
  | nil => rfl
  | cons hd _ ih => rw [mapM_cons_apply, hd]; simp only [ih]

/-- Nothing is read after the first declaration that fails. -/
theorem mapM_eq_error (h : read.Resolves s before ts s') (hd : read d s' = (.error e, s'')) :
    (before ++ d :: after).mapM read s = (.error e, s'') := by
  induction h with
  | nil => rw [List.nil_append, mapM_cons_apply, hd]
  | cons hx _ ih => rw [List.cons_append, mapM_cons_apply, hx]; simp only [ih hd]

theorem length_eq (h : read.Resolves s ds ts s') : ts.length = ds.length := by
  induction h with
  | nil => rfl
  | cons _ _ ih => rw [List.length_cons, List.length_cons, ih]

theorem logged (h : read.Resolves s ds ts s') :
    read.logged.Resolves (s, log) ds ts (s', log ++ ds) := by
  induction h generalizing log with
  | nil => rw [List.append_nil]; exact .nil
  | @cons _ d _ _ ds _ _ hd _ ih =>
    rw [List.append_cons]
    exact .cons (by simp only [Resolver.logged, hd]) ih

end Resolver.Resolves

theorem Resolver.resolves_or_fails (read : Resolver σ δ ε) (s : σ) (ds : List δ) :
    (∃ ts s', read.Resolves s ds ts s') ∨ ∃ before d after ts s' e s'', ds = before ++ d :: after ∧
      read.Resolves s before ts s' ∧ read d s' = (.error e, s'') := by
  induction ds generalizing s with
  | nil => exact .inl ⟨[], s, .nil⟩
  | cons d ds ih =>
    rcases hd : read d s with ⟨e | t, s'⟩
    · exact .inr ⟨[], d, ds, [], s, e, s', rfl, .nil, hd⟩
    · obtain ⟨ts, s'', hds⟩ | ⟨before, x, after, ts, s'', e, s''', rfl, hbefore, hx⟩ := ih s'
      · exact .inl ⟨t :: ts, s'', .cons hd hds⟩
      · exact .inr ⟨d :: before, x, after, t :: ts, s'', e, s''', rfl, .cons hd hbefore, hx⟩

end

namespace Pass

/-- The file with the functions of all declarations, by a reader with a state. -/
def runWith (p : Pass) (read : Resolver σ δ ε) (ds : List δ) :
    ExceptT ε (StateM σ) (Option Artifact) := do
  return p.artifact? (← ds.mapM read)

/-- What a pass over some declarations returns, from the state `s` of its reader on; the state after
it; and the declarations that have been read by then. -/
inductive Runs (p : Pass) (read : Resolver σ δ ε) (s : σ) :
    List δ → Except ε (Option Artifact) → σ → List δ → Prop where
  | nothing : Runs p read s [] (.ok none) s []
  | artifact {ds ts s'} : ds ≠ [] → read.Resolves s ds ts s' →
      Runs p read s ds (.ok (some ⟨p.ns, sanitizationsFile,
        Template.sanitizations ts p.mode p.runtime⟩)) s' ds
  | fails {before d after ts s' e s''} : read.Resolves s before ts s' →
      read d s' = (.error e, s'') →
      Runs p read s (before ++ d :: after) (.error e) s'' (before ++ [d])

section

variable {p : Pass} {read : Resolver σ δ ε} {s s' : σ} {ds calls log : List δ}
  {r : Except ε (Option Artifact)}

theorem runWith_apply (p : Pass) (read : Resolver σ δ ε) (ds : List δ) (s : σ) :
    p.runWith read ds s = ((ds.mapM read s).1.map p.artifact?, (ds.mapM read s).2) := by
  rw [runWith, bind_apply]
  rcases ds.mapM read s with ⟨e | ts, s'⟩
  · rfl
  · rfl

namespace Runs

theorem runWith_eq (h : p.Runs read s ds r s' calls) : p.runWith read ds s = (r, s') := by
  rw [runWith_apply]
  cases h with
  | nothing => rfl
  | @artifact ds ts _ hds h =>
    -- as many targets as declarations, so there is a file
    have hts : ts.isEmpty = false := by
      rw [List.isEmpty_eq_false_iff, ← List.length_pos_iff, h.length_eq]
      exact List.length_pos_iff.2 hds
    simp only [h.mapM_eq, Except.map, artifact?, hts, Bool.false_eq_true, if_false]
  | fails h hd => simp only [h.mapM_eq_error hd, Except.map]

theorem logged (h : p.Runs read s ds r s' calls) :
    p.Runs read.logged (s, log) ds r (s', log ++ calls) calls := by
  cases h with
  | nothing => rw [List.append_nil]; exact .nothing
  | artifact hds h => exact .artifact hds h.logged
  | fails h hd =>
    refine .fails (h.logged) ?_
    simp only [Resolver.logged, hd, List.append_assoc]

end Runs

theorem exists_runs (p : Pass) (read : Resolver σ δ ε) (s : σ) (ds : List δ) :
    ∃ r s' calls, p.Runs read s ds r s' calls := by
  obtain ⟨ts, s', h⟩ | ⟨before, d, after, ts, s', e, s'', rfl, h, hd⟩ := read.resolves_or_fails s ds
  · by_cases hds : ds = []
    · subst hds
      exact ⟨_, _, _, .nothing⟩
    · exact ⟨_, _, _, .artifact hds h⟩
  · exact ⟨_, _, _, .fails h hd⟩

theorem runWith_logged_eq_iff : p.runWith read.logged ds (s, []) = (r, s', calls) ↔
    p.Runs read s ds r s' calls := by
  constructor
  · intro h
    obtain ⟨r', s'', calls', hruns⟩ := p.exists_runs read s ds
    obtain ⟨rfl, hlog⟩ := Prod.mk.inj (h.symm.trans hruns.logged.runWith_eq)
    obtain ⟨rfl, rfl⟩ := Prod.mk.inj hlog
    exact hruns
  · exact fun h => h.logged.runWith_eq

theorem runWith_eq_iff : p.runWith read ds s = (r, s') ↔ ∃ calls, p.Runs read s ds r s' calls := by
  constructor
  · intro h
    obtain ⟨r', s'', calls, hruns⟩ := p.exists_runs read s ds
    obtain ⟨rfl, rfl⟩ := Prod.mk.inj (h.symm.trans hruns.runWith_eq)
    exact ⟨calls, hruns⟩
  · exact fun ⟨calls, h⟩ => h.runWith_eq

theorem runWith_eq_none_iff : (p.runWith read ds s).1 = .ok none ↔ ds = [] := by
  obtain ⟨r, s', calls, h⟩ := p.exists_runs read s ds
  rw [h.runWith_eq]
  cases h with
  | nothing => simp
  | artifact hds h => simp [hds]
  | fails h hd => simp

theorem mapM_counting (resolve : δ → Except ε Target) (ds : List δ) (n : Nat) :
    ds.mapM (counting resolve) n = ((resolveAll resolve ds).1, n + (resolveAll resolve ds).2) := by
  induction ds generalizing n with
  | nil => rfl
  | cons d ds ih =>
    rw [mapM_cons_apply, resolveAll]
    rcases hd : resolve d with e | t
    · simp only [counting, hd]
    · simp only [counting, hd, ih]
      rcases resolveAll resolve ds with ⟨e | ts, m⟩
      · simp only [Nat.add_assoc, Nat.add_comm 1 m]
      · simp only [Nat.add_assoc, Nat.add_comm 1 m]

theorem runWith_counting (p : Pass) (resolve : δ → Except ε Target) (ds : List δ) :
    p.runWith (counting resolve) ds 0 = (p.run resolve ds, (resolveAll resolve ds).2) := by
  rw [runWith_apply, mapM_counting, run, Nat.zero_add]

end

end Pass

/-! ### The text of the file -/

/-- The parts stand in the text one after the other. -/
def HoldsInOrder : List String → String → Prop
  | [], _ => True
  | part :: parts, text =>
    ∃ before after, text = before ++ part ++ after ∧ HoldsInOrder parts after

theorem holdsInOrder_append {parts : List String} {text : String} (before : String)
    (h : HoldsInOrder parts text) : HoldsInOrder parts (before ++ text) := by
  cases parts with
  | nil => trivial
  | cons part parts =>
    obtain ⟨before', after, rfl, h⟩ := h
    exact ⟨before ++ before', after, by simp only [String.append_assoc], h⟩

theorem holdsInOrder_join (parts : List String) (after : String) :
    HoldsInOrder parts (String.join (parts.map fun part => "\n" ++ part) ++ after) := by
  induction parts with
  | nil => trivial
  | cons part parts ih =>
    exact ⟨"\n", _, by rw [List.map_cons, String.join_cons, String.append_assoc], ih⟩

theorem holdsInOrder_sanitizations (ts : List Target) (mode : Mode) (runtime : String) :
    HoldsInOrder (ts.map fun t => Template.function t mode runtime)
      (Template.sanitizations ts mode runtime) := by
  have h := holdsInOrder_join (ts.map fun t => Template.function t mode runtime)
    ("\n" ++ Template.registration ts runtime)
  rw [List.map_map] at h
  have htext : Template.sanitizations ts mode runtime =
      "// " ++ mode.name ++ "\n" ++ Template.notice ++ "\n" ++
        (String.join (ts.map fun t => "\n" ++ Template.function t mode runtime) ++
          ("\n" ++ Template.registration ts runtime)) := by
    simp only [Template.sanitizations, String.append_assoc]
  rw [htext]
  exact holdsInOrder_append _ h

/-- A pass is told by what its reader does. It makes no file exactly if there are no declarations.
If one fails, its error is returned, and it is the last one that has been read, whatever follows it.
Else each declaration has been read once, in order, and the file is the one of their targets, with
all their functions in that order. -/
theorem Pass.runWith_iff_runs (p : Pass) (read : Resolver σ δ ε) (ds : List δ) (s : σ) :
    (∀ r s' calls, p.runWith read.logged ds (s, []) = (r, s', calls) ↔
      p.Runs read s ds r s' calls) ∧
    (∀ r s', p.runWith read ds s = (r, s') ↔ ∃ calls, p.Runs read s ds r s' calls) ∧
    ((p.runWith read ds s).1 = .ok none ↔ ds = []) ∧
    (∀ ts, HoldsInOrder (ts.map fun t => Template.function t p.mode p.runtime)
      (Template.sanitizations ts p.mode p.runtime)) ∧
    ∀ resolve : δ → Except ε Target,
      p.runWith (counting resolve) ds 0 = (p.run resolve ds, (resolveAll resolve ds).2) :=
  ⟨fun _ _ _ => runWith_logged_eq_iff, fun _ _ => runWith_eq_iff, runWith_eq_none_iff,
    fun ts => holdsInOrder_sanitizations ts p.mode p.runtime,
    fun resolve => p.runWith_counting resolve ds⟩

/-- The first declaration fails, and no other one is read. -/
example : Pass.runWith ⟨.debug, .root, "::mrclean"⟩
    (Resolver.counting fun d : Option Target => d.elim (.error "no struct") .ok)
    [none, some ⟨"Account", [], {}⟩] 0 = (.error "no struct", 1) := rfl

end SanitizeGen
