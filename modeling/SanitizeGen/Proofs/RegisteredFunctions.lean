import Mathlib.Data.List.Dedup
import Mathlib.Data.List.Induction
import Mathlib.Data.String.Basic
import SanitizeGen.Demo.Accounts

/-!
# Registered functions

A table is a map from types to the functions that were registered for them last. What it keeps for a
type was made of that function (`Table.keeps_of_registrations`), so a function that is found always
gets a value of its own type. The order of the entries does not show (`Table.Alike.of_perm`), so the
order of the registrations matters only where two are for one type (`answers_of_registrations`).
-/

namespace SanitizeGen

variable {κ : Type} [TypeCode κ]

/-- A function that is registered for a type. -/
structure Registration (κ : Type) [TypeCode κ] where
  code : κ
  run : Live (TypeCode.El code) → String

/-- `f` is the last function that is registered for the type `k`. -/
def LastFor (rs : List (Registration κ)) (k : κ) (f : Live (TypeCode.El k) → String) : Prop :=
  ∃ before after, rs = before ++ ⟨k, f⟩ :: after ∧ ∀ r ∈ after, r.code ≠ k

section

variable {rs : List (Registration κ)} {r : Registration κ} {k : κ}
  {f : Live (TypeCode.El k) → String}

theorem not_lastFor_nil : ¬LastFor [] k f := by
  rintro ⟨before, after, h, -⟩
  simp at h

/-- The last registration is the last one for its type, and leaves those for other types. -/
theorem lastFor_concat :
    LastFor (rs ++ [r]) k f ↔ r = ⟨k, f⟩ ∨ r.code ≠ k ∧ LastFor rs k f := by
  constructor
  · rintro ⟨before, after, h, hafter⟩
    rcases List.eq_nil_or_concat after with rfl | ⟨mid, last, rfl⟩
    · obtain ⟨-, hr⟩ := List.append_inj' h rfl
      exact .inl (List.cons.inj hr).1
    · have h' : rs ++ [r] = (before ++ ⟨k, f⟩ :: mid) ++ [last] := by
        rw [h]
        simp
      obtain ⟨rfl, hr⟩ := List.append_inj' h' rfl
      obtain rfl := (List.cons.inj hr).1
      exact .inr ⟨hafter r (by simp), before, mid, rfl, fun s hs => hafter s (by simp [hs])⟩
  · rintro (rfl | ⟨hne, before, after, rfl, hafter⟩)
    · exact ⟨rs, [], rfl, List.forall_mem_nil _⟩
    · refine ⟨before, after ++ [r], by simp, fun s hs => ?_⟩
      rcases List.mem_append.1 hs with hs | hs
      · exact hafter s hs
      · obtain rfl := List.mem_singleton.1 hs
        exact hne

theorem exists_lastFor_iff : (∃ f, LastFor rs k f) ↔ k ∈ rs.map Registration.code := by
  induction rs using List.reverseRecOn with
  | nil => simp [not_lastFor_nil]
  | append_singleton rs r ih =>
    simp only [lastFor_concat, List.map_append, List.mem_append, ← ih]
    obtain ⟨j, g⟩ := r
    by_cases hj : j = k
    · subst hj
      simp
    · simp [hj, Ne.symm hj]

end

variable [DecidableEq κ] {rs us : List (Registration κ)} {k : κ}

theorem AnyValue.as?_self (x : Live (TypeCode.El k)) :
    AnyValue.as? (⟨k, x⟩ : AnyValue κ) k = some x := by
  rw [as?, dif_pos rfl]

theorem TableEntry.run_ofFunction (f : Live (TypeCode.El k) → String) (x : Live (TypeCode.El k)) :
    (ofFunction k f).run ⟨k, x⟩ = some (f x) := by
  simp only [ofFunction, AnyValue.as?_self, Option.map_some]

namespace Table

variable {t u : Table κ}

/-- The table in which some functions are registered, one after the other. -/
def ofRegistrations (mode : Mode) (rs : List (Registration κ)) : Table κ :=
  rs.foldl (fun t r => t.register r.code r.run) (empty mode)

theorem ofRegistrations_concat (mode : Mode) (rs : List (Registration κ)) (r : Registration κ) :
    ofRegistrations mode (rs ++ [r]) = (ofRegistrations mode rs).register r.code r.run :=
  List.foldl_concat _ _ _ _

theorem mode_ofRegistrations (mode : Mode) (rs : List (Registration κ)) :
    (ofRegistrations mode rs).mode = mode := by
  induction rs using List.reverseRecOn with
  | nil => rfl
  | append_singleton rs r ih => rw [ofRegistrations_concat, register, ih]

/-! ### Entries -/

theorem lookup_eq_some_iff {e : TableEntry κ} :
    t.entries.lookup k = some e ↔ (k, e) ∈ t.entries := by
  rw [List.lookup_eq_some_iff]
  constructor
  · rintro ⟨before, after, h, -⟩
    simp [h]
  · intro h
    obtain ⟨before, after, heq⟩ := List.append_of_mem h
    refine ⟨before, after, heq, fun p hp => bne_iff_ne.2 ?_⟩
    have hdistinct := t.distinct
    rw [heq, List.map_append, List.nodup_append] at hdistinct
    exact (hdistinct.2.2 p.1 (List.mem_map_of_mem hp) k (by simp)).symm

theorem lookup_eq_none_iff : t.entries.lookup k = none ↔ k ∉ t.entries.map Prod.fst := by
  rw [List.lookup_eq_none_iff]
  simp only [bne_iff_ne, List.mem_map, not_exists, not_and]
  exact ⟨fun h p hp hk => h p hp hk.symm, fun h p hp hk => h p hp hk.symm⟩

omit [DecidableEq κ] in
theorem isEmpty_iff : t.isEmpty = true ↔ t.entries = [] :=
  List.isEmpty_iff

theorem contains_iff : t.contains k = true ↔ k ∈ t.entries.map Prod.fst := by
  simp [contains]

/-- The entries are made of the functions that were registered last. -/
def Keeps (t : Table κ) (rs : List (Registration κ)) : Prop :=
  ∀ k e, (k, e) ∈ t.entries ↔ ∃ f, LastFor rs k f ∧ e = .ofFunction k f

/-- Registering a function keeps it and those of other types. -/
theorem Keeps.register (h : t.Keeps rs) (r : Registration κ) :
    (t.register r.code r.run).Keeps (rs ++ [r]) := by
  intro k e
  obtain ⟨j, g⟩ := r
  simp only [Table.register, List.mem_append, List.mem_filter, decide_eq_true_eq,
    List.mem_singleton, lastFor_concat, h k e]
  by_cases hj : j = k
  · subst hj
    constructor
    · rintro (⟨-, hne⟩ | heq)
      · exact absurd rfl hne
      · exact ⟨g, .inl rfl, (Prod.mk.inj heq).2⟩
    · rintro ⟨f, heq | ⟨hne, -⟩, rfl⟩
      · obtain ⟨-, heq⟩ := Registration.mk.inj heq
        rw [eq_of_heq heq]
        exact .inr rfl
      · exact absurd rfl hne
  · constructor
    · rintro (⟨⟨f, hf, rfl⟩, -⟩ | heq)
      · exact ⟨f, .inr ⟨hj, hf⟩, rfl⟩
      · exact absurd (Prod.mk.inj heq).1.symm hj
    · rintro ⟨f, heq | ⟨-, hf⟩, rfl⟩
      · exact absurd (Registration.mk.inj heq).1 hj
      · exact .inl ⟨⟨f, hf, rfl⟩, Ne.symm hj⟩

theorem keeps_of_registrations (mode : Mode) (rs : List (Registration κ)) :
    (ofRegistrations mode rs).Keeps rs := by
  induction rs using List.reverseRecOn with
  | nil => exact fun k e => ⟨nofun, fun ⟨f, hf, _⟩ => absurd hf not_lastFor_nil⟩
  | append_singleton rs r ih =>
    rw [ofRegistrations_concat]
    exact ih.register r

section

variable (h : t.Keeps rs)

include h

theorem Keeps.mem_codes : k ∈ t.entries.map Prod.fst ↔ k ∈ rs.map Registration.code := by
  rw [← exists_lastFor_iff]
  constructor
  · intro hk
    obtain ⟨⟨k, e⟩, he, rfl⟩ := List.mem_map.1 hk
    obtain ⟨f, hf, -⟩ := (h k e).1 he
    exact ⟨f, hf⟩
  · rintro ⟨f, hf⟩
    exact List.mem_map.2 ⟨_, (h k _).2 ⟨f, hf, rfl⟩, rfl⟩

/-- The types with an entry are those that a function was registered for, each once. -/
theorem Keeps.codes_perm : (t.entries.map Prod.fst).Perm (rs.map Registration.code).dedup :=
  (List.perm_ext_iff_of_nodup t.distinct (List.nodup_dedup _)).2 fun k => by
    rw [h.mem_codes, List.mem_dedup]

theorem Keeps.names_perm :
    (t.entries.map fun e => e.2.typeName).Perm
      ((rs.map Registration.code).dedup.map TypeCode.typeName) := by
  have hnames : t.entries.map (fun e => e.2.typeName) =
      (t.entries.map Prod.fst).map TypeCode.typeName := by
    rw [List.map_map]
    refine List.map_congr_left fun p hp => ?_
    obtain ⟨f, -, hf⟩ := (h p.1 p.2).1 hp
    rw [hf]
    rfl
  rw [hnames]
  exact h.codes_perm.map _

theorem Keeps.sanitizeAny_eq_some {f : Live (TypeCode.El k) → String} (hf : LastFor rs k f)
    (x : Live (TypeCode.El k)) : t.sanitizeAny k x = some (f x) := by
  have he : t.entries.lookup k = some (.ofFunction k f) :=
    lookup_eq_some_iff.2 ((h k _).2 ⟨f, hf, rfl⟩)
  rw [sanitizeAny, he, Option.bind_some, TableEntry.run_ofFunction]

theorem Keeps.sanitizeAny_eq_none (hk : k ∉ rs.map Registration.code) (x : Live (TypeCode.El k)) :
    t.sanitizeAny k x = none := by
  have he : t.entries.lookup k = none := lookup_eq_none_iff.2 fun hmem => hk (h.mem_codes.1 hmem)
  rw [sanitizeAny, he, Option.bind_none]

end

/-! ### Names in order -/

omit [DecidableEq κ] in
theorem sorted_registeredTypes (t : Table κ) : t.registeredTypes.Pairwise (· ≤ ·) := by
  have htrans (a b c : String) (hab : decide (a ≤ b) = true) (hbc : decide (b ≤ c) = true) :
      decide (a ≤ c) = true := by
    rw [decide_eq_true_eq] at hab hbc ⊢
    exact String.le_trans hab hbc
  have htotal (a b : String) : (decide (a ≤ b) || decide (b ≤ a)) = true := by
    simpa using String.le_total a b
  have h := List.pairwise_mergeSort htrans htotal (t.entries.map fun e => e.2.typeName)
  simpa [registeredTypes] using h

omit [DecidableEq κ] in
theorem perm_registeredTypes (t : Table κ) :
    t.registeredTypes.Perm (t.entries.map fun e => e.2.typeName) :=
  List.mergeSort_perm _ _

/-! ### Tables that answer alike -/

/-- What one table tells, the other tells as well. -/
structure Alike (t u : Table κ) : Prop where
  mode : t.mode = u.mode
  contains : ∀ k, t.contains k = u.contains k
  len : t.len = u.len
  isEmpty : t.isEmpty = u.isEmpty
  types : t.registeredTypes = u.registeredTypes
  view : t.view = u.view
  any : ∀ k x, t.sanitizeAny k x = u.sanitizeAny k x
  text : ∀ k x, t.sanitize k x = u.sanitize k x
  orPanic : ∀ k x, t.sanitizeOrPanic k x = u.sanitizeOrPanic k x

theorem Alike.of_perm (hmode : t.mode = u.mode) (h : t.entries.Perm u.entries) : t.Alike u := by
  have hlookup (k : κ) : t.entries.lookup k = u.entries.lookup k :=
    Option.ext fun e => by rw [lookup_eq_some_iff, lookup_eq_some_iff, h.mem_iff]
  have htypes : t.registeredTypes = u.registeredTypes :=
    List.Perm.eq_of_pairwise (fun a b _ _ => String.le_antisymm) t.sorted_registeredTypes
      u.sorted_registeredTypes
      (t.perm_registeredTypes.trans ((h.map _).trans u.perm_registeredTypes.symm))
  have hany (k : κ) (x : Live (TypeCode.El k)) : t.sanitizeAny k x = u.sanitizeAny k x := by
    rw [sanitizeAny, sanitizeAny, hlookup]
  have htext (k : κ) (x : Live (TypeCode.El k)) : t.sanitize k x = u.sanitize k x := by
    rw [sanitize, sanitize, hany, hmode]
  refine ⟨hmode, fun k => ?_, h.length_eq, ?_, htypes, ?_, hany, htext, fun k x => ?_⟩
  · rw [Bool.eq_iff_iff, contains_iff, contains_iff, (h.map _).mem_iff]
  · rw [Bool.eq_iff_iff, isEmpty_iff, isEmpty_iff]
    exact ⟨fun ht => (ht ▸ h).nil_eq.symm, fun hu => (hu ▸ h).eq_nil⟩
  · rw [Table.view, Table.view, htypes, hmode]
  · rw [sanitizeOrPanic, sanitizeOrPanic, htext]

theorem Keeps.perm (ht : t.Keeps rs) (hu : u.Keeps us)
    (h : ∀ k f, LastFor rs k f ↔ LastFor us k f) : t.entries.Perm u.entries := by
  refine (List.perm_ext_iff_of_nodup (.of_map _ t.distinct) (.of_map _ u.distinct)).2 fun p => ?_
  rw [ht p.1 p.2, hu p.1 p.2]
  simp only [h]

/-- What a table tells in which the functions `rs` were registered. -/
structure Answers (t : Table κ) (mode : Mode) (rs : List (Registration κ)) : Prop where
  mode_eq : t.mode = mode
  any : ∀ k f, LastFor rs k f → ∀ x, t.sanitizeAny k x = some (f x)
  any_eq_none : ∀ k x, t.sanitizeAny k x = none ↔ k ∉ rs.map Registration.code
  /-- An entry that is found takes every value of the type that it is found for. -/
  found : ∀ k e, t.entries.lookup k = some e → ∀ x, (e.run ⟨k, x⟩).isSome = true
  text : ∀ k f, LastFor rs k f → ∀ x, t.sanitize k x = .ok (f x)
  debugText : mode = .debug → ∀ k, k ∉ rs.map Registration.code →
    ∀ x, t.sanitize k x = .ok (TypeCode.view k x.value).compact
  notGenerated : mode = .release → ∀ k, k ∉ rs.map Registration.code →
    ∀ x, t.sanitize k x = .error ⟨TypeCode.typeName k⟩
  orPanic : ∀ k x s, t.sanitizeOrPanic k x = .ok s ↔ t.sanitize k x = .ok s
  panics : ∀ k x p, t.sanitizeOrPanic k x = .error p ↔
    mode = .release ∧ k ∉ rs.map Registration.code ∧ p = ⟨notGeneratedMessage⟩
  contains : ∀ k, t.contains k = true ↔ k ∈ rs.map Registration.code
  len : t.len = (rs.map Registration.code).dedup.length
  isEmpty : t.isEmpty = true ↔ rs = []
  sorted : t.registeredTypes.Pairwise (· ≤ ·)
  types : t.registeredTypes.Perm ((rs.map Registration.code).dedup.map TypeCode.typeName)

theorem Keeps.isEmpty_iff (h : t.Keeps rs) : t.isEmpty = true ↔ rs = [] := by
  have hcodes := h.codes_perm
  rw [Table.isEmpty_iff]
  constructor
  · intro ht
    have hnil : (rs.map Registration.code).dedup = [] := by
      rw [ht] at hcodes
      exact hcodes.nil_eq.symm
    simpa using hnil
  · rintro rfl
    simpa using hcodes

/-- Without a function the mode decides, and a panic takes the place of an error. -/
theorem Keeps.answers {mode : Mode} (h : t.Keeps rs) (hmode : t.mode = mode) :
    t.Answers mode rs where
  mode_eq := hmode
  any k f hf x := h.sanitizeAny_eq_some hf x
  any_eq_none k x := by
    refine ⟨fun hnone hk => ?_, fun hk => h.sanitizeAny_eq_none hk x⟩
    obtain ⟨f, hf⟩ := exists_lastFor_iff.2 hk
    rw [h.sanitizeAny_eq_some hf] at hnone
    cases hnone
  found k e he x := by
    obtain ⟨f, -, rfl⟩ := (h k e).1 (lookup_eq_some_iff.1 he)
    rw [TableEntry.run_ofFunction]
    rfl
  text k f hf x := by rw [sanitize, h.sanitizeAny_eq_some hf]
  debugText hm k hk x := by
    rw [sanitize, h.sanitizeAny_eq_none hk, hmode, hm]
  notGenerated hm k hk x := by
    rw [sanitize, h.sanitizeAny_eq_none hk, hmode, hm]
  orPanic k x s := by
    rw [sanitizeOrPanic]
    cases t.sanitize k x <;> simp [Except.mapError]
  panics k x p := by
    by_cases hk : k ∈ rs.map Registration.code
    · obtain ⟨f, hf⟩ := exists_lastFor_iff.2 hk
      simp [sanitizeOrPanic, sanitize, h.sanitizeAny_eq_some hf, Except.mapError, hk]
    · rcases mode with _ | _ <;>
        simp [sanitizeOrPanic, sanitize, h.sanitizeAny_eq_none hk, hmode, Except.mapError, hk,
          NotGenerated.message, eq_comm]
  contains k := contains_iff.trans h.mem_codes
  len := by rw [← h.codes_perm.length_eq, List.length_map, len]
  isEmpty := h.isEmpty_iff
  sorted := t.sorted_registeredTypes
  types := t.perm_registeredTypes.trans h.names_perm

end Table

omit [DecidableEq κ] in
theorem lastFor_append {more : List (Registration κ)}
    (h : ∀ k f, LastFor rs k f ↔ LastFor us k f) (k : κ) (f : Live (TypeCode.El k) → String) :
    LastFor (rs ++ more) k f ↔ LastFor (us ++ more) k f := by
  induction more using List.reverseRecOn with
  | nil => simpa using h k f
  | append_singleton more r ih =>
    rw [← List.append_assoc, ← List.append_assoc, lastFor_concat, lastFor_concat, ih]

/-- However functions are registered, a table answers with the last one of each type, and it answers
as any table does that got the same last functions, also after both have got some more. -/
theorem answers_of_registrations (mode : Mode) (rs : List (Registration κ)) :
    (Table.ofRegistrations mode rs).Answers mode rs ∧
    ∀ us, (∀ k f, LastFor rs k f ↔ LastFor us k f) → ∀ more,
      (Table.ofRegistrations mode (rs ++ more)).Alike (Table.ofRegistrations mode (us ++ more)) := by
  have hkeeps (rs : List (Registration κ)) := Table.keeps_of_registrations mode rs
  have hmode (rs : List (Registration κ)) := Table.mode_ofRegistrations mode rs
  refine ⟨(hkeeps rs).answers (hmode rs), fun us h more => ?_⟩
  have hperm := (hkeeps (rs ++ more)).perm (hkeeps (us ++ more)) (lastFor_append h)
  exact .of_perm ((hmode _).trans (hmode _).symm) hperm

namespace Demo.Accounts

/-- The functions of the accounts package, the one for accounts after a first one. -/
def registeredTwice : List (Registration Code) :=
  [⟨.account, fun _ => "first"⟩, ⟨.session, Session.sanitized⟩, ⟨.account, Account.sanitized⟩]

/-- The functions of the accounts package in another order. -/
def registeredOnce : List (Registration Code) :=
  [⟨.account, Account.sanitized⟩, ⟨.session, Session.sanitized⟩]

/-- The first function for accounts does not show. -/
theorem answers_of_registrations_accounts :
    (∀ k f, LastFor registeredTwice k f ↔ LastFor registeredOnce k f) ∧
    (Table.ofRegistrations .release registeredTwice).Answers .release registeredTwice ∧
    (∀ x : Live Account, (Table.ofRegistrations .release registeredTwice).sanitize .account x =
      .ok (Account.sanitized x)) ∧
    (Table.ofRegistrations .release registeredTwice).Alike
      (Table.ofRegistrations .release registeredOnce) := by
  have h (k : Code) (f : Live (TypeCode.El k) → String) :
      LastFor registeredTwice k f ↔ LastFor registeredOnce k f := by
    have htwice : registeredTwice = [] ++ [⟨.account, fun _ => "first"⟩] ++
      [⟨.session, Session.sanitized⟩] ++ [⟨.account, Account.sanitized⟩] := rfl
    have honce : registeredOnce = [] ++ [⟨.account, Account.sanitized⟩] ++
      [⟨.session, Session.sanitized⟩] := rfl
    rw [htwice, honce]
    simp only [lastFor_concat, not_lastFor_nil]
    cases k <;> simp
  obtain ⟨hanswers, halike⟩ := answers_of_registrations .release registeredTwice
  have hsame := halike registeredOnce h []
  have hlast : LastFor registeredTwice .account Account.sanitized :=
    (h .account _).2 ⟨[], [⟨.session, Session.sanitized⟩], rfl, by simp⟩
  exact ⟨h, hanswers, hanswers.text .account _ hlast, by simpa using hsame⟩

end Demo.Accounts

end SanitizeGen
