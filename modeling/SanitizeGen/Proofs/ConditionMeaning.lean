import Mathlib.Tactic.ByContra
import Mathlib.Tactic.Choose
import SanitizeGen.Tag.Condition

/-!
# What conditions mean

`Meta.holds v` is the truth of a predicate where nothing is tested and `v` decides what cannot be
told, each occurrence by itself. `Condition.eval` has a value exactly if every `v` leads to it
(`eval_iff_forall_choice`), so that an item for tests alone is in no build without tests.
-/

namespace SanitizeGen

/-- Where a predicate stands in another: the number of the argument at each level, from the
outside. -/
abbrev Occurrence := List Nat

/-- Truth values for what cannot be told. Each occurrence of a predicate has its own. -/
abbrev Choice := Occurrence → Meta → Bool

/-- The choice that is `vs i` inside argument `i` of the predicate at an occurrence of length
`n`. -/
def Choice.merge (n : Nat) (vs : Nat → Choice) : Choice := fun o => vs (o.getD n 0) o

namespace Meta

/-- Whether a predicate that stands at an occurrence holds where nothing is tested. A predicate is
left to the choice unless it is `test`, or `all`, `any` or `not` of predicates. -/
def holds (v : Choice) (here : Occurrence) : Meta → Bool
  | .path p => if p.isWord "test" then false else v here (.path p)
  | .nameValue p value => v here (.nameValue p value)
  | .list p d args =>
    match _h : Meta.listOfTokens? args with
    | none => v here (.list p d args)
    | some ms =>
      let values := ms.attach.mapIdx fun i m => m.1.holds v (here ++ [i])
      if p.isWord "not" then
        match values with
        | [b] => !b
        | _ => v here (.list p d args)
      else if p.isWord "all" then values.all id
      else if p.isWord "any" then values.any id
      else v here (.list p d args)
termination_by m => m.size
decreasing_by exact Meta.size_lt_of_mem_listOfTokens? ‹_› m.2

/-- Induction on the predicates inside a predicate. -/
theorem induction {P : Meta → Prop} (path : ∀ p, P (.path p))
    (nameValue : ∀ p value, P (.nameValue p value))
    (list : ∀ p d args, (∀ ms, Meta.listOfTokens? args = some ms → ∀ m ∈ ms, P m) →
      P (.list p d args)) (m : Meta) : P m :=
  match m with
  | .path p => path p
  | .nameValue p value => nameValue p value
  | .list p d args => list p d args fun _ _ m _ => induction path nameValue list m
termination_by m.size
decreasing_by exact Meta.size_lt_of_mem_listOfTokens? ‹_› ‹_›

variable {p : SimplePath} {d : Delimiter} {args : Tokens} {ms : List Meta} {v w : Choice}
  {here : Occurrence}

theorem holds_list_of_none (h : Meta.listOfTokens? args = none) :
    (Meta.list p d args).holds v here = v here (.list p d args) := by
  rw [holds]
  split
  · rfl
  · simp_all

theorem holds_list (h : Meta.listOfTokens? args = some ms) :
    (Meta.list p d args).holds v here =
      let values := ms.mapIdx fun i m => m.holds v (here ++ [i])
      if p.isWord "not" then
        match values with
        | [b] => !b
        | _ => v here (.list p d args)
      else if p.isWord "all" then values.all id
      else if p.isWord "any" then values.any id
      else v here (.list p d args) := by
  rw [holds]
  split
  · simp_all
  · rename_i ms' h'
    obtain rfl := Option.some.inj (h.symm.trans h')
    have hvalues : (ms.attach.mapIdx fun i m => m.1.holds v (here ++ [i])) =
        ms.mapIdx fun i m => m.holds v (here ++ [i]) := by
      apply List.ext_getElem <;> simp
    rw [hvalues]

/-! ### Choices for several predicates -/

/-- Only the choices for what stands inside a predicate matter for it. -/
theorem holds_congr (m : Meta) (h : ∀ o, here <+: o → v o = w o) :
    m.holds v here = m.holds w here := by
  induction m using Meta.induction generalizing here with
  | path p => rw [holds, holds, h here List.prefix_rfl]
  | nameValue p value => rw [holds, holds, h here List.prefix_rfl]
  | list p d args ih =>
    cases hms : Meta.listOfTokens? args with
    | none => rw [holds_list_of_none hms, holds_list_of_none hms, h here List.prefix_rfl]
    | some ms =>
      have hvalues : (ms.mapIdx fun i m => m.holds v (here ++ [i])) =
          ms.mapIdx fun i m => m.holds w (here ++ [i]) := by
        apply List.ext_getElem <;> simp only [List.length_mapIdx, List.getElem_mapIdx]
        intro i hi _
        exact ih ms hms ms[i] (List.getElem_mem hi) fun o ho =>
          h o ((List.prefix_append here [i]).trans ho)
      rw [holds_list hms, holds_list hms, hvalues, h here List.prefix_rfl]

theorem holds_merge (m : Meta) (vs : Nat → Choice) (i : Nat) :
    m.holds (Choice.merge here.length vs) (here ++ [i]) = m.holds (vs i) (here ++ [i]) := by
  refine m.holds_congr fun o ho => ?_
  obtain ⟨inside, rfl⟩ := ho
  simp [Choice.merge]

/-- If each predicate can have a value, they all can at once. -/
theorem exists_forall_holds_eq (b : Bool) :
    (∃ v, ∀ i (hi : i < ms.length), ms[i].holds v (here ++ [i]) = b) ↔
      ∀ i (hi : i < ms.length), ∃ v, ms[i].holds v (here ++ [i]) = b := by
  constructor
  · rintro ⟨v, hv⟩ i hi
    exact ⟨v, hv i hi⟩
  · intro h
    choose vs hvs using h
    refine ⟨Choice.merge here.length fun i => if hi : i < ms.length then vs i hi else default,
      fun i hi => ?_⟩
    rw [holds_merge, dif_pos hi, hvs]

theorem forall_all_eq_true :
    (∀ v, (ms.mapIdx fun i m => m.holds v (here ++ [i])).all id = true) ↔
      ∀ i (hi : i < ms.length), ∀ v, ms[i].holds v (here ++ [i]) = true := by
  simp only [List.all_eq_true, List.mem_mapIdx, id]
  exact ⟨fun h i hi v => h v _ ⟨i, hi, rfl⟩, fun h v _ ⟨i, hi, hb⟩ => hb ▸ h i hi v⟩

theorem forall_any_eq_false :
    (∀ v, (ms.mapIdx fun i m => m.holds v (here ++ [i])).any id = false) ↔
      ∀ i (hi : i < ms.length), ∀ v, ms[i].holds v (here ++ [i]) = false := by
  simp only [List.any_eq_false, List.mem_mapIdx, id, Bool.not_eq_true]
  exact ⟨fun h i hi v => h v _ ⟨i, hi, rfl⟩, fun h v _ ⟨i, hi, hb⟩ => hb ▸ h i hi v⟩

/-- A conjunction that is always false has a part that is. -/
theorem forall_all_eq_false :
    (∀ v, (ms.mapIdx fun i m => m.holds v (here ++ [i])).all id = false) ↔
      ∃ i, ∃ hi : i < ms.length, ∀ v, ms[i].holds v (here ++ [i]) = false := by
  constructor
  · intro h
    by_contra! hex
    obtain ⟨v, hv⟩ := (exists_forall_holds_eq true).2 fun i hi => by simpa using hex i hi
    refine absurd (h v) ?_
    simp only [Bool.not_eq_false, List.all_eq_true, List.mem_mapIdx, id]
    rintro _ ⟨i, hi, rfl⟩
    exact hv i hi
  · rintro ⟨i, hi, h⟩ v
    rw [List.all_eq_false]
    exact ⟨_, List.mem_mapIdx.2 ⟨i, hi, rfl⟩, by simp [h v]⟩

/-- A disjunction that is always true has a part that is. -/
theorem forall_any_eq_true :
    (∀ v, (ms.mapIdx fun i m => m.holds v (here ++ [i])).any id = true) ↔
      ∃ i, ∃ hi : i < ms.length, ∀ v, ms[i].holds v (here ++ [i]) = true := by
  constructor
  · intro h
    by_contra! hex
    obtain ⟨v, hv⟩ := (exists_forall_holds_eq false).2 fun i hi => by simpa using hex i hi
    refine absurd (h v) ?_
    simp only [Bool.not_eq_true, List.any_eq_false, List.mem_mapIdx, id]
    rintro _ ⟨i, hi, rfl⟩
    exact hv i hi
  · rintro ⟨i, hi, h⟩ v
    rw [List.any_eq_true]
    exact ⟨_, List.mem_mapIdx.2 ⟨i, hi, rfl⟩, h v⟩

end Meta

namespace Condition

open Meta

/-- What is left to choice has no value. -/
theorem eval_unknown_iff (here : Occurrence) (m : Meta) (b : Bool) :
    unknown.eval = some b ↔ ∀ v : Choice, v here m = b := by
  simp only [eval, reduceCtorEq, false_iff, not_forall]
  exact ⟨fun _ _ => !b, by simp⟩

theorem eval_not_iff {m : Meta} {here : Occurrence} (b : Bool)
    (ih : ∀ b, (ofMeta m).eval = some b ↔ ∀ v, m.holds v here = b) :
    (not (ofMeta m)).eval = some b ↔ ∀ v, (!m.holds v here) = b := by
  have hnot : ∀ x : Bool, (!x) = b ↔ x = !b := by cases b <;> simp
  simp only [hnot, ← ih, eval, Option.map_eq_some_iff, exists_eq_right]

section

variable {ms : List Meta} {here : Occurrence}
  (ih : ∀ m ∈ ms, ∀ here b, (ofMeta m).eval = some b ↔ ∀ v, m.holds v here = b)

include ih

theorem forall_eval_iff (b : Bool) : (∀ x ∈ (ms.map ofMeta).map eval, x = some b) ↔
    ∀ i (hi : i < ms.length), ∀ v, ms[i].holds v (here ++ [i]) = b := by
  simp only [List.forall_mem_map, List.forall_mem_iff_forall_getElem]
  exact forall_congr' fun i => forall_congr' fun hi => ih _ (List.getElem_mem hi) _ b

theorem exists_eval_iff (b : Bool) : some b ∈ (ms.map ofMeta).map eval ↔
    ∃ i, ∃ hi : i < ms.length, ∀ v, ms[i].holds v (here ++ [i]) = b := by
  rw [List.map_map, List.mem_map]
  constructor
  · rintro ⟨m, hm, h⟩
    obtain ⟨i, hi, rfl⟩ := List.getElem_of_mem hm
    exact ⟨i, hi, (ih _ hm _ b).1 h⟩
  · rintro ⟨i, hi, h⟩
    exact ⟨_, List.getElem_mem hi, (ih _ (List.getElem_mem hi) _ b).2 h⟩

theorem eval_all_iff (b : Bool) : (all (ms.map ofMeta)).eval = some b ↔
    ∀ v, (ms.mapIdx fun i m => m.holds v (here ++ [i])).all id = b := by
  rw [eval, evalAll_eq_map]
  cases b with
  | true => rw [conj_eq_true, forall_eval_iff ih, forall_all_eq_true]
  | false => rw [conj_eq_false, exists_eval_iff ih, forall_all_eq_false]

theorem eval_any_iff (b : Bool) : (any (ms.map ofMeta)).eval = some b ↔
    ∀ v, (ms.mapIdx fun i m => m.holds v (here ++ [i])).any id = b := by
  rw [eval, evalAll_eq_map]
  cases b with
  | true => rw [disj_eq_true, exists_eval_iff ih, forall_any_eq_true]
  | false => rw [disj_eq_false, forall_eval_iff ih, forall_any_eq_false]

end

/-- A condition has a value exactly if every choice leads to it. -/
theorem eval_ofMeta_iff (m : Meta) (here : Occurrence) (b : Bool) :
    (ofMeta m).eval = some b ↔ ∀ v, m.holds v here = b := by
  induction m using Meta.induction generalizing here b with
  | path p =>
    by_cases hp : p.isWord "test"
    · simp only [ofMeta, holds, if_pos hp, eval]
      exact ⟨fun h _ => Option.some.inj h, fun h => congrArg some (h default)⟩
    · simp only [ofMeta, holds, if_neg hp]
      exact eval_unknown_iff here _ b
  | nameValue p value =>
    simp only [ofMeta, holds]
    exact eval_unknown_iff here _ b
  | list p d args ih =>
    cases hms : Meta.listOfTokens? args with
    | none =>
      simp only [ofMeta_list_of_none hms, holds_list_of_none hms]
      exact eval_unknown_iff here _ b
    | some ms =>
      have ih := ih ms hms
      simp only [ofMeta_list hms, holds_list hms]
      split
      · rcases ms with _ | ⟨m, _ | ⟨n, ms⟩⟩
        · exact eval_unknown_iff here _ b
        · exact eval_not_iff b fun b => ih m (by simp) _ b
        · simp only [List.mapIdx_cons]
          exact eval_unknown_iff here _ b
      · split
        · exact eval_all_iff ih b
        · split
          · exact eval_any_iff ih b
          · exact eval_unknown_iff here _ b

end Condition

/-- Whether an item with these attributes is in a build without tests in which `build` decides all
predicates but `test`. -/
def ExistsIn (build : Meta → Bool) (attrs : List Attribute) : Prop :=
  ∀ a ∈ attrs, ∀ m, a.predicate? = some m → m.holds (fun _ => build) [] = true

/-- A predicate has a value exactly if it has that value whatever its parts that cannot be told
are, each by itself. So what is for tests alone is in no build without tests. -/
theorem eval_iff_forall_choice :
    (∀ (m : Meta) (b : Bool), (Condition.ofMeta m).eval = some b ↔ ∀ v, m.holds v [] = b) ∧
    ∀ attrs, isTestOnly attrs = true → ∀ build, ¬ExistsIn build attrs := by
  refine ⟨fun m => Condition.eval_ofMeta_iff m [], fun attrs h build hbuild => ?_⟩
  obtain ⟨m, hm, hfalse⟩ := List.any_eq_true.1 h
  obtain ⟨a, ha, hpred⟩ := List.mem_filterMap.1 hm
  have hholds := (Condition.eval_ofMeta_iff m [] false).1 (of_decide_eq_true hfalse) fun _ => build
  rw [hbuild a ha m hpred] at hholds
  cases hholds

/-- Attributes of a module whose condition is false without tests only because each part of a
disjunction is. -/
def slowTests : List Attribute :=
  (DataItem.ofText? "#[cfg(any(all(unix, test), not(any(not(test), feature = \"x\"))))]
    struct Slow;".toList).elim [] DataItem.attrs

theorem not_existsIn_slowTests :
    isTestOnly slowTests = true ∧ ∀ build, ¬ExistsIn build slowTests := by
  have h : isTestOnly slowTests = true := by decide +kernel
  exact ⟨h, eval_iff_forall_choice.2 slowTests h⟩

end SanitizeGen
