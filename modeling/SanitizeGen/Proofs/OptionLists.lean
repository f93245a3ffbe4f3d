import SanitizeGen.Tag.Options

/-!
# What lists of options hold

`ReadsOptions handle s ts s'` says that the options in `ts` take the state from `s` to `s'`, one
after the other, with a comma between them and perhaps one behind the last. `readOptions` succeeds
exactly with such states (`readOptions_eq_ok_iff`).
-/

namespace SanitizeGen

namespace Tokens

variable {ts r : Tokens} {i : Ident} {is : List Ident} {p : SimplePath}

theorem startsOpChars_singleton {c : Char} :
    startsOpChars [c] ts = true ↔ ∃ j rest, ts = .leaf (.punct c j) :: rest := by
  constructor
  · intro h
    unfold startsOpChars at h
    split at h
    · contradiction
    · rename_i d e j r heq
      obtain rfl := (List.cons.inj heq).1
      obtain rfl := beq_iff_eq.1 h
      exact ⟨j, _, rfl⟩
    · rename_i hne heq
      exact absurd (List.cons.inj heq).2.symm hne
    · cases h
  · rintro ⟨j, rest, rfl⟩
    rw [startsOpChars, beq_iff_eq]

theorem startsOp_comma : ts.startsOp "," = true ↔ ∃ j rest, ts = .leaf (.punct ',' j) :: rest :=
  startsOpChars_singleton

/-! ### Names of options -/

theorem length_of_moreSegments (h : moreSegments ts = .ok (is, r)) : r.length ≤ ts.length := by
  induction ts using moreSegments.induct generalizing is r with
  | case1 j i rest is' r' heq ih =>
    rw [moreSegments, heq] at h
    obtain ⟨-, rfl⟩ := Prod.mk.inj (Except.ok.inj h)
    have hle := ih heq
    simp only [List.length_cons]
    omega
  | case2 j i rest e heq ih =>
    rw [moreSegments, heq] at h
    cases h
  | case3 j rest hrest =>
    rw [moreSegments] at h
    · cases h
    · exact hrest
  | case4 ts hts =>
    rw [moreSegments] at h
    · obtain ⟨-, rfl⟩ := Prod.mk.inj (Except.ok.inj h)
      exact Nat.le_refl _
    · exact hts

/-- A single word where no further segment follows. -/
theorem moreSegments_eq_nil (h : moreSegments ts = .ok ([], r)) : r = ts := by
  unfold moreSegments at h
  split at h
  · split at h
    · split at h
      · simp at h
      · cases h
    · cases h
  · exact (Prod.mk.inj (Except.ok.inj h)).2.symm

theorem moreSegments_punct {c : Char} {j : Bool} (hc : c ≠ ':') :
    moreSegments (.leaf (.punct c j) :: r) = .ok ([], .leaf (.punct c j) :: r) := by
  unfold moreSegments
  split
  · rename_i heq
    cases heq
    exact absurd rfl hc
  · rfl

/-- The name of an option starts with a word, perhaps after double colons. -/
theorem exists_of_optionName (h : optionName ts = .ok (p, r)) : ∃ i is rest,
    (if p.leading then ts.skip 2 else ts) = .leaf (.word i) :: rest ∧
      moreSegments rest = .ok (is, r) ∧ p.segments = i :: is := by
  unfold optionName at h
  simp only at h
  split at h
  · cases h
  · rename_i i rest heq
    split at h
    · rename_i is r' hmore
      obtain ⟨rfl, rfl⟩ := Prod.mk.inj (Except.ok.inj h)
      exact ⟨i, is, rest, heq, hmore, rfl⟩
    · cases h
  · rcases hl : startsLiteral (if ts.startsOp "::" then ts.skip 2 else ts) with _ | _
    · simp [hl] at h
    · simp [hl] at h

theorem length_of_optionName (h : optionName ts = .ok (p, r)) : r.length < ts.length := by
  obtain ⟨i, is, rest, heq, hmore, -⟩ := exists_of_optionName h
  have hle := length_of_moreSegments hmore
  have hskip : (if p.leading then ts.skip 2 else ts).length ≤ ts.length := by
    split
    · simp [skip]
    · exact Nat.le_refl _
  rw [heq, List.length_cons] at hskip
  omega

/-- A single word is the name of an option if no further segment follows. -/
theorem optionName_eq_word : optionName ts = .ok (⟨false, [i]⟩, r) ↔
    ts = .leaf (.word i) :: r ∧ moreSegments r = .ok ([], r) := by
  constructor
  · intro h
    obtain ⟨j, is, rest, heq, hmore, hsegments⟩ := exists_of_optionName h
    obtain ⟨rfl, rfl⟩ := List.cons.inj hsegments
    obtain rfl := moreSegments_eq_nil hmore
    exact ⟨heq, hmore⟩
  · rintro ⟨rfl, hmore⟩
    have hword : startsOp (.leaf (.word i) :: r) "::" = false := rfl
    simp only [optionName, hword, Bool.false_eq_true, ↓reduceIte, hmore]

end Tokens

theorem SimplePath.isWord_iff {p : SimplePath} {w : String} :
    p.isWord w = true ↔ ∃ i, p = ⟨false, [i]⟩ ∧ i.text = w := by
  obtain ⟨leading, segments⟩ := p
  simp only [isWord, Bool.and_eq_true, Bool.not_eq_true', beq_iff_eq, List.map_eq_singleton_iff,
    mk.injEq]
  constructor
  · rintro ⟨rfl, i, rfl, hi⟩
    exact ⟨i, ⟨rfl, rfl⟩, hi⟩
  · rintro ⟨i, ⟨rfl, rfl⟩, hi⟩
    exact ⟨rfl, i, rfl, hi⟩

/-! ### Lists -/

section

variable {σ ε : Type}

/-- The options in `ts` take the state from `s` to `s'`. -/
inductive ReadsOptions (handle : σ → SimplePath → Tokens → Except ε (σ × Tokens)) :
    σ → Tokens → σ → Prop where
  | nil {s} : ReadsOptions handle s [] s
  | last {s ts name r s'} : ts.optionName = .ok (name, r) → handle s name r = .ok (s', []) →
      ReadsOptions handle s ts s'
  | comma {s ts name r s' j rest s''} : ts.optionName = .ok (name, r) →
      handle s name r = .ok (s', .leaf (.punct ',' j) :: rest) → ReadsOptions handle s' rest s'' →
      ReadsOptions handle s ts s''

/-- The handler reads on from where it starts. -/
def ReadsOn (handle : σ → SimplePath → Tokens → Except ε (σ × Tokens)) : Prop :=
  ∀ {s name r s' r'}, handle s name r = .ok (s', r') → r'.length ≤ r.length

variable {form : OptionError → ε} {handle : σ → SimplePath → Tokens → Except ε (σ × Tokens)}
  {s s' : σ} {ts : Tokens}

theorem readOptions_go_eq_ok (hon : ReadsOn handle) {fuel : Nat} (hts : ts ≠ [])
    (hfuel : ts.length ≤ fuel) :
    readOptions.go form handle fuel s ts = .ok s' ↔ ReadsOptions handle s ts s' := by
  induction fuel generalizing s ts with
  | zero => exact absurd (List.length_eq_zero_iff.1 (Nat.le_zero.1 hfuel)) hts
  | succ fuel ih =>
    rw [readOptions.go]
    constructor
    · intro h
      split at h
      · cases h
      rename_i name r hname
      split at h
      · cases h
      · rename_i s₁ hhandle
        obtain rfl := Except.ok.inj h
        exact .last hname hhandle
      · rename_i s₁ r' hne hhandle
        split at h
        · rename_i hcomma
          obtain ⟨j, rest, rfl⟩ := Tokens.startsOp_comma.1 hcomma
          have hlt := Tokens.length_of_optionName hname
          have hle := hon hhandle
          split at h
          · rename_i hend
            obtain rfl := List.isEmpty_iff.1 hend
            obtain rfl := Except.ok.inj h
            exact .comma hname hhandle .nil
          · rename_i hmore
            refine .comma hname hhandle ((ih ?_ ?_).1 h)
            · exact fun hrest => hmore (List.isEmpty_iff.2 hrest)
            · rw [List.length_cons] at hle
              show rest.length ≤ fuel
              omega
        · cases h
    · intro h
      cases h with
      | nil => exact absurd rfl hts
      | last hname hhandle => simp only [hname, hhandle]
      | @comma _ _ name r s₁ j rest _ hname hhandle hrest =>
        have hlt := Tokens.length_of_optionName hname
        have hle := hon hhandle
        rw [List.length_cons] at hle
        simp only [hname, hhandle, Tokens.startsOp_comma.2 ⟨j, rest, rfl⟩, if_true]
        show (if List.isEmpty rest = true then _ else readOptions.go form handle fuel s₁ rest) = _
        rcases rest with _ | ⟨t, rest⟩
        · cases hrest with
          | nil => rfl
          | last hname => exact absurd (Tokens.length_of_optionName hname) (by simp)
          | comma hname => exact absurd (Tokens.length_of_optionName hname) (by simp)
        · exact (ih (by simp) (by omega)).2 hrest

/-- `readOptions` succeeds exactly with the states that the options lead to. -/
theorem readOptions_eq_ok_iff (hon : ReadsOn handle) :
    readOptions form handle s ts = .ok s' ↔ ReadsOptions handle s ts s' := by
  rw [readOptions]
  split
  · rename_i hts
    obtain rfl := List.isEmpty_iff.1 hts
    constructor
    · intro h
      obtain rfl := Except.ok.inj h
      exact .nil
    · intro h
      cases h with
      | nil => rfl
      | last hname => exact absurd (Tokens.length_of_optionName hname) (by simp)
      | comma hname => exact absurd (Tokens.length_of_optionName hname) (by simp)
  · rename_i hts
    exact readOptions_go_eq_ok hon (by simpa using hts) (Nat.le_refl _)

end

end SanitizeGen
