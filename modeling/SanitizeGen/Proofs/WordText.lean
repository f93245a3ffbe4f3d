import SanitizeGen.Ident

/-!
# The text of identifiers

An identifier consists of letters, which separate nothing. So its text is read back as the
identifier wherever it ends (`take?_text_append`).
-/

namespace SanitizeGen

open Text Token

/-! ### Letters -/

theorem ne_of_isIdentContinue {c d : Char} (hc : isIdentContinue c = true)
    (hd : isIdentContinue d = false) : c ≠ d := by
  rintro rfl
  rw [hc] at hd
  cases hd

theorem isAsciiDigit_of_isIdentStart {c : Char} (h : isIdentStart c = true) :
    isAsciiDigit c = false := by
  refine Bool.eq_false_iff.2 fun hd => ?_
  simp [isAsciiDigit, Char.le_def, UInt32.le_iff_toNat_le] at hd
  have hu : c ≠ '_' := by
    rintro rfl
    revert hd
    decide
  simp [isIdentStart, isAsciiLetter, Char.le_def, UInt32.le_iff_toNat_le, hu] at h
  omega

/-- The code points beyond ASCII that separate tokens. -/
def wideSeparators : List Nat :=
  [0x85, 0xa0, 0x1680, 0x2000, 0x2001, 0x2002, 0x2003, 0x2004, 0x2005, 0x2006, 0x2007, 0x2008,
   0x2009, 0x200a, 0x200e, 0x200f, 0x2028, 0x2029, 0x202f, 0x205f, 0x3000]

theorem toNat_of_isSeparator {c : Char} (h : isSeparator c = true) :
    c.toNat < 0x21 ∨ c.toNat ∈ wideSeparators := by
  simp only [isSeparator, isBlank, Bool.or_eq_true, Bool.and_eq_true, beq_iff_eq,
    decide_eq_true_eq] at h
  simp only [wideSeparators, List.mem_cons, List.not_mem_nil, or_false]
  rcases h with (h | rfl) | rfl
  · omega
  · decide
  · decide

theorem wideSeparators_not_letters : wideSeparators.all (fun n =>
    0x80 ≤ n && !identStartRanges.any fun r => r.1 ≤ n && n ≤ r.2) = true := by
  decide +kernel

theorem isSeparator_of_isIdentStart {c : Char} (h : isIdentStart c = true) :
    isSeparator c = false := by
  refine Bool.eq_false_iff.2 fun hs => ?_
  have hu : c ≠ '_' := by
    rintro rfl
    revert hs
    decide
  simp only [isIdentStart, isAsciiLetter, beq_eq_false_iff_ne.2 hu, Bool.or_false, Bool.or_eq_true,
    Bool.and_eq_true, decide_eq_true_eq, Char.le_def, UInt32.le_iff_toNat_le] at h
  rcases toNat_of_isSeparator hs with hn | hn
  · simp at h
    omega
  · have hw := List.all_eq_true.1 wideSeparators_not_letters _ hn
    rw [Bool.and_eq_true, decide_eq_true_eq] at hw
    have hr : inRanges identStartRanges c = false := by simpa [inRanges] using hw.2
    simp [hr] at h
    omega

/-! ### Identifiers -/

namespace Ident

variable (i : Ident)

theorem exists_name_eq_cons : ∃ c r, i.name.toList = c :: r ∧ isIdentStart c = true ∧
    ∀ d ∈ r, isIdentContinue d = true := by
  have h := i.isIdentText_name
  rcases hn : i.name.toList with _ | ⟨c, r⟩
  · simp [hn, isIdentText] at h
  · rw [hn, isIdentText, Bool.and_eq_true, List.all_eq_true] at h
    exact ⟨c, r, rfl, h.1, h.2⟩

variable {i} in
theorem isIdentContinue_of_mem_name {c : Char} (h : c ∈ i.name.toList) :
    isIdentContinue c = true := by
  obtain ⟨d, r, hn, hd, hr⟩ := i.exists_name_eq_cons
  rw [hn, List.mem_cons] at h
  rcases h with rfl | h
  · exact isIdentContinue_of_start hd
  · exact hr c h

theorem text_of_raw (h : i.raw = true) : i.text.toList = 'r' :: '#' :: i.name.toList := by
  simp [text, h]

theorem text_of_not_raw (h : i.raw = false) : i.text.toList = i.name.toList := by
  simp [text, h]

theorem ofName?_name : ofName? i.raw i.name.toList = some i := by
  have h : isIdentText (String.ofList i.name.toList).toList = true ∧
      (i.raw = true → String.ofList i.name.toList ∉ unrawableWords) := by
    rw [String.ofList_toList]
    exact ⟨i.isIdentText_name, i.rawable⟩
  rw [ofName?, dif_pos h]
  simp only [String.ofList_toList]

/-- Whether an identifier ends in front of `s`: neither a letter nor a raw mark follows. -/
def EndsAt (s : List Char) : Prop := ∀ c ∈ s.head?, isIdentContinue c = false ∧ c ≠ '#'

variable {i}

theorem EndsAt.cons {c : Char} (s : List Char) (hc : isIdentContinue c = false := by rfl)
    (hm : c ≠ '#' := by decide) : EndsAt (c :: s) := by
  intro d hd
  obtain rfl : c = d := by simpa using hd
  exact ⟨hc, hm⟩

theorem EndsAt.takeWhile_eq_nil {s : List Char} (h : EndsAt s) :
    s.takeWhile isIdentContinue = [] := by
  cases s with
  | nil => rfl
  | cons c s => exact List.takeWhile_cons_of_neg (by simp [(h c rfl).1])

theorem EndsAt.dropWhile_eq {s : List Char} (h : EndsAt s) : s.dropWhile isIdentContinue = s := by
  cases s with
  | nil => rfl
  | cons c s => exact List.dropWhile_cons_of_neg (by simp [(h c rfl).1])

theorem takeWhile_name_append {s : List Char} (h : EndsAt s) :
    (i.name.toList ++ s).takeWhile isIdentContinue = i.name.toList := by
  rw [List.takeWhile_append_of_pos fun _ => isIdentContinue_of_mem_name, h.takeWhile_eq_nil,
    List.append_nil]

theorem dropWhile_name_append {s : List Char} (h : EndsAt s) :
    (i.name.toList ++ s).dropWhile isIdentContinue = s := by
  rw [List.dropWhile_append_of_pos fun _ => isIdentContinue_of_mem_name, h.dropWhile_eq]

/-- No raw mark stands behind the first letter of a name. -/
theorem name_append_ne_raw {s r : List Char} (h : EndsAt s) :
    i.name.toList ++ s ≠ 'r' :: '#' :: r := by
  obtain ⟨c, cs, hn, -, hcs⟩ := i.exists_name_eq_cons
  rw [hn, List.cons_append]
  intro he
  obtain ⟨-, he⟩ := List.cons.inj he
  cases cs with
  | nil => exact (h '#' (by simp [show s = _ from he])).2 rfl
  | cons d ds =>
    obtain ⟨hd, -⟩ := List.cons.inj he
    exact ne_of_isIdentContinue (hcs d (by simp)) rfl hd

/-- The text of an identifier reads as the identifier. -/
theorem take?_text_append {s : List Char} (h : EndsAt s) :
    take? (i.text.toList ++ s) = some (i, s) := by
  rcases hr : i.raw with _ | _
  · rw [text_of_not_raw i hr, take?.eq_2 _ fun r => name_append_ne_raw h, takeWhile_name_append h,
      dropWhile_name_append h, ← hr, ofName?_name, Option.map_some]
  · rw [text_of_raw i hr, List.cons_append, List.cons_append, take?, takeWhile_name_append h,
      dropWhile_name_append h, ← hr, ofName?_name, Option.map_some]

end Ident

end SanitizeGen
