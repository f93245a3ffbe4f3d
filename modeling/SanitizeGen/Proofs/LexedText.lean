import SanitizeGen.Proofs.WordText
import SanitizeGen.Token.Lexer

/-!
# Texts and the lexemes they read as

`Lexeme.Reads s ls` says that reading `s` step by step yields `ls`. There is one rule for each kind
of token that generated code is made of: `Reads.word`, `Reads.punct`, `Reads.string` and
`Reads.number`.
`TokenTree.ofText?_of_reads` turns the lexemes of token trees into the trees that the text is.
-/

namespace SanitizeGen

open Text Token

/-! ### Words are no literals -/

/-- No quote and no raw mark follows the letters at the head of `s`. -/
def QuoteFree (s : List Char) : Prop :=
  ∀ c ∈ (s.dropWhile isIdentContinue).head?, c ≠ '"' ∧ c ≠ '\'' ∧ c ≠ '#'

namespace QuoteFree

variable {c : Char} {r : List Char}

theorem tail (h : QuoteFree (c :: r)) (hc : isIdentContinue c = true) : QuoteFree r := by
  rwa [QuoteFree, List.dropWhile_cons_of_pos hc] at h

theorem head_ne (h : QuoteFree (c :: r)) : c ≠ '"' ∧ c ≠ '\'' ∧ c ≠ '#' := by
  rcases hc : isIdentContinue c with _ | _
  · rw [QuoteFree, List.dropWhile_cons_of_neg (by simp [hc])] at h
    exact h c rfl
  · exact ⟨ne_of_isIdentContinue hc rfl, ne_of_isIdentContinue hc rfl,
      ne_of_isIdentContinue hc rfl⟩

/-- No raw string starts behind letters that could mark one. -/
theorem afterRaw_eq_none (rules : Literal.RawRules) (h : QuoteFree r) :
    Literal.afterRaw rules r = none := by
  cases r with
  | nil => rfl
  | cons c r =>
    obtain ⟨hq, -, hm⟩ := h.head_ne
    have ht : (c :: r).takeWhile (· == '#') = [] := List.takeWhile_cons_of_neg (by simpa using hm)
    simp only [Literal.afterRaw, ht, List.length_nil, List.drop_zero]
    rw [if_neg (by decide)]
    split
    · rename_i heq
      exact absurd (List.cons.inj heq).1 hq
    · rfl

theorem literalMarks_eq_false (h : QuoteFree r) :
    Lexeme.literalMarks.any (·.isPrefixOf r) = false := by
  rw [List.any_eq_false]
  intro m hm hp
  obtain ⟨u, rfl⟩ := List.isPrefixOf_iff_prefix.1 hp
  simp only [Lexeme.literalMarks, List.mem_map, List.mem_cons, List.not_mem_nil, or_false] at hm
  obtain ⟨_, (rfl | rfl | rfl | rfl | rfl | rfl | rfl | rfl | rfl | rfl), rfl⟩ := hm
  · exact (h '"' rfl).1 rfl
  · exact (h '#' rfl).2.2 rfl
  · exact (h '#' rfl).2.2 rfl
  · exact (h '"' rfl).1 rfl
  · exact (h '\'' rfl).2.1 rfl
  · exact (h '"' rfl).1 rfl
  · exact (h '#' rfl).2.2 rfl
  · exact (h '"' rfl).1 rfl
  · exact (h '"' rfl).1 rfl
  · exact (h '#' rfl).2.2 rfl

end QuoteFree

namespace Literal

variable {c : Char} {r : List Char}

theorem afterFloatDigits_word (hc : isIdentStart c = true) : afterFloatDigits (c :: r) = none := by
  simp [afterFloatDigits, isAsciiDigit_of_isIdentStart hc]

theorem ten_le_hexValue {d : Nat} (hc : isIdentStart c = true) (h : hexValue c = some d) :
    10 ≤ d := by
  simp only [hexValue, isAsciiDigit_of_isIdentStart hc, Bool.false_eq_true, ↓reduceIte] at h
  split at h
  · simp only [Option.some.injEq] at h
    omega
  · split at h
    · simp only [Option.some.injEq] at h
      omega
    · cases h

theorem afterIntegerDigits_word (hc : isIdentStart c = true) :
    afterIntegerDigits 10 true (c :: r) = none := by
  rw [afterIntegerDigits]
  split
  · rfl
  · rcases hv : hexValue c with _ | d
    · rfl
    · have hd := ten_le_hexValue hc hv
      simp [isAsciiDigit_of_isIdentStart hc, Nat.not_lt.2 hd]

theorem afterInteger_word (hc : isIdentStart c = true) : afterInteger (c :: r) = none := by
  have h0 : c ≠ '0' := by
    rintro rfl
    revert hc
    decide
  unfold afterInteger
  split <;> rename_i heq
  · exact absurd (List.cons.inj heq).1 h0
  · exact absurd (List.cons.inj heq).1 h0
  · exact absurd (List.cons.inj heq).1 h0
  · exact afterIntegerDigits_word hc

/-- A plain word is no literal and marks none. -/
theorem take?_word (hc : isIdentStart c = true) (h : QuoteFree (c :: r)) :
    take? (c :: r) = none := by
  have hr := h.tail (isIdentContinue_of_start hc)
  -- letters that mark a literal have its quote or its hashes behind them
  have hquote {q : Char} {t : List Char} (hq : r = q :: t) : q ≠ '"' ∧ q ≠ '\'' := by
    rw [hq] at hr
    exact ⟨hr.head_ne.1, hr.head_ne.2.1⟩
  have hraw (rules : RawRules) {t : List Char} (ht : r = 'r' :: t) :
      (afterRaw rules t).map dropSuffix = none := by
    rw [ht] at hr
    rw [(hr.tail rfl).afterRaw_eq_none]
    rfl
  rw [take?, List.findSome?_eq_none_iff]
  simp only [candidates, afterFloatDigits_word hc, afterInteger_word hc, List.mem_cons,
    List.not_mem_nil, or_false]
  rintro _ (rfl | rfl | rfl | rfl | rfl | rfl | rfl)
  · split <;> rename_i heq
    · exact absurd (List.cons.inj heq).1 h.head_ne.1
    · rw [← (List.cons.inj heq).2, hr.afterRaw_eq_none]
      rfl
    · rfl
  · split <;> rename_i heq
    · exact absurd rfl (hquote (List.cons.inj heq).2).1
    · rw [hraw _ (List.cons.inj heq).2]
      rfl
    · rfl
  · split <;> rename_i heq
    · exact absurd rfl (hquote (List.cons.inj heq).2).1
    · rw [hraw _ (List.cons.inj heq).2]
      rfl
    · rfl
  · split <;> rename_i heq
    · exact absurd rfl (hquote (List.cons.inj heq).2).2
    · rfl
  · split <;> rename_i heq
    · exact absurd (List.cons.inj heq).1 h.head_ne.2.1
    · rfl
  · rfl
  · rfl

/-- A raw word is no raw string: a letter follows its mark. -/
theorem take?_rawWord (hc : isIdentStart c = true) : take? ('r' :: '#' :: c :: r) = none := by
  have hq : c ≠ '"' := ne_of_isIdentContinue (isIdentContinue_of_start hc) rfl
  have hm : c ≠ '#' := ne_of_isIdentContinue (isIdentContinue_of_start hc) rfl
  have hraw (rules : RawRules) : afterRaw rules ('#' :: c :: r) = none := by
    simp [afterRaw, hm, hq]
  simp [take?, candidates, hraw, afterFloatDigits_word (c := 'r') rfl,
    afterInteger_word (c := 'r') rfl]

end Literal

/-! ### One step -/

namespace Lexeme

variable {c : Char} {r s : List Char} {i : Ident}

theorem doc?_eq_none (hc : c ≠ '/') : doc? (c :: r) = none := by
  have h : startsDoc (c :: r) = false := by
    unfold startsDoc
    split <;> simp_all
  unfold doc?
  rw [if_neg (by simp [h])]

theorem skipTrivia_eq (hc : isSeparator c = false) (hs : c ≠ '/') :
    skipTrivia (c :: r) = c :: r := by
  have h : dropTrivium (c :: r) = none := by
    unfold dropTrivium
    split <;> simp_all
  simp [skipTrivia, skipTrivia.go, h]

theorem ofDelimiter?_eq_none (hc : isIdentStart c = true) : ofDelimiter? c = none := by
  unfold ofDelimiter?
  split <;> first | rfl | cases hc

theorem startsPunct_eq_false (hc : c ∉ punctuation) : startsPunct (c :: r) = false := by
  unfold startsPunct
  split <;> rename_i heq
  · rfl
  · rfl
  · rw [← (List.cons.inj heq).1]
    simpa using hc
  · rfl

theorem not_mem_punctuation_of_isIdentStart (hc : isIdentStart c = true) : c ∉ punctuation := by
  have h : punctuation.all (fun d => !isIdentStart d) = true := by decide
  intro hp
  have hn := List.all_eq_true.1 h c hp
  rw [hc] at hn
  cases hn

theorem punct?_eq_none (hc : isIdentStart c = true) : punct? (c :: r) = none := by
  have hq : c ≠ '\'' := ne_of_isIdentContinue (isIdentContinue_of_start hc) rfl
  unfold punct?
  split <;> rename_i heq
  · exact absurd (List.cons.inj heq).1 hq
  · obtain ⟨rfl, rfl⟩ := List.cons.inj heq
    rw [startsPunct_eq_false (not_mem_punctuation_of_isIdentStart hc)]
    rfl
  · rfl

/-- Whether a word of generated code ends in front of `s`. -/
def WordEnds (s : List Char) : Prop := ∀ c ∈ s.head?, c ∈ [':', '!', '(', ')', ',', '.']

theorem WordEnds.cons (s : List Char) (hc : c ∈ [':', '!', '(', ')', ',', '.'] := by decide) :
    WordEnds (c :: s) := by
  intro d hd
  obtain rfl : c = d := by simpa using hd
  exact hc

/-- What ends a word neither goes on with it nor makes it a prefix of a literal. -/
theorem WordEnds.of_mem (h : WordEnds s) (hc : c ∈ s.head?) :
    isIdentContinue c = false ∧ c ≠ '"' ∧ c ≠ '\'' ∧ c ≠ '#' := by
  have hm := h c hc
  simp only [List.mem_cons, List.not_mem_nil, or_false] at hm
  rcases hm with rfl | rfl | rfl | rfl | rfl | rfl <;> decide

theorem WordEnds.endsAt (h : WordEnds s) : Ident.EndsAt s := by
  intro c hc
  obtain ⟨hi, -, -, hh⟩ := h.of_mem hc
  exact ⟨hi, hh⟩

theorem WordEnds.quoteFree_name (h : WordEnds s) : QuoteFree (i.name.toList ++ s) := by
  rw [QuoteFree, Ident.dropWhile_name_append h.endsAt]
  intro c hc
  exact (h.of_mem hc).2

/-- A word in front of what ends it is one token. -/
theorem token?_word (h : WordEnds s) : token? (i.text.toList ++ s) = some (.word i, s) := by
  obtain ⟨c, r, hn, hc, -⟩ := i.exists_name_eq_cons
  have hi := Ident.take?_text_append (i := i) h.endsAt
  have hq := h.quoteFree_name (i := i)
  rcases hr : i.raw with _ | _
  · rw [Ident.text_of_not_raw i hr] at hi ⊢
    rw [hn, List.cons_append] at hi hq ⊢
    rw [token?, Literal.take?_word hc hq, punct?_eq_none hc, word?, hq.literalMarks_eq_false, hi]
    rfl
  · have hq1 : c ≠ '"' := ne_of_isIdentContinue (isIdentContinue_of_start hc) rfl
    have hq2 : c ≠ '#' := ne_of_isIdentContinue (isIdentContinue_of_start hc) rfl
    have hm : literalMarks.any (·.isPrefixOf ('r' :: '#' :: c :: (r ++ s))) = false := by
      simp [literalMarks, List.isPrefixOf, hq1.symm, hq2.symm]
    rw [Ident.text_of_raw i hr, hn] at hi ⊢
    simp only [List.cons_append] at hi ⊢
    rw [token?, Literal.take?_rawWord hc, punct?_eq_none rfl, word?, hm, hi]
    rfl

theorem exists_text_eq_cons : ∃ c r, i.text.toList = c :: r ∧ isIdentStart c = true := by
  obtain ⟨c, r, hn, hc, -⟩ := i.exists_name_eq_cons
  rcases hr : i.raw with _ | _
  · exact ⟨c, r, by rw [Ident.text_of_not_raw i hr, hn], hc⟩
  · exact ⟨'r', _, Ident.text_of_raw i hr, rfl⟩

/-- The token of a string literal whose content needs no escape. -/
def quoted (s : List Char) : Token := .literal ⟨.string, '"' :: (s ++ ['"'])⟩

/-- Whether a character stands for itself between quotes. -/
def isPlain (c : Char) : Bool := c != '"' && c != '\\' && c != '\r'

theorem close_plain (hs : ∀ c ∈ s, isPlain c = true) :
    Quotation.close .text .plain (s ++ '"' :: r) = some (s, r) := by
  induction s with
  | nil => rfl
  | cons c s ih =>
    have hc := hs c (by simp)
    simp only [isPlain, Bool.and_eq_true, bne_iff_ne] at hc
    have hstep : Quotation.step .text .plain c = some (.plain, [c]) := by
      simp [Quotation.step, Quotation.plainStep, hc, EscapeRules.text]
    rw [List.cons_append, Quotation.close, if_neg (by simp [hc]), hstep]
    simp [ih fun d hd => hs d (by simp [hd])]

theorem stringValue_quoted (hs : ∀ c ∈ s, isPlain c = true) :
    Literal.stringValue ⟨.string, '"' :: (s ++ ['"'])⟩ = some s := by
  simp only [Literal.stringValue, close_plain hs, Option.map_some]

theorem token?_string (hs : ∀ c ∈ s, isPlain c = true)
    (hr : ∀ c ∈ r.head?, isIdentStart c = false) :
    token? ('"' :: (s ++ '"' :: r)) = some (quoted s, r) := by
  have hd : Literal.dropSuffix r = r := by
    cases r with
    | nil => rfl
    | cons c r => rw [Literal.dropSuffix, if_neg (by simp [hr c rfl])]
  have ht : ('"' :: (s ++ '"' :: r)).take (('"' :: (s ++ '"' :: r)).length - r.length) =
      '"' :: (s ++ ['"']) := by
    have hl : ('"' :: (s ++ '"' :: r)).length - r.length = ('"' :: (s ++ ['"'])).length := by
      simp only [List.length_cons, List.length_append, List.length_nil]
      omega
    rw [hl, show '"' :: (s ++ '"' :: r) = ('"' :: (s ++ ['"'])) ++ r by simp, List.take_left]
  have hl : Literal.take? ('"' :: (s ++ '"' :: r)) = some (⟨.string, '"' :: (s ++ ['"'])⟩, r) := by
    simp only [Literal.take?, Literal.candidates, afterQuotation, close_plain hs, Option.map_some,
      hd, List.findSome?_cons, ht]
  rw [token?, hl]
  rfl

/-! ### Numbers -/

/-- Whether a number of generated code ends in front of `s`. -/
def NumberEnds (s : List Char) : Prop := ∃ c r, s = c :: r ∧ (c = ',' ∨ c = ')')

theorem NumberEnds.wordEnds (hr : NumberEnds r) : WordEnds r := by
  obtain ⟨c, r, rfl, rfl | rfl⟩ := hr <;> exact .cons _

theorem endNumber_eq (hr : NumberEnds r) : Literal.endNumber r = some r := by
  obtain ⟨c, r, rfl, rfl | rfl⟩ := hr <;> rfl

theorem afterIntegerDigits_append (hd : ∀ c ∈ s, isAsciiDigit c = true) (hr : NumberEnds r)
    (empty : Bool) (he : s = [] → empty = false) :
    Literal.afterIntegerDigits 10 empty (s ++ r) = some r := by
  induction s generalizing empty with
  | nil =>
    obtain ⟨c, r, rfl, hc⟩ := hr
    rw [he rfl]
    rcases hc with rfl | rfl <;> rfl
  | cons c s ih =>
    have hc := hd c (by simp)
    have hv : hexValue c = some (c.toNat - '0'.toNat) := by rw [hexValue, if_pos hc]
    have hn : c.toNat - '0'.toNat < 10 := by
      simp [isAsciiDigit, Char.le_def, UInt32.le_iff_toNat_le] at hc
      simp
      omega
    have hu : c ≠ '_' := by
      rintro rfl
      revert hc
      decide
    rw [List.cons_append, Literal.afterIntegerDigits, if_neg (by simpa using hu), hv]
    simp only [if_pos hn]
    exact ih (fun d hd' => hd d (by simp [hd'])) false fun _ => rfl

/-- Digits in front of what ends a number are a whole number: no base is marked behind the first. -/
theorem afterInteger_append (hd : ∀ c ∈ s, isAsciiDigit c = true) (hs : s ≠ [])
    (hr : NumberEnds r) : Literal.afterInteger (s ++ r) = some r := by
  have hi := afterIntegerDigits_append hd hr true fun h => absurd h hs
  have hmark (x : Char) (u : List Char) (hx : x ≠ ',' ∧ x ≠ ')') (hx' : isAsciiDigit x = false) :
      s ++ r ≠ '0' :: x :: u := by
    intro h
    obtain ⟨e, r, rfl, he⟩ := hr
    obtain ⟨c, t, rfl⟩ := List.exists_cons_of_ne_nil hs
    obtain ⟨-, h⟩ := List.cons.inj h
    cases t with
    | nil =>
      obtain ⟨rfl, -⟩ := List.cons.inj h
      rcases he with he | he
      · exact hx.1 he
      · exact hx.2 he
    | cons d t =>
      rw [← (List.cons.inj h).1, hd d (by simp)] at hx'
      cases hx'
  unfold Literal.afterInteger
  split <;> rename_i heq
  · exact absurd heq (hmark 'x' _ (by decide) rfl)
  · exact absurd heq (hmark 'o' _ (by decide) rfl)
  · exact absurd heq (hmark 'b' _ (by decide) rfl)
  · exact hi

/-- Digits in front of what ends a number have no point and no exponent. -/
theorem afterFloatDigits_append (hd : ∀ c ∈ s, isAsciiDigit c = true) (hr : NumberEnds r) :
    Literal.afterFloatDigits (s ++ r) = none := by
  obtain ⟨e, r, rfl, he⟩ := hr
  have hed : isAsciiDigit e = false ∧ e ≠ '_' := by rcases he with rfl | rfl <;> decide
  have hdrop : Literal.dropDigits (s ++ e :: r) = e :: r := by
    rw [Literal.dropDigits, List.dropWhile_append_of_pos fun x hx => by simp [hd x hx],
      List.dropWhile_cons_of_neg (by simp [hed])]
  unfold Literal.afterFloatDigits
  rw [hdrop]
  rcases he with rfl | rfl <;> simp

theorem token?_digits (hd : ∀ c ∈ s, isAsciiDigit c = true) (hs : s ≠ []) (hr : NumberEnds r) :
    token? (s ++ r) = some (.literal ⟨.integer, s⟩, r) := by
  have hint := afterInteger_append hd hs hr
  have hfloat := afterFloatDigits_append hd hr
  have ht : (s ++ r).take ((s ++ r).length - r.length) = s := by
    rw [List.length_append, Nat.add_sub_cancel, List.take_left]
  obtain ⟨c, t, rfl⟩ := List.exists_cons_of_ne_nil hs
  have hne (x : Char) (hx : isAsciiDigit x = false) : c ≠ x := by
    rintro rfl
    rw [hd c (by simp)] at hx
    cases hx
  have hl : Literal.take? (c :: t ++ r) = some (⟨.integer, c :: t⟩, r) := by
    rw [List.cons_append] at hint hfloat ht ⊢
    simpa [Literal.take?, Literal.candidates, hint, hfloat, hne '"' rfl, hne 'r' rfl, hne 'b' rfl,
      hne 'c' rfl, hne '\'' rfl, endNumber_eq hr] using ht
  rw [token?, hl]

theorem toString_toList (n : Nat) : (toString n).toList = Nat.toDigits 10 n := Nat.toList_repr

theorem isAsciiDigit_of_mem_toString (n : Nat) :
    ∀ c ∈ (toString n).toList, isAsciiDigit c = true := by
  intro c hc
  rw [toString_toList] at hc
  have h := Nat.isDigit_of_mem_toDigits (by decide) (by decide) hc
  simpa [Char.isDigit, isAsciiDigit, Char.le_def] using h

theorem isSeparator_of_isAsciiDigit (hc : isAsciiDigit c = true) : isSeparator c = false := by
  refine Bool.eq_false_iff.2 fun hs => ?_
  simp [isAsciiDigit, Char.le_def, UInt32.le_iff_toNat_le] at hc
  have h := toNat_of_isSeparator hs
  simp only [wideSeparators, List.mem_cons, List.not_mem_nil, or_false] at h
  omega

theorem startsPunct_word (i : Ident) : startsPunct (i.text.toList ++ s) = false := by
  obtain ⟨c, r, hi, hc⟩ := exists_text_eq_cons (i := i)
  rw [hi, List.cons_append, startsPunct_eq_false (not_mem_punctuation_of_isIdentStart hc)]

theorem startsPunct_number (n : Nat) : startsPunct ((toString n).toList ++ s) = false := by
  have hd := isAsciiDigit_of_mem_toString n
  obtain ⟨c, t, hct⟩ : ∃ c t, (toString n).toList = c :: t := by
    rw [toString_toList]
    exact List.exists_cons_of_ne_nil Nat.toDigits_ne_nil
  have hp : punctuation.all (fun d => !isAsciiDigit d) = true := by decide
  rw [hct, List.cons_append]
  refine startsPunct_eq_false fun h => ?_
  have hn := List.all_eq_true.1 hp c h
  rw [hd c (hct ▸ List.mem_cons_self)] at hn
  cases hn

/-! ### All steps -/

/-- The text `s` reads as the lexemes `ls`, one step after the other. -/
inductive Reads : List Char → List Lexeme → Prop where
  | done {s : List Char} : skipTrivia s = [] → Reads s []
  | step {s r : List Char} {ls ms : List Lexeme} : take? (skipTrivia s) = some (ls, r) →
      r.length < s.length → Reads r ms → Reads s (ls ++ ms)

namespace Reads

variable {ls : List Lexeme}

theorem go_eq (h : Reads s ls) {fuel : Nat} (hf : s.length ≤ fuel) :
    ofText?.go fuel s = some ls := by
  induction h generalizing fuel with
  | done hs =>
    unfold ofText?.go
    simp only [hs]
  | @step s r ls ms ht hl _ ih =>
    obtain ⟨fuel, rfl⟩ := Nat.exists_eq_add_of_lt (Nat.lt_of_lt_of_le hl hf)
    have hr := ih (Nat.le_add_right r.length fuel)
    rcases hs : skipTrivia s with _ | ⟨c, t⟩
    · rw [hs] at ht
      cases ht
    · rw [hs] at ht
      unfold ofText?.go
      simp only [hs, ht, hr, Option.map_some]

theorem ofText?_eq (h : Reads s ls) : Lexeme.ofText? s = some ls := h.go_eq (Nat.le_refl _)

/-- A step at a character that starts a token. -/
theorem cons {l : Lexeme} (hc : isSeparator c = false) (hs : c ≠ '/')
    (ht : take? (c :: s) = some ([l], r)) (hl : r.length ≤ s.length) (h : Reads r ls) :
    Reads (c :: s) ([l] ++ ls) :=
  .step (by rw [skipTrivia_eq hc hs, ht]) (by simp only [List.length_cons]; omega) h

theorem nil : Reads [] [] := .done rfl

theorem space (h : Reads s ls) : Reads (' ' :: s) ls := by
  cases h with
  | done hs => exact .done hs
  | step ht hl h => exact .step ht (Nat.lt_succ_of_lt hl) h

theorem opening (h : Reads s ls) : Reads ('(' :: s) (.opening .paren :: ls) :=
  .cons rfl (by decide) rfl (Nat.le_refl _) h

theorem closing (h : Reads s ls) : Reads (')' :: s) (.closing .paren :: ls) :=
  .cons rfl (by decide) rfl (Nat.le_refl _) h

theorem punct (hc : c ∈ [':', '!', ',', '.']) (h : Reads s ls) :
    Reads (c :: s) (.token (.punct c (startsPunct s)) :: ls) := by
  simp only [List.mem_cons, List.not_mem_nil, or_false] at hc
  rcases hc with rfl | rfl | rfl | rfl <;>
    exact .cons rfl (by decide) rfl (Nat.le_refl _) h

theorem word (i : Ident) (hs : WordEnds s) (h : Reads s ls) :
    Reads (i.text.toList ++ s) (.token (.word i) :: ls) := by
  have ht := token?_word (i := i) hs
  obtain ⟨c, r, hi, hc⟩ := exists_text_eq_cons (i := i)
  have hslash : c ≠ '/' := ne_of_isIdentContinue (isIdentContinue_of_start hc) rfl
  rw [hi, List.cons_append] at ht ⊢
  refine .cons (isSeparator_of_isIdentStart hc) hslash ?_ (by simp) h
  rw [take?, doc?_eq_none hslash]
  simp only [ofDelimiter?_eq_none hc, ht, Option.map_some]

theorem string {t : List Char} (ht : ∀ c ∈ t, isPlain c = true)
    (hs : ∀ c ∈ s.head?, isIdentStart c = false) (h : Reads s ls) :
    Reads ('"' :: (t ++ '"' :: s)) (.token (quoted t) :: ls) := by
  have hd : ofDelimiter? '"' = none := rfl
  refine .cons rfl (by decide) ?_ (by simp only [List.length_append, List.length_cons]; omega) h
  rw [take?, doc?_eq_none (by decide)]
  simp only [hd, token?_string ht hs, Option.map_some]

theorem number (n : Nat) (hs : NumberEnds s) (h : Reads s ls) :
    Reads ((toString n).toList ++ s) (.token (.literal ⟨.integer, (toString n).toList⟩) :: ls) := by
  have hne : (toString n).toList ≠ [] := by
    rw [toString_toList]
    exact Nat.toDigits_ne_nil
  have ht := token?_digits (isAsciiDigit_of_mem_toString n) hne hs
  obtain ⟨c, t, hct⟩ := List.exists_cons_of_ne_nil hne
  have hc := isAsciiDigit_of_mem_toString n c (hct ▸ List.mem_cons_self)
  have hslash : c ≠ '/' := by
    rintro rfl
    cases hc
  have hd : ofDelimiter? c = none := by
    unfold ofDelimiter?
    split <;> first | rfl | cases hc
  rw [hct, List.cons_append] at ht ⊢
  refine .cons (isSeparator_of_isAsciiDigit hc) hslash ?_ (by simp) h
  rw [take?, doc?_eq_none hslash]
  simp only [hd, ht, Option.map_some]

end Reads

end Lexeme

/-! ### Trees -/

namespace TokenTree

mutual

/-- The lexemes that a tree is assembled from. -/
def lexemes : TokenTree → List Lexeme
  | leaf t => [.token t]
  | group d ts => .opening d :: (lexemesAll ts ++ [.closing d])

def lexemesAll : List TokenTree → List Lexeme
  | [] => []
  | t :: ts => lexemes t ++ lexemesAll ts

end

@[simp] theorem lexemesAll_append (ts us : List TokenTree) :
    lexemesAll (ts ++ us) = lexemesAll ts ++ lexemesAll us := by
  induction ts with
  | nil => rfl
  | cons t ts ih => simp [lexemesAll, ih]

mutual

theorem assemble_lexemes (outer : List (Delimiter × List TokenTree)) (here : List TokenTree)
    (ls : List Lexeme) : (t : TokenTree) →
    assemble outer here (lexemes t ++ ls) = assemble outer (t :: here) ls
  | leaf t => rfl
  | group d ts => by
    rw [lexemes, List.cons_append, List.append_assoc, assemble, assemble_lexemesAll]
    simp [assemble]

theorem assemble_lexemesAll (outer : List (Delimiter × List TokenTree)) (here : List TokenTree)
    (ls : List Lexeme) : (ts : List TokenTree) →
    assemble outer here (lexemesAll ts ++ ls) = assemble outer (ts.reverse ++ here) ls
  | [] => rfl
  | t :: ts => by
    rw [lexemesAll, List.append_assoc, assemble_lexemes, assemble_lexemesAll]
    simp

end

/-- A text that reads as the lexemes of some trees is these trees. -/
theorem ofText?_of_reads {s : List Char} {ts : List TokenTree} (hs : Ident.dropMark s = s)
    (h : Lexeme.Reads s (lexemesAll ts)) : ofText? s = some ts := by
  have ha := assemble_lexemesAll [] [] [] ts
  rw [List.append_nil, List.append_nil] at ha
  rw [ofText?, hs, h.ofText?_eq, Option.bind_some, ha]
  simp [assemble]

end TokenTree

end SanitizeGen
