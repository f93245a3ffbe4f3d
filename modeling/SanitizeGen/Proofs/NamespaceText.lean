import Mathlib.Data.List.DropRight
import SanitizeGen.Proofs.LexedText
import SanitizeGen.Proofs.ResolvedTarget

/-!
# Namespaces as text

A text is a namespace if each of its parts between double colons is an identifier, after the word
`crate` with its double colons, or if nothing is left of it (`parse_iff_pathText`). White space
around a part does not count, so the text of a namespace is read as the namespace, also where white
space is put around its segments (`parse_spelled`).
-/

namespace SanitizeGen

open Text Token

/-! ### White space -/

namespace Text

variable {s t before after : List Char}

/-- A text of white space alone. -/
def Blank (s : List Char) : Prop := ∀ c ∈ s, isBlank c = true

instance (s : List Char) : Decidable (Blank s) :=
  decidable_of_iff (s.all isBlank = true) List.all_eq_true

theorem Blank.nil : Blank [] := nofun

theorem trim_eq (s : List Char) : trim s = (s.dropWhile isBlank).rdropWhile isBlank := rfl

theorem Blank.rdropWhile_append (h : Blank after) (s : List Char) :
    (s ++ after).rdropWhile isBlank = s.rdropWhile isBlank := by
  have hrev : ∀ c ∈ after.reverse, isBlank c = true := fun c hc => h c (List.mem_reverse.1 hc)
  rw [List.rdropWhile, List.reverse_append, List.dropWhile_append_of_pos hrev, List.rdropWhile]

/-- White space at the ends makes no difference. -/
theorem trim_pad (hb : Blank before) (ha : Blank after) (s : List Char) :
    trim (before ++ s ++ after) = trim s := by
  rw [trim_eq, List.append_assoc, List.dropWhile_append_of_pos hb, List.dropWhile_append]
  split
  · rename_i hnil
    rw [trim_eq, List.isEmpty_iff.1 hnil, List.dropWhile_eq_nil_iff.2 ha]
  · rw [ha.rdropWhile_append, trim_eq]

theorem exists_pad_trim (s : List Char) : ∃ before after, Blank before ∧ Blank after ∧
    s = before ++ trim s ++ after := by
  refine ⟨s.takeWhile isBlank, (s.dropWhile isBlank).rtakeWhile isBlank,
    fun _ => List.mem_takeWhile_imp, fun _ => List.mem_rtakeWhile_imp, ?_⟩
  rw [List.append_assoc, trim_eq, List.rdropWhile_append_rtakeWhile,
    List.takeWhile_append_dropWhile]

/-- A text without white space is kept in front of another one. -/
theorem trim_append (hne : t ≠ []) (ht : ∀ c ∈ t, isBlank c = false) (s : List Char) :
    trim (t ++ s) = t ++ s.rdropWhile isBlank := by
  obtain ⟨c, r, rfl⟩ := List.exists_cons_of_ne_nil hne
  rw [trim_eq, List.cons_append, List.dropWhile_cons_of_neg (by simp [ht c List.mem_cons_self]),
    ← List.cons_append]
  induction s using List.reverseRecOn with
  | nil =>
    rw [List.append_nil, List.rdropWhile_nil, List.append_nil, List.rdropWhile_eq_self_iff]
    intro h
    simp [ht _ (List.getLast_mem h)]
  | append_singleton s d ih =>
    rw [← List.append_assoc, List.rdropWhile_concat, List.rdropWhile_concat, ih]
    split <;> simp

/-! ### Parts of paths -/

/-- Whether a double colon is in a text. -/
def HasColons (s : List Char) : Prop := [':', ':'] <:+: s

theorem hasColons_cons {c : Char} :
    HasColons (c :: s) ↔ c = ':' ∧ s.head? = some ':' ∨ HasColons s := by
  rw [HasColons, List.infix_cons_iff, List.cons_prefix_cons, HasColons]
  rcases s with _ | ⟨d, s⟩
  · simp
  · simp [eq_comm]

theorem not_hasColons (h : ':' ∉ s) : ¬HasColons s := fun hs => h (hs.subset (by simp))

theorem not_hasColons_colon : ¬HasColons [':'] := fun h => by simpa using h.length_le

theorem not_hasColons_cons {c : Char} (h : ¬HasColons (c :: s)) :
    ¬(c = ':' ∧ s.head? = some ':') ∧ ¬HasColons s := by
  rwa [hasColons_cons, not_or] at h

theorem hasColons_append_left (h : ':' ∉ before) : HasColons (before ++ s) ↔ HasColons s := by
  induction before with
  | nil => rfl
  | cons c before ih =>
    rw [List.mem_cons, not_or] at h
    rw [List.cons_append, hasColons_cons, ih h.2]
    simp [Ne.symm h.1]

theorem hasColons_append_right (h : ':' ∉ after) : HasColons (s ++ after) ↔ HasColons s := by
  induction s with
  | nil => exact iff_of_false (not_hasColons h) (not_hasColons nofun)
  | cons c s ih =>
    rw [List.cons_append, hasColons_cons, hasColons_cons, ih]
    rcases s with _ | ⟨d, s⟩
    · have hhead : after.head? ≠ some ':' := fun he => h (List.mem_of_head? he)
      simp [hhead]
    · simp

/-- The parts of a text between its double colons. Each part but the last goes as far as the first
double colon: there is none in it, nor one that its last character and the colon behind it make. -/
inductive Parts : List Char → List (List Char) → Prop where
  | last {p} : ¬HasColons p → Parts p [p]
  | cons {p r ps} : ¬HasColons (p ++ [':']) → Parts r ps →
      Parts (p ++ ':' :: ':' :: r) (p :: ps)

theorem splitPath_ne_nil (s : List Char) : splitPath s ≠ [] := by
  fun_cases splitPath s <;> simp

theorem splitPath_cons {c : Char} (h : ¬(c = ':' ∧ s.head? = some ':')) :
    splitPath (c :: s) = (splitPath s).modifyHead (c :: ·) := by
  rw [splitPath.eq_2 _ _ fun r hc hs => h ⟨hc, by simp [hs]⟩]
  rcases hsplit : splitPath s with _ | ⟨p, ps⟩
  · exact absurd hsplit (splitPath_ne_nil s)
  · rfl

namespace Parts

variable {ps : List (List Char)}

theorem splitPath_eq (h : Parts s ps) : splitPath s = ps := by
  induction h with
  | @last p hp =>
    induction p with
    | nil => rfl
    | cons c p ih =>
      obtain ⟨hhead, hp⟩ := not_hasColons_cons hp
      rw [splitPath_cons hhead, ih hp, List.modifyHead_cons]
  | @cons p r ps hp _ ih =>
    induction p with
    | nil => rw [List.nil_append, splitPath, ih]
    | cons c p ihp =>
      obtain ⟨hhead, hp⟩ := not_hasColons_cons hp
      have hfirst : ¬(c = ':' ∧ (p ++ ':' :: ':' :: r).head? = some ':') := by
        rcases p with _ | ⟨d, p⟩ <;> simpa using hhead
      rw [List.cons_append, splitPath_cons hfirst, ihp hp, List.modifyHead_cons]

theorem cons_char {c : Char} (h : Parts s ps) (hc : ¬(c = ':' ∧ s.head? = some ':')) :
    Parts (c :: s) (ps.modifyHead (c :: ·)) := by
  cases h with
  | last hp => exact .last fun hs => (hasColons_cons.1 hs).elim hc hp
  | @cons p r ps hp hr =>
    refine .cons (p := c :: p) (fun hs => (hasColons_cons.1 hs).elim (fun hhead => hc ?_) hp) hr
    rcases p with _ | ⟨d, p⟩ <;> simpa using hhead

/-- White space in front of a text or behind it goes to its first or last part. -/
theorem pad (h : Parts s ps) (hb : Blank before) (ha : Blank after) :
    ∃ qs, Parts (before ++ s ++ after) qs ∧ qs.map trim = ps.map trim := by
  have hcolon {t : List Char} (ht : Blank t) : ':' ∉ t := fun hc => by cases ht _ hc
  induction h generalizing before with
  | @last p hp =>
    refine ⟨_, .last ?_, congrArg ([·]) (trim_pad hb ha p)⟩
    rwa [hasColons_append_right (hcolon ha), hasColons_append_left (hcolon hb)]
  | @cons p r ps hp _ ih =>
    obtain ⟨qs, hqs, hmap⟩ := ih .nil
    refine ⟨(before ++ p) :: qs, ?_, ?_⟩
    · have hfirst : ¬HasColons (before ++ p ++ [':']) := by
        rwa [List.append_assoc, hasColons_append_left (hcolon hb)]
      simpa using Parts.cons hfirst hqs
    · have hpad := trim_pad hb .nil p
      rw [List.append_nil] at hpad
      rw [List.map_cons, List.map_cons, hpad, hmap]

end Parts

theorem parts_splitPath (s : List Char) : Parts s (splitPath s) := by
  fun_induction splitPath s with
  | case1 r ih => exact .cons (p := []) not_hasColons_colon ih
  | case2 c r hc p ps hr ih =>
    rw [hr] at ih
    exact ih.cons_char fun h => by
      obtain ⟨t, rfl⟩ := List.head?_eq_some_iff.1 h.2
      exact hc t h.1 rfl
  | case3 c r hc hr => exact absurd hr (splitPath_ne_nil r)
  | case4 => exact .last (not_hasColons nofun)

/-- A text has its parts, and no others. -/
theorem parts_iff {ps : List (List Char)} : Parts s ps ↔ splitPath s = ps :=
  ⟨Parts.splitPath_eq, fun h => h ▸ parts_splitPath s⟩

/-- White space around a text makes no difference to its parts once they are trimmed. -/
theorem map_trim_splitPath_pad (hb : Blank before) (ha : Blank after) (s : List Char) :
    (splitPath (before ++ s ++ after)).map trim = (splitPath s).map trim := by
  obtain ⟨qs, hqs, hmap⟩ := (parts_splitPath s).pad hb ha
  rw [hqs.splitPath_eq, hmap]

theorem splitPath_intercalate {p : List Char} {ps : List (List Char)}
    (h : ∀ q ∈ p :: ps, ':' ∉ q) : splitPath ([':', ':'].intercalate (p :: ps)) = p :: ps := by
  induction ps generalizing p with
  | nil => simpa using (Parts.last (not_hasColons (h p (by simp)))).splitPath_eq
  | cons q ps ih =>
    obtain ⟨hp, hps⟩ := List.forall_mem_cons.1 h
    have hfirst : ¬HasColons (p ++ [':']) := by
      rw [hasColons_append_left hp]
      exact not_hasColons_colon
    rw [List.intercalate_cons_cons]
    simpa using (Parts.cons hfirst (parts_iff.2 (ih hps))).splitPath_eq

end Text

/-! ### Segments -/

namespace Ident

variable {s : List Char} {i : Ident}

theorem isReserved_of_parse? (h : parse? s = some i) : i.isReserved = false := by
  rw [parse?] at h
  split at h
  · split at h
    · rename_i hends
      obtain rfl := Option.some.inj h
      rw [Bool.and_eq_true, Bool.not_eq_true'] at hends
      exact hends.2
    · cases h
  · cases h

theorem wideSeparators_not_further : wideSeparators.all (fun n =>
    !identContinueOnlyRanges.any fun r => r.1 ≤ n && n ≤ r.2) = true := by
  decide +kernel

theorem isSeparator_of_isIdentContinue {c : Char} (h : isIdentContinue c = true) :
    isSeparator c = false := by
  rw [isIdentContinue, Bool.or_eq_true, Bool.or_eq_true, or_assoc] at h
  rcases h with h | h | h
  · exact isSeparator_of_isIdentStart h
  · exact Lexeme.isSeparator_of_isAsciiDigit h
  · refine Bool.eq_false_iff.2 fun hs => ?_
    rw [Bool.and_eq_true, decide_eq_true_eq] at h
    rcases toNat_of_isSeparator hs with hn | hn
    · omega
    · have hr : inRanges identContinueOnlyRanges c = false := by
        simpa [inRanges] using List.all_eq_true.1 wideSeparators_not_further _ hn
      simp [hr] at h

theorem isBlank_of_mem_text {c : Char} (h : c ∈ i.text.toList) : isBlank c = false := by
  have hsep : isSeparator c = false := by
    rcases hr : i.raw with _ | _
    · rw [text_of_not_raw i hr] at h
      exact isSeparator_of_isIdentContinue (isIdentContinue_of_mem_name h)
    · rw [text_of_raw i hr, List.mem_cons, List.mem_cons] at h
      rcases h with rfl | rfl | h
      · rfl
      · rfl
      · exact isSeparator_of_isIdentContinue (isIdentContinue_of_mem_name h)
  rw [isSeparator, Bool.or_eq_false_iff, Bool.or_eq_false_iff] at hsep
  exact hsep.1.1

theorem trim_text (i : Ident) : trim i.text.toList = i.text.toList := by
  obtain ⟨c, r, hi, hc⟩ := Lexeme.exists_text_eq_cons (i := i)
  have h := trim_append (t := i.text.toList) (by simp [hi]) (fun _ => isBlank_of_mem_text) []
  simpa using h

/-- An identifier is read from its text, unless it is a reserved word. -/
theorem parse?_text (i : Ident) : parse? i.text.toList = if i.isReserved then none else some i := by
  obtain ⟨c, r, hi, hc⟩ := Lexeme.exists_text_eq_cons (i := i)
  have hmark : c ≠ '\ufeff' := by
    rintro rfl
    revert hc
    decide +kernel
  have hslash : c ≠ '/' := ne_of_isIdentContinue (isIdentContinue_of_start hc) rfl
  have htake := take?_text_append (i := i) (s := []) nofun
  rw [List.append_nil, hi] at htake
  have hdrop : dropMark (c :: r) = c :: r := dropMark.eq_2 _ fun t ht => hmark (List.cons.inj ht).1
  rw [parse?, hi, hdrop, Lexeme.skipTrivia_eq (isSeparator_of_isIdentStart hc) hslash, htake]
  cases hi : i.isReserved <;> simp [skipTrivia, skipTrivia.go, hi]

end Ident

/-! ### Module paths -/

namespace Namespace

variable {s : String} {t p : List Char} {ps : List (List Char)} {is : List Ident} {i : Ident}

/-- The text `p` is the identifier `i`, but for white space around it. -/
def IsSegment (p : List Char) (i : Ident) : Prop := Ident.parse? (trim p) = some i

theorem names_cons_of_isSegment (h : IsSegment p i) (ps : List (List Char)) :
    names (p :: ps) = (names ps).map (i :: ·) := by
  rw [names, show Ident.parse? (trim p) = some i from h]
  rcases names ps with e | is <;> rfl

theorem names_cons_of_not_isSegment (h : ∀ i, ¬IsSegment p i) (ps : List (List Char)) :
    names (p :: ps) = .error p := by
  rw [names, Option.eq_none_iff_forall_ne_some.2 h]

theorem names_eq_ok : names ps = .ok is ↔ List.Forall₂ IsSegment ps is := by
  induction ps generalizing is with
  | nil => simp [names, eq_comm]
  | cons p ps ih =>
    rw [List.forall₂_cons_left_iff]
    by_cases hp : ∃ i, IsSegment p i
    · obtain ⟨i, hi⟩ := hp
      have hunique {j : Ident} : IsSegment p j ↔ j = i := by
        rw [IsSegment, show Ident.parse? (trim p) = some i from hi, Option.some_inj, eq_comm]
      simp only [names_cons_of_isSegment hi, hunique, ← ih]
      rcases names ps with e | js <;> simp [Except.map, eq_comm]
    · rw [names_cons_of_not_isSegment (not_exists.1 hp)]
      refine iff_of_false nofun ?_
      rintro ⟨i, -, hi, -⟩
      exact hp ⟨i, hi⟩

/-- The error is the first text that is no segment. -/
theorem names_eq_error : names ps = .error p ↔ ∃ before after, ps = before ++ p :: after ∧
    (∀ q ∈ before, ∃ i, IsSegment q i) ∧ ∀ i, ¬IsSegment p i := by
  induction ps with
  | nil => simp [names]
  | cons q ps ih =>
    by_cases hq : ∃ i, IsSegment q i
    · obtain ⟨i, hi⟩ := hq
      have hnames : (names ps).map (i :: ·) = .error p ↔ names ps = .error p := by
        rcases names ps with e | js <;> simp [Except.map]
      rw [names_cons_of_isSegment hi, hnames, ih]
      constructor
      · rintro ⟨before, after, rfl, hbefore, hp⟩
        exact ⟨q :: before, after, rfl, List.forall_mem_cons.2 ⟨⟨i, hi⟩, hbefore⟩, hp⟩
      · rintro ⟨_ | ⟨q', before⟩, after, heq, hbefore, hp⟩
        · obtain ⟨rfl, -⟩ := List.cons.inj heq
          exact absurd hi (hp i)
        · obtain ⟨rfl, rfl⟩ := List.cons.inj heq
          exact ⟨before, after, rfl, (List.forall_mem_cons.1 hbefore).2, hp⟩
    · rw [names_cons_of_not_isSegment (not_exists.1 hq), Except.error.injEq]
      constructor
      · rintro rfl
        exact ⟨[], ps, rfl, nofun, not_exists.1 hq⟩
      · rintro ⟨_ | ⟨q', before⟩, after, heq, hbefore, -⟩
        · exact (List.cons.inj heq).1
        · obtain ⟨rfl, -⟩ := List.cons.inj heq
          exact absurd (hbefore q List.mem_cons_self) hq

theorem exists_isSegment_of_mem (h : List.Forall₂ IsSegment ps is) (hp : p ∈ ps) :
    ∃ i, IsSegment p i := by
  induction h with
  | nil => cases hp
  | cons hi _ ih =>
    rcases List.mem_cons.1 hp with rfl | hp
    · exact ⟨_, hi⟩
    · exact ih hp

theorem not_isSegment_of_blank (h : Blank p) (i : Ident) : ¬IsSegment p i := by
  have htrim : trim p = trim [] := by simpa using trim_pad h .nil []
  rw [IsSegment, htrim]
  nofun

theorem not_isSegment_crate (i : Ident) : ¬IsSegment "crate".toList i := by
  have h : Ident.parse? (trim "crate".toList) = none := by decide +kernel
  rw [IsSegment, h]
  nofun

/-- The texts of the segments of a path. The word `crate` with its double colon is in front of them
or not. -/
inductive PathText : List Char → List (List Char) → Prop where
  | inCrate {r qs} : Parts r qs → PathText ("crate::".toList ++ r) qs
  | plain {r qs} : ¬"crate::".toList <+: r → Parts r qs → PathText r qs

/-- The texts that are read as the root. -/
def rootTexts : List (List Char) := ["", "crate", "crate::"].map String.toList

theorem splitPath_crate (r : List Char) :
    splitPath ("crate::".toList ++ r) = "crate".toList :: splitPath r := by
  simp [splitPath]

theorem dropCrate_cases (t : List Char) :
    t = "crate".toList ∨ (∃ r, t = "crate::".toList ++ r ∧ dropCrate t = r) ∨
      ¬"crate::".toList <+: t ∧ dropCrate t = t := by
  unfold dropCrate
  split
  · split
    · exact .inl rfl
    · exact .inr (.inl ⟨_, rfl, rfl⟩)
    · rename_i r _ hr
      refine .inr (.inr ⟨?_, rfl⟩)
      rintro ⟨r', hr'⟩
      simp at hr'
      exact hr r' hr'.symm
  · rename_i h
    refine .inr (.inr ⟨?_, rfl⟩)
    rintro ⟨r', hr'⟩
    exact h _ hr'.symm

theorem dropCrate_eq_nil : dropCrate t = [] ↔ t ∈ rootTexts := by
  simp only [rootTexts, List.map_cons, List.map_nil, List.mem_cons, List.not_mem_nil, or_false]
  constructor
  · intro h
    rcases dropCrate_cases t with ht | ⟨r, rfl, hr⟩ | ⟨-, ht⟩
    · exact .inr (.inl ht)
    · rw [← hr, h]
      exact .inr (.inr rfl)
    · exact .inl (ht.symm.trans h)
  · rintro (rfl | rfl | rfl) <;> rfl

theorem pathText_iff (ht : t ≠ "crate".toList) :
    PathText t ps ↔ splitPath (dropCrate t) = ps := by
  rcases dropCrate_cases t with hcrate | ⟨r, rfl, hr⟩ | ⟨hplain, heq⟩
  · exact absurd hcrate ht
  · rw [hr, ← parts_iff]
    refine ⟨fun h => ?_, .inCrate⟩
    generalize hs : "crate::".toList ++ r = s at h
    cases h with
    | inCrate h => rwa [List.append_cancel_left hs]
    | plain h _ => exact absurd ⟨r, hs⟩ h
  · rw [heq, ← parts_iff]
    refine ⟨fun h => ?_, .plain hplain⟩
    cases h with
    | inCrate h => exact absurd (List.prefix_append _ _) hplain
    | plain _ h => exact h

/-- What is read as the root has no segments. -/
theorem PathText.not_forall₂ (h : PathText t ps) (ht : t ∈ rootTexts) :
    ¬List.Forall₂ IsSegment ps is := by
  intro hall
  by_cases hcrate : t = "crate".toList
  · subst hcrate
    cases h with
    | plain _ h =>
      have hmem : "crate".toList ∈ ps := by simp [← h.splitPath_eq, splitPath]
      exact (exists_isSegment_of_mem hall hmem).elim not_isSegment_crate
  · rw [pathText_iff hcrate, dropCrate_eq_nil.2 ht] at h
    have hmem : [] ∈ ps := by simp [← h, splitPath]
    exact (exists_isSegment_of_mem hall hmem).elim (not_isSegment_of_blank .nil)

theorem parse_of_mem_rootTexts (h : trim s.toList ∈ rootTexts) : parse s = .ok root := by
  rw [parse, dropCrate_eq_nil.2 h]

theorem parse_of_pathText (h : PathText (trim s.toList) ps) (ht : trim s.toList ∉ rootTexts) :
    parse s = match names ps with
      | .ok is => .ok ⟨is⟩
      | .error segment => .error ⟨s, String.ofList segment⟩ := by
  have hcrate : trim s.toList ≠ "crate".toList := by
    intro heq
    exact ht (heq ▸ by simp [rootTexts])
  rw [pathText_iff hcrate] at h
  rw [parse]
  split
  · rename_i hnil
    exact absurd (dropCrate_eq_nil.1 hnil) ht
  · subst h
    rfl

theorem exists_pathText (t : List Char) : ∃ ps, PathText t ps := by
  by_cases h : "crate::".toList <+: t
  · obtain ⟨r, rfl⟩ := h
    exact ⟨_, .inCrate (parts_splitPath r)⟩
  · exact ⟨_, .plain h (parts_splitPath t)⟩

theorem parse_eq_ok_iff {ns : Namespace} : parse s = .ok ns ↔
    ns = root ∧ trim s.toList ∈ rootTexts ∨
      ∃ ps, PathText (trim s.toList) ps ∧ List.Forall₂ IsSegment ps ns.segments := by
  by_cases ht : trim s.toList ∈ rootTexts
  · rw [parse_of_mem_rootTexts ht, Except.ok.injEq]
    refine ⟨fun h => .inl ⟨h.symm, ht⟩, ?_⟩
    rintro (⟨rfl, -⟩ | ⟨ps, hps, hall⟩)
    · rfl
    · exact absurd hall (hps.not_forall₂ ht)
  · constructor
    · intro h
      obtain ⟨ps, hps⟩ := exists_pathText (trim s.toList)
      rw [parse_of_pathText hps ht] at h
      split at h
      · rename_i is his
        obtain rfl := Except.ok.inj h
        exact .inr ⟨ps, hps, names_eq_ok.1 his⟩
      · cases h
    · rintro (⟨-, hroot⟩ | ⟨ps, hps, hall⟩)
      · exact absurd hroot ht
      · rw [parse_of_pathText hps ht, names_eq_ok.2 hall]

theorem parse_eq_error_iff {e : NamespaceError} : parse s = .error e ↔
    trim s.toList ∉ rootTexts ∧ e.text = s ∧ ∃ before p after,
      PathText (trim s.toList) (before ++ p :: after) ∧ (∀ q ∈ before, ∃ i, IsSegment q i) ∧
      (∀ i, ¬IsSegment p i) ∧ e.segment = String.ofList p := by
  constructor
  · intro h
    have ht : trim s.toList ∉ rootTexts := by
      intro ht
      rw [parse_of_mem_rootTexts ht] at h
      cases h
    obtain ⟨ps, hps⟩ := exists_pathText (trim s.toList)
    rw [parse_of_pathText hps ht] at h
    split at h
    · cases h
    · rename_i p hp
      obtain rfl := Except.error.inj h
      obtain ⟨before, after, rfl, hbefore, hp⟩ := names_eq_error.1 hp
      exact ⟨ht, rfl, before, p, after, hps, hbefore, hp, rfl⟩
  · rintro ⟨ht, rfl, before, p, after, hps, hbefore, hp, hsegment⟩
    rw [parse_of_pathText hps ht, names_eq_error.2 ⟨before, after, rfl, hbefore, hp⟩]
    simp only [← hsegment]

/-- Among the texts with an empty segment only the word `crate` with its double colon is read. -/
theorem exists_error_iff_of_blank (h : Parts (trim s.toList) ps) (hlength : 1 < ps.length)
    (hp : p ∈ ps) (hblank : Blank p) :
    (∃ e, parse s = .error e) ↔ trim s.toList ≠ "crate::".toList := by
  constructor
  · rintro ⟨e, he⟩ heq
    exact (parse_eq_error_iff.1 he).1 (heq ▸ by simp [rootTexts])
  · intro hne
    rcases hparse : parse s with e | ns
    · exact ⟨e, rfl⟩
    rcases parse_eq_ok_iff.1 hparse with ⟨-, ht⟩ | ⟨qs, hqs, hall⟩
    · -- the other texts of the root have one part
      simp only [rootTexts, List.map_cons, List.map_nil, List.mem_cons, List.not_mem_nil,
        or_false, hne] at ht
      rcases ht with ht | ht <;> rw [ht] at h <;> simp [← h.splitPath_eq, splitPath] at hlength
    · have hmem : p ∈ qs := by
        generalize trim s.toList = t at h hqs
        cases hqs with
        | inCrate hr =>
          have hps := h.splitPath_eq.symm.trans (splitPath_crate _)
          rw [hr.splitPath_eq] at hps
          rw [hps] at hp
          refine (List.mem_cons.1 hp).resolve_left ?_
          rintro rfl
          cases hblank 'c' (by simp)
        | plain _ hr => rwa [← hr.splitPath_eq, h.splitPath_eq]
      exact ((exists_isSegment_of_mem hall hmem).elim (not_isSegment_of_blank hblank)).elim

/-- A text is read as the namespace of its segments, and as the root if nothing is left of it or the
word `crate` alone, also with its double colon. Else the error has the text, and the first of its
segments that is no identifier. So a text with an empty segment is not read, but for one. -/
theorem parse_iff_pathText (s : String) :
    (∀ ns, parse s = .ok ns ↔ ns = root ∧ trim s.toList ∈ rootTexts ∨
      ∃ ps, PathText (trim s.toList) ps ∧ List.Forall₂ IsSegment ps ns.segments) ∧
    (∀ e, parse s = .error e ↔ trim s.toList ∉ rootTexts ∧ e.text = s ∧ ∃ before p after,
      PathText (trim s.toList) (before ++ p :: after) ∧ (∀ q ∈ before, ∃ i, IsSegment q i) ∧
      (∀ i, ¬IsSegment p i) ∧ e.segment = String.ofList p) ∧
    ∀ ps, Parts (trim s.toList) ps → 1 < ps.length → (∃ p ∈ ps, Blank p) →
      ((∃ e, parse s = .error e) ↔ trim s.toList ≠ "crate::".toList) := by
  refine ⟨fun ns => parse_eq_ok_iff, fun e => parse_eq_error_iff, ?_⟩
  rintro ps h hlength ⟨p, hp, hblank⟩
  exact exists_error_iff_of_blank h hlength hp hblank

/-- An empty segment behind the word `crate` makes no error. -/
theorem parse_crate_colons :
    Parts (trim "crate::".toList) ["crate".toList, []] ∧ Blank [] ∧
      (∀ e, parse "crate::" ≠ .error e) ∧ parse "crate::" = .ok root := by
  have hparts : Parts (trim "crate::".toList) ["crate".toList, []] := parts_iff.2 rfl
  obtain ⟨hok, -, hempty⟩ := parse_iff_pathText "crate::"
  have hno := (hempty _ hparts (by decide) ⟨[], by simp, .nil⟩).not.2 fun hne => hne rfl
  exact ⟨hparts, .nil, not_exists.1 hno, (hok root).2 (.inl ⟨rfl, by decide⟩)⟩

/-! ### Namespaces that are read -/

/-- A namespace that is read from a text, or that modules lead to from such a one. -/
inductive Obtained : Namespace → Prop where
  | root : Obtained root
  | parse {u ns} : parse u = .ok ns → Obtained ns
  | child {ns j u} : Obtained ns → Ident.parse? u = some j → Obtained (ns.child j)

theorem isReserved_of_forall₂ (h : List.Forall₂ IsSegment ps is) :
    ∀ i ∈ is, i.isReserved = false := by
  induction h with
  | nil => exact nofun
  | cons hi _ ih => exact List.forall_mem_cons.2 ⟨Ident.isReserved_of_parse? hi, ih⟩

variable {ns : Namespace}

theorem Obtained.isReserved (h : ns.Obtained) : ∀ i ∈ ns.segments, i.isReserved = false := by
  induction h with
  | root => exact nofun
  | parse h =>
    rcases parse_eq_ok_iff.1 h with ⟨rfl, -⟩ | ⟨ps, -, hall⟩
    · exact nofun
    · exact isReserved_of_forall₂ hall
  | child _ hj ih =>
    intro i hi
    rcases List.mem_append.1 hi with hi | hi
    · exact ih i hi
    · obtain rfl := List.mem_singleton.1 hi
      exact Ident.isReserved_of_parse? hj

/-- The identifier with white space around it. -/
def IsPadded (i : Ident) (u : String) : Prop :=
  ∃ before after, Blank before.toList ∧ Blank after.toList ∧ u = before ++ i.text ++ after

/-- A text of a namespace, with white space around its segments. -/
inductive Spells : Namespace → String → Prop where
  | root : Spells root "crate"
  | path {ns us} : ns.segments ≠ [] → List.Forall₂ IsPadded ns.segments us →
      Spells ns ("::".intercalate us)

theorem spells_text (ns : Namespace) : ns.Spells ns.text := by
  obtain ⟨segments⟩ := ns
  rcases segments with _ | ⟨i, is⟩
  · exact .root
  · have hpadded : List.Forall₂ IsPadded (i :: is) ((i :: is).map Ident.text) :=
      List.forall₂_map_right_iff.2 (List.forall₂_same.2 fun j _ =>
        ⟨"", "", .nil, .nil, by simp⟩)
    exact .path (List.cons_ne_nil i is) hpadded

theorem forall₂_isSegment_iff : List.Forall₂ IsSegment ps is ↔
    List.Forall₂ (fun p i => Ident.parse? p = some i) (ps.map trim) is := by
  rw [List.forall₂_map_left_iff]
  rfl

/-- The parts of a text may all be segments for the whole text, and behind the word `crate`. -/
theorem parse_of_forall₂ (h : List.Forall₂ IsSegment (splitPath s.toList) is) :
    parse s = .ok ⟨is⟩ ∧ parse ("crate::" ++ s) = .ok ⟨is⟩ := by
  have hinner {before t after : List Char} (hb : Blank before) (ha : Blank after)
      (heq : s.toList = before ++ t ++ after) : List.Forall₂ IsSegment (splitPath t) is := by
    rwa [forall₂_isSegment_iff, ← map_trim_splitPath_pad hb ha t, ← heq,
      ← forall₂_isSegment_iff]
  constructor
  · obtain ⟨before, after, hb, ha, heq⟩ := exists_pad_trim s.toList
    have hall := hinner hb ha heq
    refine parse_eq_ok_iff.2 (.inr ⟨_, .plain ?_ (parts_splitPath _), hall⟩)
    rintro ⟨r, hr⟩
    rw [← hr, splitPath_crate] at hall
    exact (exists_isSegment_of_mem hall List.mem_cons_self).elim not_isSegment_crate
  · have htrim : trim ("crate::" ++ s).toList =
        "crate::".toList ++ s.toList.rdropWhile isBlank := by
      have hcrate : ("crate::".toList.all fun c => isBlank c == false) = true := rfl
      rw [String.toList_append]
      refine trim_append (by simp) (fun c hc => ?_) _
      exact beq_iff_eq.1 (List.all_eq_true.1 hcrate c hc)
    have heq : s.toList = [] ++ s.toList.rdropWhile isBlank ++ s.toList.rtakeWhile isBlank := by
      rw [List.nil_append, List.rdropWhile_append_rtakeWhile]
    have hall := hinner .nil (fun _ => List.mem_rtakeWhile_imp) heq
    exact parse_eq_ok_iff.2 (.inr ⟨_, htrim ▸ .inCrate (parts_splitPath _), hall⟩)

theorem IsPadded.isSegment {i : Ident} {u : String} (h : IsPadded i u)
    (hi : i.isReserved = false) : IsSegment u.toList i := by
  obtain ⟨before, after, hb, ha, rfl⟩ := h
  rw [IsSegment, String.toList_append, String.toList_append, trim_pad hb ha, Ident.trim_text,
    Ident.parse?_text, hi]
  rfl

theorem IsPadded.not_mem {i : Ident} {u : String} (h : IsPadded i u) : ':' ∉ u.toList := by
  obtain ⟨before, after, hb, ha, rfl⟩ := h
  have hi : ':' ∉ i.text.toList := Ident.not_mem_text rfl (by decide)
  simp only [String.toList_append, List.mem_append, not_or]
  exact ⟨⟨fun hc => (by cases hb _ hc), hi⟩, fun hc => (by cases ha _ hc)⟩

theorem forall₂_of_isPadded {us : List String} (h : List.Forall₂ IsPadded is us)
    (his : ∀ i ∈ is, i.isReserved = false) :
    List.Forall₂ IsSegment (us.map String.toList) is ∧ ∀ p ∈ us.map String.toList, ':' ∉ p := by
  induction h with
  | nil => exact ⟨.nil, nofun⟩
  | cons hu _ ih =>
    obtain ⟨hi, his⟩ := List.forall_mem_cons.1 his
    obtain ⟨hsegments, hcolons⟩ := ih his
    exact ⟨.cons (hu.isSegment hi) hsegments, List.forall_mem_cons.2 ⟨hu.not_mem, hcolons⟩⟩

theorem parse_of_spells {u : String} (h : ns.Spells u)
    (hns : ∀ i ∈ ns.segments, i.isReserved = false) :
    parse u = .ok ns ∧ (ns ≠ root → parse ("crate::" ++ u) = .ok ns) := by
  cases h with
  | root => exact ⟨rfl, fun h => absurd rfl h⟩
  | @path _ us hne hall =>
    obtain ⟨hsegments, hcolons⟩ := forall₂_of_isPadded hall hns
    obtain ⟨v, vs, rfl⟩ : ∃ v vs, us = v :: vs := by
      refine List.exists_cons_of_ne_nil ?_
      rintro rfl
      exact hne (List.forall₂_nil_right_iff.1 hall)
    rw [List.map_cons, ← splitPath_intercalate hcolons] at hsegments
    have hparts : List.Forall₂ IsSegment (splitPath ("::".intercalate (v :: vs)).toList)
        ns.segments := by
      rwa [String.toList_intercalate]
    obtain ⟨hplain, hcrate⟩ := parse_of_forall₂ hparts
    exact ⟨hplain, fun _ => hcrate⟩

/-- The text of a namespace is read as the namespace, also with white space around its segments, and
behind the word `crate` if it is not the root. So different namespaces have different texts. -/
theorem parse_spelled (h : ns.Obtained) :
    parse ns.text = .ok ns ∧ (ns ≠ root → parse ("crate::" ++ ns.text) = .ok ns) ∧
    (∀ u, ns.Spells u → parse u = .ok ns ∧ (ns ≠ root → parse ("crate::" ++ u) = .ok ns)) ∧
    ∀ ns', ns'.Obtained → ns.text = ns'.text → ns = ns' := by
  obtain ⟨hplain, hcrate⟩ := parse_of_spells (spells_text ns) h.isReserved
  refine ⟨hplain, hcrate, fun u hu => parse_of_spells hu h.isReserved, fun ns' h' htext => ?_⟩
  have hplain' := (parse_of_spells (spells_text ns') h'.isReserved).1
  rw [← htext, hplain] at hplain'
  exact Except.ok.inj hplain'

/-- A module with a keyword for its name, in a module whose name starts as the word `crate` does. -/
def rawModule : Namespace :=
  (root.child (.plain "crates")).child ⟨true, "match", by decide, by decide⟩

theorem parse_spelled_rawModule :
    rawModule.Obtained ∧ parse "crates::r#match" = .ok rawModule ∧
      parse "crate:: crates\t::r#match\n" = .ok rawModule := by
  have hobtained : rawModule.Obtained :=
    .child (u := "r#match".toList) (.child (u := "crates".toList) .root (by decide +kernel))
      (by decide +kernel)
  have hspells : rawModule.Spells ("::".intercalate [" crates\t", "r#match\n"]) :=
    .path (by decide) (.cons ⟨" ", "\t", by decide, by decide, rfl⟩
      (.cons ⟨"", "\n", by decide, by decide, rfl⟩ .nil))
  obtain ⟨htext, -, hspelled, -⟩ := parse_spelled hobtained
  exact ⟨hobtained, htext, (hspelled _ hspells).2 (by decide)⟩

end Namespace

end SanitizeGen
