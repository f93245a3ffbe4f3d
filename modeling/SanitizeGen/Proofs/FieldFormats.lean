import SanitizeGen.Tag.Format
import SanitizeGen.Proofs.OptionLists

/-!
# Formats that are accepted

Where a struct is compiled, a field may have one format attribute with one format in its list. Where
code is generated, attributes with an empty list are accepted beside it: they are read as if they
were not there, and that is the only difference (`checkedFormat_iff_formatOf`).
-/

namespace SanitizeGen

namespace FieldFormat

/-- The word for the format. -/
def word : FieldFormat → String
  | display => "display"
  | debug => "debug"

theorem isIdentText_word (format : FieldFormat) :
    isIdentText format.word.toList = true := by
  cases format <;> decide

/-- The options name the format: they are its word, perhaps with a comma behind it. -/
inductive NamedBy (format : FieldFormat) : Tokens → Prop where
  | word {i} : i.text = format.word → NamedBy format [.leaf (.word i)]
  | comma {i j} : i.text = format.word →
      NamedBy format [.leaf (.word i), .leaf (.punct ',' j)]

theorem ofOption?_eq_some {p : SimplePath} {format : FieldFormat} :
    ofOption? p = some format ↔ ∃ i, p = ⟨false, [i]⟩ ∧ i.text = format.word := by
  rw [← SimplePath.isWord_iff, ofOption?]
  have hboth : ¬(p.isWord "debug" = true ∧ p.isWord "display" = true) := by
    rintro ⟨hdebug, hdisplay⟩
    obtain ⟨i, rfl, hi⟩ := SimplePath.isWord_iff.1 hdebug
    obtain ⟨j, hj, htext⟩ := SimplePath.isWord_iff.1 hdisplay
    cases hj
    rw [hi] at htext
    exact absurd htext (by decide)
  cases format <;> simp only [word] <;> split <;> simp_all

end FieldFormat

/-! ### One list -/

section

variable {unknown : SimplePath → FormatError} {found found' : Option FieldFormat}
  {name : SimplePath} {r r' args : Tokens}

theorem formatOption_eq_ok : formatOption unknown found name r = .ok (found', r') ↔
    found = none ∧ r' = r ∧ ∃ format, FieldFormat.ofOption? name = some format ∧
      found' = some format := by
  rw [formatOption]
  rcases FieldFormat.ofOption? name with _ | format
  · simp
  · rcases found with _ | _
    · simp [eq_comm, and_comm]
    · simp

theorem readsOn_formatOption : ReadsOn (formatOption unknown) := by
  intro found name r found' r' h
  obtain ⟨-, rfl, -⟩ := formatOption_eq_ok.1 h
  exact Nat.le_refl _

/-- A list is empty, or it names a format and none was named before. -/
theorem readOptions_format :
    readOptions FormatError.form (formatOption unknown) found args = .ok found' ↔
      (args = [] ∧ found' = found) ∨
      found = none ∧ ∃ format, format.NamedBy args ∧ found' = some format := by
  rw [readOptions_eq_ok_iff readsOn_formatOption]
  constructor
  · intro h
    cases h with
    | nil => exact .inl ⟨rfl, rfl⟩
    | last hname hoption =>
      obtain ⟨hfound, rfl, format, hformat, rfl⟩ := formatOption_eq_ok.1 hoption
      obtain ⟨i, rfl, hi⟩ := FieldFormat.ofOption?_eq_some.1 hformat
      obtain ⟨rfl, -⟩ := Tokens.optionName_eq_word.1 hname
      exact .inr ⟨hfound, format, .word hi, rfl⟩
    | comma hname hoption hrest =>
      obtain ⟨hfound, rfl, format, hformat, rfl⟩ := formatOption_eq_ok.1 hoption
      obtain ⟨i, rfl, hi⟩ := FieldFormat.ofOption?_eq_some.1 hformat
      obtain ⟨rfl, -⟩ := Tokens.optionName_eq_word.1 hname
      -- a second option would be refused
      cases hrest with
      | nil => exact .inr ⟨hfound, format, .comma hi, rfl⟩
      | last _ hsecond => cases (formatOption_eq_ok.1 hsecond).1
      | comma _ hsecond => cases (formatOption_eq_ok.1 hsecond).1
  · rintro (⟨rfl, rfl⟩ | ⟨rfl, format, ⟨hi⟩ | ⟨hi⟩, rfl⟩)
    · exact .nil
    · have hformat := FieldFormat.ofOption?_eq_some.2 ⟨_, rfl, hi⟩
      exact .last (Tokens.optionName_eq_word.2 ⟨rfl, rfl⟩)
        (formatOption_eq_ok.2 ⟨rfl, rfl, format, hformat, rfl⟩)
    · have hformat := FieldFormat.ofOption?_eq_some.2 ⟨_, rfl, hi⟩
      exact .comma (Tokens.optionName_eq_word.2 ⟨rfl, Tokens.moreSegments_punct (by decide)⟩)
        (formatOption_eq_ok.2 ⟨rfl, rfl, format, hformat, rfl⟩) .nil

end

/-! ### All attributes of a field -/

namespace Attribute

/-- Whether the attribute should name a format and its list is empty. -/
def isEmptyFormat (a : Attribute) : Bool :=
  a.isNamed formatAttribute &&
    match a.content with
    | .list _ _ args => args.isEmpty
    | _ => false

/-- The attribute names the format of a field. -/
def Gives (a : Attribute) (format : FieldFormat) : Prop :=
  ∃ p d args, a.content = .list p d args ∧ format.NamedBy args

end Attribute

theorem Attribute.gives_iff {a : Attribute} {p : SimplePath} {d : Delimiter} {args : Tokens}
    {format : FieldFormat} (hc : a.content = .list p d args) :
    a.Gives format ↔ format.NamedBy args := by
  constructor
  · rintro ⟨_, _, _, hc', h⟩
    cases hc.symm.trans hc'
    exact h
  · exact fun h => ⟨p, d, args, hc, h⟩

section

variable {a : Attribute} {as attrs : List Attribute} {found found' : Option FieldFormat}

/-- An attribute is passed over if its list is empty; else it names the only format. -/
theorem namedFormat_cons (ha : a.isNamed formatAttribute = true) :
    namedFormat found (a :: as) = .ok found' ↔
      (a.isEmptyFormat = true ∧ namedFormat found as = .ok found') ∨
      found = none ∧ ∃ format, a.Gives format ∧ namedFormat (some format) as = .ok found' := by
  rw [namedFormat, if_pos ha]
  rcases hc : a.content with p | ⟨p, d, args⟩ | ⟨p, value⟩
  · simp [Attribute.isEmptyFormat, Attribute.Gives, hc]
  · have hempty : a.isEmptyFormat = true ↔ args = [] := by simp [Attribute.isEmptyFormat, ha, hc]
    have hread (found₁ : Option FieldFormat) : readOptions .form (formatOption fun _ => .unknown)
        found args = .ok found₁ ↔ _ := readOptions_format
    simp only [hempty, Attribute.gives_iff hc]
    constructor
    · intro h
      split at h
      · rename_i found₁ hr
        rcases (hread found₁).1 hr with ⟨rfl, rfl⟩ | ⟨hfound, format, hformat, rfl⟩
        · exact .inl ⟨rfl, h⟩
        · exact .inr ⟨hfound, format, hformat, h⟩
      · cases h
    · rintro (⟨hargs, h⟩ | ⟨hfound, format, hformat, h⟩)
      · rw [(hread found).2 (.inl ⟨hargs, rfl⟩)]
        exact h
      · rw [(hread (some format)).2 (.inr ⟨hfound, format, hformat, rfl⟩)]
        exact h
  · simp [Attribute.isEmptyFormat, Attribute.Gives, hc]

/-- An attribute names the only format. -/
theorem checkedNamedFormat_cons (ha : a.isNamed formatAttribute = true) :
    checkedNamedFormat found (a :: as) = .ok found' ↔
      found = none ∧ ∃ format, a.Gives format ∧
        checkedNamedFormat (some format) as = .ok found' := by
  rw [checkedNamedFormat, if_pos ha]
  rcases hc : a.content with p | ⟨p, d, args⟩ | ⟨p, value⟩
  · simp [Attribute.Gives, hc]
  · have hread (found₁ : Option FieldFormat) : readOptions .form (formatOption fun name =>
        .unknownWord (name.word?.map Ident.text)) none args = .ok found₁ ↔ _ := readOptions_format
    simp only [Attribute.gives_iff hc]
    constructor
    · intro h
      split at h
      · cases h
      · cases h
      · rename_i format hr
        rcases (hread (some format)).1 hr with ⟨-, hnone⟩ | ⟨-, format', hformat, heq⟩
        · cases hnone
        · obtain rfl := Option.some.inj heq
          split at h
          · cases h
          · rename_i hfound
            exact ⟨by simpa using hfound, format, hformat, h⟩
    · rintro ⟨rfl, format, hformat, h⟩
      rw [(hread (some format)).2 (.inr ⟨rfl, format, hformat, rfl⟩)]
      exact h
  · simp [Attribute.Gives, hc]

theorem not_gives_of_isEmptyFormat {format : FieldFormat} (h : a.isEmptyFormat = true) :
    ¬a.Gives format := by
  rintro ⟨p, d, args, hc, hformat⟩
  simp only [Attribute.isEmptyFormat, hc, Bool.and_eq_true, List.isEmpty_iff] at h
  rw [h.2] at hformat
  cases hformat

/-- What is compiled is what is generated, as long as no list is empty. -/
theorem checkedNamedFormat_eq_ok_iff : checkedNamedFormat found attrs = .ok found' ↔
    namedFormat found attrs = .ok found' ∧ ∀ a ∈ attrs, a.isEmptyFormat = false := by
  induction attrs generalizing found with
  | nil => simp [checkedNamedFormat, namedFormat]
  | cons a as ih =>
    rw [List.forall_mem_cons]
    by_cases ha : a.isNamed formatAttribute = true
    · rw [checkedNamedFormat_cons ha, namedFormat_cons ha]
      constructor
      · rintro ⟨hfound, format, hgives, h⟩
        obtain ⟨h, has⟩ := ih.1 h
        refine ⟨.inr ⟨hfound, format, hgives, h⟩, ?_, has⟩
        exact Bool.eq_false_iff.2 fun hempty => not_gives_of_isEmptyFormat hempty hgives
      · rintro ⟨⟨hempty, -⟩ | ⟨hfound, format, hgives, h⟩, hnot, has⟩
        · cases hempty.symm.trans hnot
        · exact ⟨hfound, format, hgives, ih.2 ⟨h, has⟩⟩
    · have hnot : a.isEmptyFormat = false := by simp [Attribute.isEmptyFormat, ha]
      rw [checkedNamedFormat, namedFormat, if_neg ha, if_neg ha, ih]
      simp [hnot]

/-- Attributes with an empty list make no difference to what is generated. -/
theorem namedFormat_filter (attrs : List Attribute) (found : Option FieldFormat) :
    namedFormat found (attrs.filter fun a => !a.isEmptyFormat) = namedFormat found attrs := by
  induction attrs generalizing found with
  | nil => rfl
  | cons a as ih =>
    by_cases hempty : a.isEmptyFormat = true
    · have hskip : namedFormat found (a :: as) = namedFormat found as := by
        simp only [Attribute.isEmptyFormat, Bool.and_eq_true] at hempty
        obtain ⟨ha, hc⟩ := hempty
        rw [namedFormat, if_pos ha]
        rcases hcontent : a.content with p | ⟨p, d, args⟩ | ⟨p, value⟩
        · simp [hcontent] at hc
        · obtain rfl : args = [] := by simpa [hcontent] using hc
          rfl
        · simp [hcontent] at hc
      rw [List.filter_cons_of_neg (by simp [hempty]), ih, hskip]
    · rw [List.filter_cons_of_pos (by simp [hempty]), namedFormat, namedFormat]
      simp only [ih]

end

theorem checkedFormat_eq_ok {attrs : List Attribute} {format : FieldFormat} :
    checkedFormat attrs = .ok format ↔
      ∃ found, checkedNamedFormat none attrs = .ok found ∧ found.getD .display = format := by
  rw [checkedFormat]
  rcases checkedNamedFormat none attrs with e | found <;> simp [Except.map]

theorem formatOf_eq_ok {attrs : List Attribute} {format : FieldFormat} :
    formatOf attrs = .ok format ↔
      ∃ found, namedFormat none attrs = .ok found ∧ found.getD .display = format := by
  rw [formatOf]
  rcases namedFormat none attrs with e | found <;> simp [Except.map]

theorem checkedFormat_eq_ok_iff {attrs : List Attribute} {format : FieldFormat} :
    checkedFormat attrs = .ok format ↔
      formatOf attrs = .ok format ∧ ∀ a ∈ attrs, a.isEmptyFormat = false := by
  rw [checkedFormat_eq_ok, formatOf_eq_ok]
  simp only [checkedNamedFormat_eq_ok_iff]
  constructor
  · rintro ⟨found, ⟨h, hnot⟩, hformat⟩
    exact ⟨⟨found, h, hformat⟩, hnot⟩
  · rintro ⟨⟨found, h, hformat⟩, hnot⟩
    exact ⟨found, ⟨h, hnot⟩, hformat⟩

/-- Where a struct is compiled, the attributes of a field are accepted exactly if they are accepted
where code is generated and none has an empty list, and then they give the same format. Where code
is generated, those with an empty list are passed over. -/
theorem checkedFormat_iff_formatOf {attrs : List Attribute} {format : FieldFormat} :
    (checkedFormat attrs = .ok format ↔
      formatOf attrs = .ok format ∧ ∀ a ∈ attrs, a.isEmptyFormat = false) ∧
    (formatOf attrs = .ok format ↔
      checkedFormat (attrs.filter fun a => !a.isEmptyFormat) = .ok format) := by
  refine ⟨checkedFormat_eq_ok_iff, ?_⟩
  have hnone : ∀ a ∈ attrs.filter fun a => !a.isEmptyFormat, a.isEmptyFormat = false := by
    intro a ha
    simpa using (List.mem_filter.1 ha).2
  rw [checkedFormat_eq_ok_iff, and_iff_left hnone, formatOf, formatOf, namedFormat_filter]

theorem isIdentText_formatAttribute : isIdentText formatAttribute.toList = true := by decide

/-- `#[mrclean(args)]`. -/
def formatAttributeWith (args : Tokens) : Attribute :=
  ⟨false, .list ⟨false, [.plain formatAttribute isIdentText_formatAttribute]⟩ .paren args⟩

/-- `#[mrclean()]`. -/
def emptyFormat : Attribute := formatAttributeWith []

/-- A field with an empty list is generated for display, and no struct with it is compiled. -/
theorem not_checkedFormat_emptyFormat :
    formatOf [emptyFormat] = .ok .display ∧ ∀ format, checkedFormat [emptyFormat] ≠ .ok format := by
  have hempty : emptyFormat.isEmptyFormat = true := by decide
  refine ⟨checkedFormat_iff_formatOf.2.2 rfl, fun format h => ?_⟩
  have hnot := (checkedFormat_iff_formatOf.1.1 h).2 emptyFormat List.mem_cons_self
  cases hempty.symm.trans hnot

end SanitizeGen
