import SanitizeGen.Proofs.CheckedItem

/-!
# What the compiler accepts of a tagged item

An item that derives `Sanitize` has to be a struct without a format of its own, and each field may
have one attribute that names one format (`DataItem.IsWellTagged`). What is not accepted is told by
its first offence: on the item, in its kind, then in its fields one after the other
(`DataItem.FirstOffence`). Attributes of other names make no difference
(`checkSanitize_iff_isWellTagged`).
-/

namespace SanitizeGen

/-- The attributes that should name a format. -/
def formatAttributes (attrs : List Attribute) : List Attribute :=
  attrs.filter (·.isNamed formatAttribute)

/-- A field has no such attribute, or it has one, which names a format. -/
def TakesFormat (attrs : List Attribute) : Prop :=
  formatAttributes attrs = [] ∨ ∃ a format, formatAttributes attrs = [a] ∧ a.Gives format

/-! ### Offences in a list of options -/

/-- What is wrong with the first option of `ts`, where a format is `named` before it or not. -/
inductive OptionFault (named : Bool) (ts : Tokens) : FormatError → Prop where
  | name {e} : ts.optionName = .error e → OptionFault named ts (.form e)
  | unknown {name r} : ts.optionName = .ok (name, r) → FieldFormat.ofOption? name = none →
      OptionFault named ts (.unknownWord (name.word?.map Ident.text))
  | repeated {name r format} : named = true → ts.optionName = .ok (name, r) →
      FieldFormat.ofOption? name = some format → OptionFault named ts .repeated

/-- What is first wrong with the list of an attribute. A second option always is. -/
inductive ListFault (ts : Tokens) : FormatError → Prop where
  | empty : ts = [] → ListFault ts .missing
  | first {e} : ts ≠ [] → OptionFault false ts e → ListFault ts e
  | noComma {name format r} : ts.optionName = .ok (name, r) →
      FieldFormat.ofOption? name = some format → r ≠ [] → r.startsOp "," = false →
      ListFault ts (.form .noComma)
  | second {name format j r e} : ts.optionName = .ok (name, .leaf (.punct ',' j) :: r) →
      FieldFormat.ofOption? name = some format → r ≠ [] → OptionFault true r e → ListFault ts e

section

variable {σ ε : Type} {form : OptionError → ε}
  {handle : σ → SimplePath → Tokens → Except ε (σ × Tokens)} {s : σ} {ts : Tokens}

theorem readOptions_go_eq (hon : ReadsOn handle) {m n : Nat} (hts : ts ≠ [])
    (hm : ts.length ≤ m) (hn : ts.length ≤ n) :
    readOptions.go form handle m s ts = readOptions.go form handle n s ts := by
  have hpos := List.length_pos_iff.2 hts
  induction m generalizing n s ts with
  | zero => omega
  | succ m ih =>
    obtain ⟨n, rfl⟩ : ∃ k, n = k + 1 := ⟨n - 1, by omega⟩
    rw [readOptions.go, readOptions.go]
    rcases hname : ts.optionName with e | ⟨name, r⟩
    · rfl
    rcases hhandle : handle s name r with e | ⟨s', _ | ⟨t, r'⟩⟩
    · simp only [hhandle]
    · simp only [hhandle]
    · simp only [hhandle]
      split
      · split
        · rfl
        · rename_i hmore
          -- what is left is shorter, so either number of steps is still enough
          have hlt := Tokens.length_of_optionName hname
          have hle := hon hhandle
          rw [List.length_cons] at hle
          have hr : r' ≠ [] := fun hr => hmore (List.isEmpty_iff.2 hr)
          exact ih hr (by show r'.length ≤ m; omega) (by show r'.length ≤ n; omega)
            (List.length_pos_iff.2 hr)
      · rfl

theorem readOptions_of_ne_nil (hon : ReadsOn handle) (hts : ts ≠ []) :
    readOptions form handle s ts =
      match ts.optionName with
      | .error e => .error (form e)
      | .ok (name, r) =>
        match handle s name r with
        | .error e => .error e
        | .ok (s, []) => .ok s
        | .ok (s, r) =>
          if r.startsOp "," then readOptions form handle s (r.skip 1)
          else .error (form .noComma) := by
  rw [readOptions, if_neg (by simpa using hts)]
  obtain ⟨n, hn⟩ : ∃ n, ts.length = n + 1 :=
    Nat.exists_eq_add_one_of_ne_zero fun h => hts (List.length_eq_zero_iff.1 h)
  rw [hn, readOptions.go]
  rcases hname : ts.optionName with e | ⟨name, r⟩
  · rfl
  rcases hhandle : handle s name r with e | ⟨s', _ | ⟨t, r'⟩⟩
  · simp only [hhandle]
  · simp only [hhandle]
  · simp only [hhandle]
    split
    · rw [readOptions]
      split
      · rfl
      · rename_i hmore
        have hlt := Tokens.length_of_optionName hname
        have hle := hon hhandle
        rw [List.length_cons] at hle
        refine readOptions_go_eq hon (fun hr => hmore (List.isEmpty_iff.2 hr)) ?_ (Nat.le_refl _)
        show r'.length ≤ n
        omega
    · rfl

end

section

variable {named : Bool} {name : SimplePath} {r ts args : Tokens} {format : FieldFormat}
  {e : FormatError}

theorem optionName_unique {name' : SimplePath} {r' : Tokens} (h : ts.optionName = .ok (name, r))
    (h' : ts.optionName = .ok (name', r')) : name = name' ∧ r = r' :=
  Prod.mk.inj (Except.ok.inj (h.symm.trans h'))

theorem optionFault_of_error {e' : OptionError} (hname : ts.optionName = .error e') :
    OptionFault named ts e ↔ e = .form e' := by
  constructor
  · rintro (h | h | ⟨-, h, -⟩)
    · rw [Except.error.inj (h.symm.trans hname)]
    · cases h.symm.trans hname
    · cases h.symm.trans hname
  · rintro rfl
    exact .name hname

theorem optionFault_of_unknown (hname : ts.optionName = .ok (name, r))
    (hnone : FieldFormat.ofOption? name = none) :
    OptionFault named ts e ↔ e = .unknownWord (name.word?.map Ident.text) := by
  constructor
  · rintro (h | ⟨h, -⟩ | ⟨-, h, hsome⟩)
    · cases h.symm.trans hname
    · obtain ⟨rfl, -⟩ := optionName_unique h hname
      rfl
    · obtain ⟨rfl, -⟩ := optionName_unique h hname
      cases hnone.symm.trans hsome
  · rintro rfl
    exact .unknown hname hnone

theorem optionFault_of_format (hname : ts.optionName = .ok (name, r))
    (hsome : FieldFormat.ofOption? name = some format) :
    OptionFault named ts e ↔ named = true ∧ e = .repeated := by
  constructor
  · rintro (h | ⟨h, hnone⟩ | ⟨hnamed, -, -⟩)
    · cases h.symm.trans hname
    · obtain ⟨rfl, -⟩ := optionName_unique h hname
      cases hnone.symm.trans hsome
    · exact ⟨hnamed, rfl⟩
  · rintro ⟨hnamed, rfl⟩
    exact .repeated hnamed hname hsome

theorem listFault_of_not_format (hts : ts ≠ []) (hnot : ∀ {name r}, ts.optionName = .ok (name, r) →
    FieldFormat.ofOption? name = none) : ListFault ts e ↔ OptionFault false ts e := by
  constructor
  · rintro (h | ⟨-, h⟩ | ⟨hname, hsome, -, -⟩ | ⟨hname, hsome, -, -⟩)
    · exact absurd h hts
    · exact h
    · cases (hnot hname).symm.trans hsome
    · cases (hnot hname).symm.trans hsome
  · exact .first hts

theorem listFault_of_format (hts : ts ≠ []) (hname : ts.optionName = .ok (name, r))
    (hsome : FieldFormat.ofOption? name = some format) : ListFault ts e ↔
      (r ≠ [] ∧ r.startsOp "," = false ∧ e = .form .noComma) ∨
      ∃ j r', r = .leaf (.punct ',' j) :: r' ∧ r' ≠ [] ∧ OptionFault true r' e := by
  constructor
  · rintro (h | ⟨-, h⟩ | ⟨hname', -, hr, hcomma⟩ | ⟨hname', -, hr, h⟩)
    · exact absurd h hts
    · cases ((optionFault_of_format hname hsome).1 h).1
    · obtain ⟨rfl, rfl⟩ := optionName_unique hname' hname
      exact .inl ⟨hr, hcomma, rfl⟩
    · obtain ⟨rfl, rfl⟩ := optionName_unique hname' hname
      exact .inr ⟨_, _, rfl, hr, h⟩
  · rintro (⟨hr, hcomma, rfl⟩ | ⟨j, r', rfl, hr, h⟩)
    · exact .noComma hname hsome hr hcomma
    · exact .second hname hsome hr h

/-- One option of a format attribute where a struct is compiled. -/
abbrev checkedOption (found : Option FieldFormat) (name : SimplePath) (rest : Tokens) :
    Except FormatError (Option FieldFormat × Tokens) :=
  formatOption (fun name => .unknownWord (name.word?.map Ident.text)) found name rest

theorem readOptions_eq_error_of_named (hts : ts ≠ []) :
    readOptions .form checkedOption (some format) ts = .error e ↔ OptionFault true ts e := by
  rw [readOptions_of_ne_nil readsOn_formatOption hts]
  rcases hname : ts.optionName with e' | ⟨name, r⟩
  · rw [optionFault_of_error hname, Except.error.injEq, eq_comm]
  · rcases hoption : FieldFormat.ofOption? name with _ | other
    · rw [optionFault_of_unknown hname hoption]
      simp only [formatOption, hoption, Except.error.injEq, eq_comm]
    · rw [optionFault_of_format hname hoption]
      simp only [formatOption, hoption, Option.isSome_some, if_true, Except.error.injEq, eq_comm,
        true_and]

theorem readOptions_eq_error (hargs : args ≠ []) :
    readOptions .form checkedOption none args = .error e ↔ ListFault args e := by
  rw [readOptions_of_ne_nil readsOn_formatOption hargs]
  rcases hname : args.optionName with e' | ⟨name, r⟩
  · rw [listFault_of_not_format hargs fun h => (by cases h.symm.trans hname),
      optionFault_of_error hname, Except.error.injEq, eq_comm]
  rcases hoption : FieldFormat.ofOption? name with _ | format
  · have hnot {name' r'} (h : args.optionName = .ok (name', r')) :
        FieldFormat.ofOption? name' = none := by
      rwa [(optionName_unique h hname).1]
    rw [listFault_of_not_format hargs hnot, optionFault_of_unknown hname hoption]
    simp only [formatOption, hoption, Except.error.injEq, eq_comm]
  rw [listFault_of_format hargs hname hoption]
  simp only [formatOption, hoption, Option.isSome_none, Bool.false_eq_true, if_false]
  rcases r with _ | ⟨t, r⟩
  · simp
  by_cases hcomma : Tokens.startsOp (t :: r) "," = true
  · obtain ⟨j, r', heq⟩ := Tokens.startsOp_comma.1 hcomma
    obtain ⟨rfl, rfl⟩ := List.cons.inj heq
    simp only [hcomma, if_true]
    show readOptions .form checkedOption (some format) r = .error e ↔ _
    by_cases hr : r = []
    · subst hr
      simp [readOptions]
    · rw [readOptions_eq_error_of_named hr]
      simp [hr]
  · have hpunct : ∀ j, t ≠ .leaf (.punct ',' j) := by
      rintro j rfl
      exact hcomma (Tokens.startsOp_comma.2 ⟨j, r, rfl⟩)
    simp [hcomma, hpunct, eq_comm]

end

/-- A check that accepts what is `P`, and refuses with `e` what is `Q e`, does nothing else if
everything is one or the other. -/
theorem iff_of_total {α ε : Type} {x : Except ε α} {P : Prop} {Q : ε → Prop}
    (hok : P → ∃ a, x = .ok a) (herror : ∀ e, Q e → x = .error e) (htotal : P ∨ ∃ e, Q e) :
    ((∃ a, x = .ok a) ↔ P) ∧ ∀ e, x = .error e ↔ Q e := by
  refine ⟨⟨fun ⟨a, ha⟩ => ?_, hok⟩, fun e => ⟨fun he => ?_, herror e⟩⟩
  · refine htotal.resolve_right fun ⟨e, he⟩ => ?_
    cases ha.symm.trans (herror e he)
  · rcases htotal with h | ⟨e', he'⟩
    · obtain ⟨a, ha⟩ := hok h
      cases he.symm.trans ha
    · rwa [Except.error.inj (he.symm.trans (herror e' he'))]

/-! ### Offences in the attributes of a field -/

/-- What is wrong with an attribute that should name a format. -/
inductive Attribute.Fault (a : Attribute) : FormatError → Prop where
  | bare {p} : a.content = .path p → Fault a .missing
  | nameValue {p value} : a.content = .nameValue p value → Fault a .nameValue
  | list {p d args e} : a.content = .list p d args → ListFault args e → Fault a e

/-- What is first wrong with the attributes of a field. A second one that names a format always
is. -/
inductive FieldFault (attrs : List Attribute) : FormatError → Prop where
  | first {a rest e} : formatAttributes attrs = a :: rest → a.Fault e → FieldFault attrs e
  | second {a b rest format e} : formatAttributes attrs = a :: b :: rest → a.Gives format →
      b.Fault e → FieldFault attrs e
  | repeated {a b rest format other} : formatAttributes attrs = a :: b :: rest →
      a.Gives format → b.Gives other → FieldFault attrs .repeated

section

variable {a : Attribute} {as attrs : List Attribute} {found : Option FieldFormat}
  {format : FieldFormat} {e : FormatError}

theorem listFault_nil : ListFault [] e ↔ e = .missing := by
  constructor
  · rintro (- | ⟨h, -⟩ | ⟨h, -, -, -⟩ | ⟨h, -, -, -⟩)
    · rfl
    · exact absurd rfl h
    · cases h
    · cases h
  · rintro rfl
    exact .empty rfl

theorem Attribute.gives_or_fault (a : Attribute) : (∃ format, a.Gives format) ∨ ∃ e, a.Fault e := by
  rcases hc : a.content with p | ⟨p, d, args⟩ | ⟨p, value⟩
  · exact .inr ⟨_, .bare hc⟩
  · by_cases hargs : args = []
    · exact .inr ⟨_, .list hc (.empty hargs)⟩
    · rcases hread : readOptions .form checkedOption none args with e | found
      · exact .inr ⟨e, .list hc ((readOptions_eq_error hargs).1 hread)⟩
      · obtain ⟨hnil, -⟩ | ⟨-, format, hnamed, -⟩ := readOptions_format.1 hread
        · exact absurd hnil hargs
        · exact .inl ⟨format, p, d, args, hc, hnamed⟩
  · exact .inr ⟨_, .nameValue hc⟩

theorem checkedNamedFormat_of_fault (ha : a.isNamed formatAttribute = true) (h : a.Fault e) :
    checkedNamedFormat found (a :: as) = .error e := by
  rw [checkedNamedFormat, if_pos ha]
  rcases h with hc | hc | @⟨p, d, args, e, hc, h⟩
  · rw [hc]
  · rw [hc]
  · simp only [hc]
    by_cases hargs : args = []
    · subst hargs
      rw [listFault_nil.1 h]
      rfl
    · have hread : readOptions .form (formatOption fun name =>
          .unknownWord (name.word?.map Ident.text)) none args = .error e :=
        (readOptions_eq_error hargs).2 h
      rw [hread]

theorem checkedNamedFormat_of_gives (ha : a.isNamed formatAttribute = true) (h : a.Gives format) :
    checkedNamedFormat found (a :: as) =
      if found.isSome then .error .repeated else checkedNamedFormat (some format) as := by
  obtain ⟨p, d, args, hc, hnamed⟩ := h
  have hread : readOptions .form (formatOption fun name =>
      .unknownWord (name.word?.map Ident.text)) none args = .ok (some format) :=
    readOptions_format.2 (.inr ⟨rfl, format, hnamed, rfl⟩)
  rw [checkedNamedFormat, if_pos ha]
  simp only [hc, hread]

theorem checkedNamedFormat_formatAttributes (attrs : List Attribute) (found : Option FieldFormat) :
    checkedNamedFormat found (formatAttributes attrs) = checkedNamedFormat found attrs := by
  induction attrs generalizing found with
  | nil => rfl
  | cons a as ih =>
    by_cases ha : a.isNamed formatAttribute = true
    · have hcons : formatAttributes (a :: as) = a :: formatAttributes as := by
        simp [formatAttributes, ha]
      rw [hcons, checkedNamedFormat, checkedNamedFormat]
      simp only [ih]
    · have hcons : formatAttributes (a :: as) = formatAttributes as := by
        simp [formatAttributes, ha]
      rw [hcons, ih, checkedNamedFormat, if_neg ha]

theorem isNamed_of_mem_formatAttributes (h : a ∈ formatAttributes attrs) :
    a.isNamed formatAttribute = true :=
  (List.mem_filter.1 h).2

theorem exists_ok_of_takesFormat (h : TakesFormat attrs) :
    ∃ found, checkedNamedFormat none attrs = .ok found := by
  rw [← checkedNamedFormat_formatAttributes]
  rcases h with h | ⟨a, format, h, hgives⟩
  · exact ⟨none, by rw [h, checkedNamedFormat]⟩
  · have ha : a.isNamed formatAttribute = true :=
      isNamed_of_mem_formatAttributes (show a ∈ formatAttributes attrs by simp [h])
    exact ⟨some format, by rw [h, checkedNamedFormat_of_gives ha hgives]; rfl⟩

theorem eq_error_of_fieldFault (h : FieldFault attrs e) :
    checkedNamedFormat none attrs = .error e := by
  have hnamed {a : Attribute} : a ∈ formatAttributes attrs → a.isNamed formatAttribute = true :=
    isNamed_of_mem_formatAttributes
  rw [← checkedNamedFormat_formatAttributes]
  rcases h with ⟨h, hfault⟩ | ⟨h, hgives, hfault⟩ | ⟨h, hgives, hother⟩
  · rw [h] at hnamed ⊢
    exact checkedNamedFormat_of_fault (hnamed (by simp)) hfault
  · rw [h] at hnamed ⊢
    rw [checkedNamedFormat_of_gives (hnamed (by simp)) hgives]
    exact checkedNamedFormat_of_fault (hnamed (by simp)) hfault
  · rw [h] at hnamed ⊢
    rw [checkedNamedFormat_of_gives (hnamed (by simp)) hgives]
    exact checkedNamedFormat_of_gives (hnamed (by simp)) hother

theorem takesFormat_or_fieldFault (attrs : List Attribute) :
    TakesFormat attrs ∨ ∃ e, FieldFault attrs e := by
  rcases h : formatAttributes attrs with _ | ⟨a, rest⟩
  · exact .inl (.inl h)
  obtain ⟨format, hgives⟩ | ⟨e, hfault⟩ := a.gives_or_fault
  · rcases rest with _ | ⟨b, rest⟩
    · exact .inl (.inr ⟨a, format, h, hgives⟩)
    obtain ⟨other, hother⟩ | ⟨e, hfault⟩ := b.gives_or_fault
    · exact .inr ⟨_, .repeated h hgives hother⟩
    · exact .inr ⟨e, .second h hgives hfault⟩
  · exact .inr ⟨e, .first h hfault⟩

theorem checkedFormat_iff_takesFormat (attrs : List Attribute) :
    ((∃ format, checkedFormat attrs = .ok format) ↔ TakesFormat attrs) ∧
    ∀ e, checkedFormat attrs = .error e ↔ FieldFault attrs e := by
  refine iff_of_total (fun h => ?_) (fun e h => ?_) (takesFormat_or_fieldFault attrs)
  · obtain ⟨found, hfound⟩ := exists_ok_of_takesFormat h
    exact ⟨_, checkedFormat_eq_ok.2 ⟨found, hfound, rfl⟩⟩
  · rw [checkedFormat, eq_error_of_fieldFault h]
    rfl

end

/-! ### Offences of an item -/

/-- The field with its format attributes alone. -/
def Field.formatsOnly (f : Field) : Field := { f with attrs := formatAttributes f.attrs }

/-- The fields with their format attributes alone. -/
def Fields.formatsOnly : Fields → Fields
  | named fields => named (fields.map fun (name, f) => (name, f.formatsOnly))
  | tuple fields => tuple (fields.map Field.formatsOnly)
  | unit => unit

/-- What the item is, with the format attributes of its fields alone. -/
def DataKind.formatsOnly : DataKind → DataKind
  | struct fields => struct fields.formatsOnly
  | enum => enum
  | union => union

namespace DataItem

/-- An item is a struct without a format of its own, and each field takes its format. -/
structure IsWellTagged (d : DataItem) : Prop where
  own : formatAttributes d.attrs = []
  struct : ∃ fields, d.kind = .struct fields ∧ ∀ f ∈ fields.toList, TakesFormat f.attrs

/-- What is first wrong with an item: with its own attributes, with its kind, then with its fields
in declaration order. -/
inductive FirstOffence (d : DataItem) : SanitizeError → Prop where
  | bareOnItem {a rest p} : formatAttributes d.attrs = a :: rest → a.content = .path p →
      FirstOffence d .bareOnItem
  | optionsOnItem {a rest} : formatAttributes d.attrs = a :: rest →
      (∀ p, a.content ≠ .path p) → FirstOffence d .optionsOnItem
  | notStruct : formatAttributes d.attrs = [] → (∀ fields, d.kind ≠ .struct fields) →
      FirstOffence d .notStruct
  | field {fields before f after e} : formatAttributes d.attrs = [] → d.kind = .struct fields →
      fields.toList = before ++ f :: after → (∀ g ∈ before, TakesFormat g.attrs) →
      FieldFault f.attrs e → FirstOffence d (.field e)

end DataItem

section

variable {d : DataItem} {e : SanitizeError} {before after fs : List Field} {f : Field}

theorem Fields.toList_formatsOnly (fields : Fields) :
    fields.formatsOnly.toList = fields.toList.map Field.formatsOnly := by
  cases fields with
  | named fields => simp [formatsOnly, toList]
  | tuple fields => simp [formatsOnly, toList]
  | unit => rfl

theorem checkFields_map_formatsOnly (fs : List Field) :
    checkFields (fs.map Field.formatsOnly) = checkFields fs := by
  induction fs with
  | nil => rfl
  | cons f fs ih =>
    rw [List.map_cons, checkFields, checkFields, ih, checkedFormat, checkedFormat,
      Field.formatsOnly, checkedNamedFormat_formatAttributes]

theorem checkFields_eq_error {e : FormatError} (hbefore : ∀ g ∈ before, TakesFormat g.attrs)
    (hf : FieldFault f.attrs e) : checkFields (before ++ f :: after) = .error e := by
  induction before with
  | nil => rw [List.nil_append, checkFields, (checkedFormat_iff_takesFormat f.attrs).2 e |>.2 hf]
  | cons g gs ih =>
    obtain ⟨hg, hgs⟩ := List.forall_mem_cons.1 hbefore
    obtain ⟨format, hformat⟩ := (checkedFormat_iff_takesFormat g.attrs).1.2 hg
    rw [List.cons_append, checkFields, hformat]
    exact ih hgs

theorem takesFormat_or_first (fs : List Field) : (∀ f ∈ fs, TakesFormat f.attrs) ∨
    ∃ before f after e, fs = before ++ f :: after ∧ (∀ g ∈ before, TakesFormat g.attrs) ∧
      FieldFault f.attrs e := by
  induction fs with
  | nil => exact .inl nofun
  | cons f fs ih =>
    obtain hf | ⟨e, hf⟩ := takesFormat_or_fieldFault f.attrs
    · obtain hfs | ⟨before, g, after, e, rfl, hbefore, hg⟩ := ih
      · exact .inl (List.forall_mem_cons.2 ⟨hf, hfs⟩)
      · exact .inr ⟨f :: before, g, after, e, rfl, List.forall_mem_cons.2 ⟨hf, hbefore⟩, hg⟩
    · exact .inr ⟨[], f, fs, e, rfl, nofun, hf⟩

theorem checkSanitize_eq (d : DataItem) : checkSanitize d =
    match formatAttributes d.attrs with
    | a :: _ =>
      match a.content with
      | .path _ => .error .bareOnItem
      | _ => .error .optionsOnItem
    | [] =>
      match d.kind with
      | .struct fields => (checkFields fields.toList).mapError .field
      | _ => .error .notStruct := by
  rw [checkSanitize, ← List.head?_filter, ← formatAttributes]
  rcases formatAttributes d.attrs with _ | ⟨a, rest⟩
  · rfl
  · rfl

theorem DataItem.IsWellTagged.checkSanitize_eq_ok (h : d.IsWellTagged) :
    checkSanitize d = .ok () := by
  obtain ⟨fields, hkind, hfields⟩ := h.struct
  have hcheck : checkFields fields.toList = .ok () :=
    checkFields_eq_ok.2 fun f hf => (checkedFormat_iff_takesFormat f.attrs).1.2 (hfields f hf)
  rw [checkSanitize_eq, h.own, hkind]
  simp only [hcheck, Except.mapError]

theorem DataItem.FirstOffence.checkSanitize_eq_error (h : d.FirstOffence e) :
    checkSanitize d = .error e := by
  rw [checkSanitize_eq]
  rcases h with ⟨hown, hc⟩ | ⟨hown, hc⟩ | ⟨hown, hkind⟩ | ⟨hown, hkind, hfields, hbefore, hf⟩
  · simp only [hown, hc]
  · rw [hown]
    rename_i a _
    rcases h : a.content with p | _ | _
    · exact absurd h (hc p)
    · simp only [h]
    · simp only [h]
  · rw [hown]
    rcases h : d.kind with fields | _ | _
    · exact absurd h (hkind fields)
    · rfl
    · rfl
  · rw [hown, hkind]
    simp only [hfields, checkFields_eq_error hbefore hf, Except.mapError]

theorem DataItem.isWellTagged_or_firstOffence (d : DataItem) :
    d.IsWellTagged ∨ ∃ e, d.FirstOffence e := by
  rcases hown : formatAttributes d.attrs with _ | ⟨a, rest⟩
  · rcases hkind : d.kind with fields | _ | _
    · obtain hall | ⟨before, f, after, e, hfields, hbefore, hf⟩ :=
        takesFormat_or_first fields.toList
      · exact .inl ⟨hown, fields, hkind, hall⟩
      · exact .inr ⟨_, .field hown hkind hfields hbefore hf⟩
    · exact .inr ⟨_, .notStruct hown (by simp [hkind])⟩
    · exact .inr ⟨_, .notStruct hown (by simp [hkind])⟩
  · rcases hc : a.content with p | _ | _
    · exact .inr ⟨_, .bareOnItem hown hc⟩
    · exact .inr ⟨_, .optionsOnItem hown (by simp [hc])⟩
    · exact .inr ⟨_, .optionsOnItem hown (by simp [hc])⟩

theorem checkSanitize_formatsOnly (d : DataItem) (name : Ident) (generics : Generics) :
    checkSanitize ⟨formatAttributes d.attrs, name, generics, d.kind.formatsOnly⟩ =
      checkSanitize d := by
  rw [checkSanitize_eq, checkSanitize_eq]
  have hown : formatAttributes (formatAttributes d.attrs) = formatAttributes d.attrs :=
    List.filter_filter.trans (by simp [formatAttributes])
  simp only [hown]
  rcases formatAttributes d.attrs with _ | ⟨a, rest⟩
  · rcases d.kind with fields | _ | _
    · simp only [DataKind.formatsOnly, Fields.toList_formatsOnly, checkFields_map_formatsOnly]
    · rfl
    · rfl
  · rfl

end

/-- An item is compiled exactly if it is a struct without a format of its own and each field has at
most one attribute that names a format, with exactly one. What is refused is refused over its first
offence. Names, type parameters and attributes of other names make no difference. -/
theorem checkSanitize_iff_isWellTagged (d : DataItem) :
    (checkSanitize d = .ok () ↔ d.IsWellTagged) ∧
    (∀ e, checkSanitize d = .error e ↔ d.FirstOffence e) ∧
    ∀ name generics, checkSanitize
      ⟨formatAttributes d.attrs, name, generics, d.kind.formatsOnly⟩ = checkSanitize d := by
  obtain ⟨hok, herror⟩ := iff_of_total
    (fun h : d.IsWellTagged => ⟨(), h.checkSanitize_eq_ok⟩)
    (fun e h => h.checkSanitize_eq_error) d.isWellTagged_or_firstOffence
  refine ⟨?_, herror, checkSanitize_formatsOnly d⟩
  rw [← hok]
  exact ⟨fun h => ⟨(), h⟩, fun ⟨_, h⟩ => h⟩

end SanitizeGen
