import SanitizeGen.Tag.PackageFlag
import SanitizeGen.Proofs.OptionLists

/-!
# Flags that are accepted

A marker's attributes give flags, in the order in which they are written (`MarkerFlags`). Where the
marker is compiled there has to be one flag in all; where code is generated the last one counts, so
that a flag can stand there which the compiler refuses (`packageFlag_iff_markerFlags`).
-/

namespace SanitizeGen

/-- The word for a flag. -/
def flagWord (b : Bool) : String := if b then "true" else "false"

/-- The options give the flags: each is written `debug = true` or `debug = false`, with commas in
between and perhaps one behind the last. -/
inductive GivesFlags : Tokens → List Bool → Prop where
  | nil : GivesFlags [] []
  | last {i j v b} : i.text = "debug" → v.text = flagWord b →
      GivesFlags [.leaf (.word i), .leaf (.punct '=' j), .leaf (.word v)] [b]
  | comma {i j v b k rest flags} : i.text = "debug" → v.text = flagWord b →
      GivesFlags rest flags →
      GivesFlags (.leaf (.word i) :: .leaf (.punct '=' j) :: .leaf (.word v) ::
        .leaf (.punct ',' k) :: rest) (b :: flags)

/-- The flags that the attributes of a marker give. Each has a list. -/
inductive MarkerFlags : List Attribute → List Bool → Prop where
  | nil : MarkerFlags [] []
  | other {a as flags} : a.isNamed flagAttribute = false → MarkerFlags as flags →
      MarkerFlags (a :: as) flags
  | own {a p d args as own flags} : a.isNamed flagAttribute = true → a.content = .list p d args →
      GivesFlags args own → MarkerFlags as flags → MarkerFlags (a :: as) (own ++ flags)

/-! ### Words of flags -/

theorem flagWord_inj {b c : Bool} (h : flagWord b = flagWord c) : b = c := by
  cases b <;> cases c
  · rfl
  · exact absurd h (by decide)
  · exact absurd h (by decide)
  · rfl

/-- A word for a flag is not raw. -/
theorem Ident.text_eq_flagWord {i : Ident} {b : Bool} :
    i.text = flagWord b ↔ i.raw = false ∧ i.name = flagWord b := by
  rcases h : i.raw with _ | _
  · simp [text, h]
  · have hne : i.text ≠ flagWord b := by
      intro he
      have htext := congrArg String.toList he
      rw [text, if_pos h, String.toList_append] at htext
      cases b <;> cases htext
    simp [hne]

theorem Tokens.startsWord_flagWord {ts : Tokens} {b : Bool} :
    ts.startsWord (flagWord b) = true ↔ ∃ v r, ts = .leaf (.word v) :: r ∧ v.text = flagWord b := by
  constructor
  · intro h
    unfold startsWord at h
    split at h
    · rename_i v r
      simp only [Bool.and_eq_true, Bool.not_eq_true', beq_iff_eq] at h
      exact ⟨v, r, rfl, Ident.text_eq_flagWord.2 h⟩
    · cases h
  · rintro ⟨v, r, rfl, hv⟩
    obtain ⟨hraw, hname⟩ := Ident.text_eq_flagWord.1 hv
    simp [startsWord, hraw, hname]

theorem Tokens.flagValue_eq_ok {ts r : Tokens} {b : Bool} : ts.flagValue = .ok (b, r) ↔
    ∃ j v, ts = .leaf (.punct '=' j) :: .leaf (.word v) :: r ∧ v.text = flagWord b := by
  constructor
  · intro h
    unfold flagValue at h
    split at h
    · rename_i heq
      obtain ⟨j, rest, rfl⟩ :=
        startsOpChars_singleton.1 (show startsOpChars ['='] ts = true from heq)
      simp only [skip, List.drop_succ_cons, List.drop_zero] at h
      split at h
      · rename_i hword
        obtain ⟨v, r', rfl, hv⟩ := (startsWord_flagWord (b := true)).1 hword
        obtain ⟨rfl, rfl⟩ := Prod.mk.inj (Except.ok.inj h)
        exact ⟨j, v, rfl, hv⟩
      · split at h
        · rename_i hword
          obtain ⟨v, r', rfl, hv⟩ := (startsWord_flagWord (b := false)).1 hword
          obtain ⟨rfl, rfl⟩ := Prod.mk.inj (Except.ok.inj h)
          exact ⟨j, v, rfl, hv⟩
        · cases h
    · cases h
  · rintro ⟨j, v, rfl, hv⟩
    have heq : startsOp (.leaf (.punct '=' j) :: .leaf (.word v) :: r) "=" = true := rfl
    have hword := startsWord_flagWord.2 ⟨v, r, rfl, hv⟩
    rw [flagValue, if_pos heq]
    cases b with
    | true => exact if_pos hword
    | false =>
      have hne : ¬startsWord (.leaf (.word v) :: r) "true" = true := by
        intro htrue
        obtain ⟨w, r', hw, hwtext⟩ := (startsWord_flagWord (b := true)).1 htrue
        cases hw
        cases flagWord_inj (hv.symm.trans hwtext)
      exact (if_neg hne).trans (if_pos hword)

/-- A list of options gives at most one list of flags. -/
theorem GivesFlags.unique {ts : Tokens} {xs ys : List Bool} (hx : GivesFlags ts xs)
    (hy : GivesFlags ts ys) : xs = ys := by
  induction hx generalizing ys with
  | nil =>
    cases hy
    rfl
  | last _ hv =>
    cases hy with
    | last _ hw => rw [flagWord_inj (hv.symm.trans hw)]
  | comma _ hv _ ih =>
    cases hy with
    | comma _ hw hrest => rw [flagWord_inj (hv.symm.trans hw), ih hrest]

/-- The attributes of a marker give at most one list of flags. -/
theorem MarkerFlags.unique {attrs : List Attribute} {xs ys : List Bool} (hx : MarkerFlags attrs xs)
    (hy : MarkerFlags attrs ys) : xs = ys := by
  induction hx generalizing ys with
  | nil =>
    cases hy
    rfl
  | other hnot _ ih =>
    cases hy with
    | other _ hrest => exact ih hrest
    | own hnamed => cases hnot.symm.trans hnamed
  | own hnamed hc hown _ ih =>
    cases hy with
    | other hnot => cases hnot.symm.trans hnamed
    | own _ hc' hown' hrest =>
      cases hc.symm.trans hc'
      rw [hown.unique hown', ih hrest]

/-! ### Lists of options -/

/-- The flags are taken one by one, each if `allowed` permits it after what was found before. The
last one stays. -/
def Takes (allowed : Option Bool → Prop) : Option Bool → List Bool → Option Bool → Prop
  | found, [], found' => found' = found
  | found, b :: bs, found' => allowed found ∧ Takes allowed (some b) bs found'

/-- The handler takes a flag where `allowed` permits it. -/
def TakesFlag (allowed : Option Bool → Prop)
    (handle : Option Bool → SimplePath → Tokens → Except FlagError (Option Bool × Tokens)) : Prop :=
  ∀ found name r found' r', handle found name r = .ok (found', r') ↔
    allowed found ∧ name.isWord "debug" = true ∧
      ∃ b, r.flagValue = .ok (b, r') ∧ found' = some b

section

variable {allowed : Option Bool → Prop} {found found' : Option Bool} {xs ys : List Bool}

theorem takes_append : Takes allowed found (xs ++ ys) found' ↔
    ∃ m, Takes allowed found xs m ∧ Takes allowed m ys found' := by
  induction xs generalizing found with
  | nil => simp [Takes]
  | cons b xs ih => simp [Takes, ih, and_assoc]

/-- Where any number of flags is permitted, the last one counts. -/
theorem takes_any : Takes (fun _ => True) found xs found' ↔
    found' = (found.toList ++ xs).getLast? := by
  induction xs generalizing found with
  | nil => cases found <;> simp [Takes]
  | cons b xs ih =>
    rw [Takes, ih]
    cases found <;> simp

/-- Where a flag is permitted only if there is none yet, there is at most one. -/
theorem takes_one : Takes (· = none) found xs found' ↔ found'.toList = found.toList ++ xs := by
  rcases xs with _ | ⟨b, _ | ⟨c, xs⟩⟩
  · cases found <;> cases found' <;> simp [Takes]
  · cases found <;> cases found' <;> simp [Takes]
  · have hlen : (found'.toList).length ≠ (found.toList ++ b :: c :: xs).length := by
      cases found' <;> simp
      omega
    simp [Takes, mt (congrArg List.length) hlen]

/-- What the options of a list lead to is what taking their flags leads to. -/
theorem readOptions_flags {handle : Option Bool → SimplePath → Tokens →
    Except FlagError (Option Bool × Tokens)} {args : Tokens} (hh : TakesFlag allowed handle) :
    readOptions FlagError.form handle found args = .ok found' ↔
      ∃ flags, GivesFlags args flags ∧ Takes allowed found flags found' := by
  have hon : ReadsOn handle := by
    intro found name r found' r' h
    obtain ⟨-, -, b, hvalue, -⟩ := (hh ..).1 h
    obtain ⟨j, v, rfl, -⟩ := Tokens.flagValue_eq_ok.1 hvalue
    simp only [List.length_cons]
    omega
  rw [readOptions_eq_ok_iff hon]
  constructor
  · intro h
    induction h with
    | nil => exact ⟨[], .nil, rfl⟩
    | last hname hoption =>
      obtain ⟨hallowed, hword, b, hvalue, rfl⟩ := (hh ..).1 hoption
      obtain ⟨i, rfl, hi⟩ := SimplePath.isWord_iff.1 hword
      obtain ⟨j, v, rfl, hv⟩ := Tokens.flagValue_eq_ok.1 hvalue
      obtain ⟨rfl, -⟩ := Tokens.optionName_eq_word.1 hname
      exact ⟨[b], .last hi hv, hallowed, rfl⟩
    | comma hname hoption _ ih =>
      obtain ⟨hallowed, hword, b, hvalue, rfl⟩ := (hh ..).1 hoption
      obtain ⟨i, rfl, hi⟩ := SimplePath.isWord_iff.1 hword
      obtain ⟨j, v, rfl, hv⟩ := Tokens.flagValue_eq_ok.1 hvalue
      obtain ⟨rfl, -⟩ := Tokens.optionName_eq_word.1 hname
      obtain ⟨flags, hflags, htakes⟩ := ih
      exact ⟨b :: flags, .comma hi hv hflags, hallowed, htakes⟩
  · rintro ⟨flags, hflags, htakes⟩
    induction hflags generalizing found with
    | nil =>
      obtain rfl := htakes
      exact .nil
    | @last i j v b hi hv =>
      obtain ⟨hallowed, rfl⟩ := htakes
      exact .last (Tokens.optionName_eq_word.2 ⟨rfl, Tokens.moreSegments_punct (by decide)⟩)
        ((hh ..).2 ⟨hallowed, SimplePath.isWord_iff.2 ⟨i, rfl, hi⟩, b,
          Tokens.flagValue_eq_ok.2 ⟨j, v, rfl, hv⟩, rfl⟩)
    | @comma i j v b k rest flags hi hv _ ih =>
      obtain ⟨hallowed, htakes⟩ := htakes
      exact .comma (Tokens.optionName_eq_word.2 ⟨rfl, Tokens.moreSegments_punct (by decide)⟩)
        ((hh ..).2 ⟨hallowed, SimplePath.isWord_iff.2 ⟨i, rfl, hi⟩, b,
          Tokens.flagValue_eq_ok.2 ⟨j, v, rfl, hv⟩, rfl⟩) (ih htakes)

end

theorem takesFlag_flagOption : TakesFlag (fun _ => True) flagOption := by
  intro found name r found' r'
  rw [flagOption]
  by_cases hname : name.isWord "debug" = true
  · rcases hvalue : r.flagValue with e | ⟨b, rest⟩
    · simp [hname]
    · cases b <;> simp [hname, eq_comm, and_comm]
  · simp [hname]

theorem takesFlag_checkedFlagOption : TakesFlag (· = none) checkedFlagOption := by
  intro found name r found' r'
  rw [checkedFlagOption]
  by_cases hname : name.isWord "debug" = true
  · rcases found with _ | b
    · rcases hvalue : r.flagValue with e | ⟨b, rest⟩
      · simp [hname]
      · cases b <;> simp [hname, eq_comm, and_comm]
    · simp [hname]
  · simp [hname]

/-! ### All attributes of a marker -/

/-- Attributes are read one by one; those of a marker have lists, whose options `handle` takes. -/
structure ReadsMarker
    (handle : Option Bool → SimplePath → Tokens → Except FlagError (Option Bool × Tokens))
    (read : Option Bool → List Attribute → Except FlagError (Option Bool)) : Prop where
  nil : ∀ found, read found [] = .ok found
  other : ∀ {found a as}, a.isNamed flagAttribute = false → read found (a :: as) = read found as
  own : ∀ {found a as found'}, a.isNamed flagAttribute = true →
    (read found (a :: as) = .ok found' ↔ ∃ p d args m, a.content = .list p d args ∧
      readOptions FlagError.form handle found args = .ok m ∧ read m as = .ok found')

theorem readsMarker_lastFlag : ReadsMarker flagOption lastFlag := by
  refine ⟨fun _ => rfl, fun ha => by simp [lastFlag, ha], fun {found a as found'} ha => ?_⟩
  rw [lastFlag, if_pos ha]
  constructor
  · intro h
    split at h
    · cases h
    · cases h
    · rename_i p d args hc
      split at h
      · rename_i m hr
        exact ⟨p, d, args, m, hc, hr, h⟩
      · cases h
  · rintro ⟨p, d, args, m, hc, hr, h⟩
    simp only [hc, hr, h]

theorem readsMarker_onlyFlag : ReadsMarker checkedFlagOption onlyFlag := by
  refine ⟨fun _ => rfl, fun ha => by simp [onlyFlag, ha], fun {found a as found'} ha => ?_⟩
  rw [onlyFlag, if_pos ha]
  constructor
  · intro h
    split at h
    · rename_i p d args hc
      split at h
      · rename_i m hr
        exact ⟨p, d, args, m, hc, hr, h⟩
      · cases h
    · cases h
  · rintro ⟨p, d, args, m, hc, hr, h⟩
    simp only [hc, hr, h]

/-- What the attributes of a marker lead to is what taking their flags leads to. -/
theorem ReadsMarker.eq_ok_iff {handle : Option Bool → SimplePath → Tokens →
    Except FlagError (Option Bool × Tokens)}
    {read : Option Bool → List Attribute → Except FlagError (Option Bool)}
    {allowed : Option Bool → Prop} {found found' : Option Bool} {attrs : List Attribute}
    (h : ReadsMarker handle read) (hh : TakesFlag allowed handle) :
    read found attrs = .ok found' ↔
      ∃ flags, MarkerFlags attrs flags ∧ Takes allowed found flags found' := by
  induction attrs generalizing found with
  | nil =>
    rw [h.nil]
    constructor
    · intro hok
      exact ⟨[], .nil, (Except.ok.inj hok).symm⟩
    · rintro ⟨flags, ⟨-⟩, rfl⟩
      rfl
  | cons a as ih =>
    rcases ha : a.isNamed flagAttribute with _ | _
    · rw [h.other ha, ih]
      constructor
      · rintro ⟨flags, hflags, htakes⟩
        exact ⟨flags, .other ha hflags, htakes⟩
      · rintro ⟨flags, hflags, htakes⟩
        cases hflags with
        | other _ hflags => exact ⟨flags, hflags, htakes⟩
        | own hnamed => cases ha.symm.trans hnamed
    · rw [h.own ha]
      constructor
      · rintro ⟨p, d, args, m, hc, hr, hrest⟩
        obtain ⟨own, hown, htakes⟩ := (readOptions_flags hh).1 hr
        obtain ⟨flags, hflags, hmore⟩ := ih.1 hrest
        exact ⟨own ++ flags, .own ha hc hown hflags, takes_append.2 ⟨m, htakes, hmore⟩⟩
      · rintro ⟨flags, hflags, htakes⟩
        cases hflags with
        | other hnot => cases hnot.symm.trans ha
        | own _ hc hown hflags =>
          obtain ⟨m, htakes, hmore⟩ := takes_append.1 htakes
          exact ⟨_, _, _, m, hc, (readOptions_flags hh).2 ⟨_, hown, htakes⟩,
            ih.2 ⟨_, hflags, hmore⟩⟩

section

variable {attrs : List Attribute} {b : Bool}

/-- Where code is generated, the last flag counts. -/
theorem packageFlag_eq_ok : packageFlag attrs = .ok b ↔
    ∃ flags, MarkerFlags attrs flags ∧ flags.getLast? = some b := by
  have hread (found' : Option Bool) : lastFlag none attrs = .ok found' ↔
      ∃ flags, MarkerFlags attrs flags ∧ found' = flags.getLast? := by
    rw [readsMarker_lastFlag.eq_ok_iff takesFlag_flagOption]
    simp only [takes_any, Option.toList_none, List.nil_append]
  rw [packageFlag]
  constructor
  · intro h
    split at h
    · rename_i flag hflag
      obtain rfl := Except.ok.inj h
      obtain ⟨flags, hflags, hlast⟩ := (hread _).1 hflag
      exact ⟨flags, hflags, hlast.symm⟩
    · cases h
    · cases h
  · rintro ⟨flags, hflags, hlast⟩
    rw [(hread (some b)).2 ⟨flags, hflags, hlast.symm⟩]

/-- Where the marker is compiled, there is one flag in all. -/
theorem checkedPackageFlag_eq_ok : checkedPackageFlag attrs = .ok b ↔ MarkerFlags attrs [b] := by
  have hread (found' : Option Bool) : onlyFlag none attrs = .ok found' ↔
      MarkerFlags attrs found'.toList := by
    rw [readsMarker_onlyFlag.eq_ok_iff takesFlag_checkedFlagOption]
    simp only [takes_one, Option.toList_none, List.nil_append]
    simp
  rw [checkedPackageFlag]
  constructor
  · intro h
    split at h
    · rename_i flag hflag
      obtain rfl := Except.ok.inj h
      exact (hread _).1 hflag
    · cases h
    · cases h
  · intro h
    rw [(hread (some b)).2 h]

end

/-- A marker is generated with the last flag that its attributes give, and compiled with the only
one. So it is compiled with a flag exactly if it is generated with that flag and gives no other. -/
theorem packageFlag_iff_markerFlags {attrs : List Attribute} {b : Bool} :
    (packageFlag attrs = .ok b ↔ ∃ flags, MarkerFlags attrs flags ∧ flags.getLast? = some b) ∧
    (checkedPackageFlag attrs = .ok b ↔ MarkerFlags attrs [b]) ∧
    (checkedPackageFlag attrs = .ok b ↔
      packageFlag attrs = .ok b ∧ ∀ flags, MarkerFlags attrs flags → flags.length = 1) := by
  refine ⟨packageFlag_eq_ok, checkedPackageFlag_eq_ok, ?_⟩
  rw [packageFlag_eq_ok, checkedPackageFlag_eq_ok]
  constructor
  · intro h
    refine ⟨⟨[b], h, rfl⟩, fun flags hflags => ?_⟩
    rw [← h.unique hflags]
    rfl
  · rintro ⟨⟨flags, hflags, hlast⟩, hone⟩
    obtain ⟨c, rfl⟩ := List.length_eq_one_iff.1 (hone flags hflags)
    obtain rfl := Option.some.inj hlast
    exact hflags

theorem isIdentText_debug : isIdentText "debug".toList = true := by decide

theorem isIdentText_flagWord (b : Bool) : isIdentText (flagWord b).toList = true := by
  cases b <;> decide

/-- `#[package_id(debug = b)]`. -/
def flagAttributeFor (b : Bool) : Attribute :=
  ⟨false, .list ⟨false, [.plain "package_id"]⟩ .paren [.ofIdent (.plain "debug" isIdentText_debug),
    .leaf (.punct '=' false), .ofIdent (.plain (flagWord b) (isIdentText_flagWord b))]⟩

/-- Of two flags the second is generated with, and no marker with them is compiled. -/
theorem not_checkedPackageFlag_twoFlags :
    packageFlag [flagAttributeFor false, flagAttributeFor true] = .ok true ∧
      ∀ b, checkedPackageFlag [flagAttributeFor false, flagAttributeFor true] ≠ .ok b := by
  have hflags : MarkerFlags [flagAttributeFor false, flagAttributeFor true] [false, true] :=
    .own (by decide) rfl (.last rfl rfl) (.own (by decide) rfl (.last rfl rfl) .nil)
  refine ⟨packageFlag_iff_markerFlags.1.2 ⟨_, hflags, rfl⟩, fun b h => ?_⟩
  have hone := (packageFlag_iff_markerFlags.2.2.1 h).2 _ hflags
  exact absurd hone (by decide)

end SanitizeGen
