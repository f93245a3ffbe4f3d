import SanitizeGen.Tag.Condition
import SanitizeGen.Proofs.BodyMeaning
import SanitizeGen.Proofs.CheckedItem

/-!
# Fields for tests alone

A field may have a condition that is false where nothing is tested. The body of a generated function
has all fields of the struct, those too (`keys_body`), so it is the body for a build without tests
only if there are none (`keys_body_iff_testOnly`). In a tuple the fields behind one for tests alone
have other places in such a build (`filter_keyed_iff`).
-/

namespace SanitizeGen

/-! ### Builds without tests -/

/-- Whether builds without tests have the field. -/
def Field.isKept (f : Field) : Bool := !isTestOnly f.attrs

namespace Fields

/-- The fields that the struct has in builds without tests. -/
def withoutTests : Fields → Fields
  | named fields => named (fields.filter (·.2.isKept))
  | tuple fields => tuple (fields.filter Field.isKept)
  | unit => unit

/-- In a tuple no field follows one for tests alone, but others for tests alone. -/
def TestsLast : Fields → Prop
  | tuple fields => fields.Pairwise fun f g => g.isKept = true → f.isKept = true
  | _ => True

end Fields

/-- What the item is in builds without tests. -/
def DataKind.withoutTests : DataKind → DataKind
  | struct fields => struct fields.withoutTests
  | enum => enum
  | union => union

/-- The item as builds without tests have it. -/
def Tagged.withoutTests (d : Tagged) : Tagged :=
  { d with item := { d.item with kind := d.item.kind.withoutTests } }

namespace Fields

variable {fields : Fields}

theorem toList_withoutTests (fields : Fields) :
    fields.withoutTests.toList = fields.toList.filter Field.isKept := by
  cases fields with
  | named fields =>
    rw [withoutTests, toList, toList, List.filter_map]
    rfl
  | tuple fields => rfl
  | unit => rfl

theorem withoutTests_of_forall (h : ∀ f ∈ fields.toList, f.isKept = true) :
    fields.withoutTests = fields := by
  cases fields with
  | named fields =>
    rw [toList, List.forall_mem_map] at h
    rw [withoutTests, List.filter_eq_self.2 h]
  | tuple fields =>
    rw [toList] at h
    rw [withoutTests, List.filter_eq_self.2 h]
  | unit => rfl

/-- Fields have targets if the formats of all of them are read. -/
theorem exists_targets_iff {params : List String} {fs : List (String × String × Field)} :
    (∃ ts, targets params fs = .ok ts) ↔
      ∀ f ∈ fs.map (·.2.2), ∃ format, formatOf f.attrs = .ok format := by
  induction fs with
  | nil => simp [targets]
  | cons f fs ih =>
    obtain ⟨label, accessor, f⟩ := f
    rw [List.map_cons, List.forall_mem_cons, ← ih, targets, Field.target]
    rcases formatOf f.attrs with e | format
    · simp [Except.map]
    · rcases targets params fs with e | ts <;> simp [Except.map]

theorem exists_targets_withoutTests {params : List String} {ts : List TargetField}
    (h : targets params fields.labelled = .ok ts) :
    ∃ ts', targets params fields.withoutTests.labelled = .ok ts' := by
  have hlist (fields : Fields) : fields.labelled.map (·.2.2) = fields.toList := by
    rw [labelled_eq, List.map_map, toList_eq]
    rfl
  have hall := exists_targets_iff.1 ⟨ts, h⟩
  rw [exists_targets_iff, hlist, toList_withoutTests]
  rw [hlist] at hall
  exact fun f hf => hall f (List.mem_filter.1 hf).1

end Fields

namespace Tagged

variable {d : Tagged} {t : Target} {fields : Fields}

theorem withoutTests_of_forall (hkind : d.item.kind = .struct fields)
    (h : ∀ f ∈ fields.toList, f.isKept = true) : d.withoutTests = d := by
  rw [withoutTests, hkind, DataKind.withoutTests, Fields.withoutTests_of_forall h, ← hkind]

/-- What resolves also resolves in builds without tests. -/
theorem exists_resolve_withoutTests (h : d.resolve = .ok t) :
    ∃ t', d.withoutTests.resolve = .ok t' := by
  obtain ⟨fields, hkind, -, -, hfields⟩ := targets_of_resolve h
  obtain ⟨ts', hts'⟩ := Fields.exists_targets_withoutTests hfields
  exact ⟨⟨d.path, ts', d.item.generics.target⟩, by
    simp [resolve, withoutTests, path, hkind, DataKind.withoutTests, hts']⟩

end Tagged

/-! ### Keys of the remaining fields -/

namespace Fields

theorem filter_zipIdx_eq_iff {fs : List Field} {n : Nat} :
    (fs.zipIdx n).filter (·.1.isKept) = (fs.filter Field.isKept).zipIdx n ↔
      fs.Pairwise fun f g => g.isKept = true → f.isKept = true := by
  induction fs generalizing n with
  | nil => simp
  | cons f fs ih =>
    rw [List.zipIdx_cons, List.pairwise_cons]
    rcases hf : f.isKept with _ | _
    · rw [List.filter_cons_of_neg (by simp [hf]), List.filter_cons_of_neg (by simp [hf])]
      constructor
      · intro h
        -- the first field that is kept would have the place of `f`
        have hnone : fs.filter Field.isKept = [] := by
          rcases hkept : fs.filter Field.isKept with _ | ⟨g, gs⟩
          · rfl
          · rw [hkept, List.zipIdx_cons] at h
            have hmem := (List.mem_filter.1 (h ▸ List.mem_cons_self)).1
            have hle := (List.mem_zipIdx hmem).1
            omega
        rw [List.filter_eq_nil_iff] at hnone
        exact ⟨fun g hg hkept => absurd hkept (hnone g hg),
          List.pairwise_of_forall_mem_list fun _ _ g hg hkept => absurd hkept (hnone g hg)⟩
      · rintro ⟨hnone, -⟩
        have hnil : fs.filter Field.isKept = [] := by
          rw [List.filter_eq_nil_iff]
          exact fun g hg hkept => by cases hnone g hg hkept
        rw [hnil, List.zipIdx_nil, List.filter_eq_nil_iff]
        rintro ⟨g, k⟩ hg hkept
        cases hnone g (List.fst_mem_of_mem_zipIdx hg) hkept
    · rw [List.filter_cons_of_pos hf, List.filter_cons_of_pos (a := (f, n)) hf, List.zipIdx_cons,
        List.cons_inj_right, ih]
      simp

theorem forall_isKept_of_keys_eq {fields : Fields}
    (h : fields.keyed.map Prod.fst = fields.withoutTests.keyed.map Prod.fst) :
    ∀ f ∈ fields.toList, f.isKept = true := by
  have hlength := congrArg List.length h
  rw [List.length_map, List.length_map, ← List.length_map Prod.snd, ← toList_eq,
    ← List.length_map Prod.snd, ← toList_eq, toList_withoutTests] at hlength
  exact List.length_filter_eq_length_iff.1 hlength.symm

/-- The fields that are left have the keys that they have in the whole struct, unless one comes
behind one for tests alone in a tuple. -/
theorem filter_keyed_iff (fields : Fields) :
    fields.keyed.filter (·.2.isKept) = fields.withoutTests.keyed ↔
      fields.TestsLast := by
  cases fields with
  | named fields =>
    rw [keyed, withoutTests, keyed, List.filter_map]
    exact iff_of_true rfl trivial
  | tuple fields =>
    have hinj : Function.Injective fun p : Field × Nat => (FieldKey.index p.2, p.1) := by
      rintro ⟨f, n⟩ ⟨g, m⟩ h
      simpa [and_comm] using h
    rw [keyed, withoutTests, keyed, List.filter_map, hinj.list_map.eq_iff]
    exact filter_zipIdx_eq_iff
  | unit => exact iff_of_true rfl trivial

end Fields

/-! ### Fields of bodies -/

/-- The field that an argument of a format text is. -/
def PrintArg.key? : PrintArg → Option FieldKey
  | field k => some k
  | identity => none

/-- The fields that an expression prints, in order. -/
def Printing.keys : Printing → List FieldKey
  | constant _ => []
  | format _ args => args.filterMap PrintArg.key?

namespace Template

variable {t : Target} {fs : List (FieldKey × Field)}

/-- The body in debug mode prints all fields. -/
theorem keys_body (runtime : CratePath) (hn : Bare t.typeName.toList)
    (hf : List.Forall₂ (fun kf t => t.IsOf kf.1 kf.2) fs t.fields) : ∃ e,
    Printing.ofText? runtime (body t .debug runtime.path.text) = some e ∧
    e.keys = fs.map Prod.fst := by
  have hopen := Prints.bare (s := "(") (by decide)
  have hclose := Prints.bare (s := ")") (by decide)
  obtain ⟨ps, hps, -⟩ := (((Prints.bare hn).append hopen).append
    (Fields.prints_patterns fs)).append hclose
  refine ⟨_, ofText?_body_debug hn hf hps, ?_⟩
  rcases fs with _ | ⟨kf, fs⟩
  · rfl
  · rw [Printing.keys, List.filterMap_map]
    exact congrFun (List.filterMap_eq_map (f := Prod.fst)) _

end Template

namespace Tagged

variable {d : Tagged} {t : Target}

theorem keys_of_resolve (h : d.resolve = .ok t) (runtime : CratePath) : ∃ fields e,
    d.item.kind = .struct fields ∧
    Printing.ofText? runtime (Template.body t .debug runtime.path.text) = some e ∧
    e.keys = fields.keyed.map Prod.fst := by
  obtain ⟨fields, hkind, -, hf⟩ := exists_of_resolve h
  have hn := Bare.name d.item.name
  rw [← typeName_of_resolve h] at hn
  obtain ⟨e, he, hkeys⟩ := Template.keys_body runtime hn hf
  exact ⟨fields, e, hkind, he, hkeys⟩

/-- The body in debug mode prints each field of the struct by its key in the whole struct. So it
prints a field for tests alone if there is one, and is the body for builds without tests if there
is none. The other fields have their keys in such builds unless they come behind one in a tuple. -/
theorem keys_body_iff_testOnly (h : d.resolve = .ok t) (runtime : CratePath) :
    ∃ fields e t', d.item.kind = .struct fields ∧
      Printing.ofText? runtime (Template.body t .debug runtime.path.text) = some e ∧
      d.withoutTests.resolve = .ok t' ∧ e.keys = fields.keyed.map Prod.fst ∧
      ((∃ k ∈ e.keys, ∃ f, (k, f) ∈ fields.keyed ∧ isTestOnly f.attrs = true) ↔
        ∃ f ∈ fields.toList, isTestOnly f.attrs = true) ∧
      (Template.body t .debug runtime.path.text = Template.body t' .debug runtime.path.text ↔
        ∀ f ∈ fields.toList, isTestOnly f.attrs = false) ∧
      (fields.keyed.filter (·.2.isKept) = fields.withoutTests.keyed ↔ fields.TestsLast) := by
  obtain ⟨fields, e, hkind, he, hkeys⟩ := keys_of_resolve h runtime
  obtain ⟨t', h'⟩ := exists_resolve_withoutTests h
  refine ⟨fields, e, t', hkind, he, h', hkeys, ?_, ?_, fields.filter_keyed_iff⟩
  · rw [hkeys, fields.toList_eq]
    constructor
    · rintro ⟨k, -, f, hf, htest⟩
      exact ⟨f, List.mem_map_of_mem hf, htest⟩
    · rintro ⟨f, hf, htest⟩
      obtain ⟨⟨k, f⟩, hmem, rfl⟩ := List.mem_map.1 hf
      exact ⟨k, List.mem_map_of_mem hmem, f, hmem, htest⟩
  · have hkept : (∀ f ∈ fields.toList, isTestOnly f.attrs = false) ↔
        ∀ f ∈ fields.toList, f.isKept = true := by simp [Field.isKept]
    rw [hkept]
    constructor
    · intro hbody
      obtain ⟨fields', e', hkind', he', hkeys'⟩ := keys_of_resolve h' runtime
      rw [withoutTests, hkind] at hkind'
      obtain rfl := DataKind.struct.inj hkind'
      obtain rfl : e = e' := Option.some.inj (he.symm.trans (hbody ▸ he'))
      exact Fields.forall_isKept_of_keys_eq (hkeys.symm.trans hkeys')
    · intro hall
      rw [withoutTests_of_forall hkind hall, h] at h'
      obtain rfl := Except.ok.inj h'
      rfl

/-- `struct Pair(#[cfg(test)] u32, u64);`. -/
def pair : Tagged where
  ns := .root
  item := ⟨[], .plain "Pair", {}, .struct (.tuple
    [⟨[⟨false, .list ⟨false, [.plain "cfg"]⟩ .paren (Tokens.keyword "test")⟩],
        .path false [.bare (.plain "u32")]⟩,
      ⟨[], .path false [.bare (.plain "u64")]⟩])⟩
  file := ⟨"src/lib.rs"⟩

def pairTarget : Target where
  path := "Pair"
  fields := [.ofLabel "0", .ofLabel "1"]

/-- The body prints the field for tests alone, and the other one by a place that is not there in
builds without tests. -/
theorem keys_body_pair : ∃ fields e t', pair.item.kind = .struct fields ∧
    pair.resolve = .ok pairTarget ∧ pair.withoutTests.resolve = .ok t' ∧
    Printing.ofText? ⟨⟨true, [.plain "mrclean"]⟩, nofun⟩
      (Template.body pairTarget .debug "::mrclean") = some e ∧ e.keys = [.index 0, .index 1] ∧
    (∃ k ∈ e.keys, ∃ f, (k, f) ∈ fields.keyed ∧ isTestOnly f.attrs = true) ∧
    Template.body pairTarget .debug "::mrclean" ≠ Template.body t' .debug "::mrclean" ∧
    fields.keyed.filter (·.2.isKept) ≠ fields.withoutTests.keyed := by
  have hresolve : pair.resolve = .ok pairTarget := rfl
  obtain ⟨fields, e, t', hkind, he, h', hkeys, hnamed, hbody, hplaces⟩ :=
    keys_body_iff_testOnly hresolve ⟨⟨true, [.plain "mrclean"]⟩, nofun⟩
  obtain rfl := DataKind.struct.inj hkind
  have htest : isTestOnly [⟨false, .list ⟨false, [.plain "cfg"]⟩ .paren
      (Tokens.keyword "test")⟩] = true := by decide +kernel
  refine ⟨_, e, t', rfl, rfl, h', he, hkeys, hnamed.2 ⟨_, List.mem_cons_self, htest⟩, ?_, ?_⟩
  · intro h
    cases htest.symm.trans (hbody.1 h _ List.mem_cons_self)
  · intro h
    have hlast := List.rel_of_pairwise_cons (hplaces.1 h) List.mem_cons_self rfl
    rw [Field.isKept, htest] at hlast
    cases hlast

end Tagged

end SanitizeGen
