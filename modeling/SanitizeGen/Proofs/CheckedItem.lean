import SanitizeGen.Tag.Derive
import SanitizeGen.Proofs.FieldFormats
import SanitizeGen.Proofs.ResolvedTarget

/-!
# Items that are compiled

An item that derives `Sanitize` is compiled if it is a struct, has no format itself and the formats
of all its fields are accepted (`checkSanitize_eq_ok`). Code can then be generated for it, with the
formats that the compiler sees (`resolve_of_checkSanitize`).
-/

namespace SanitizeGen

/-! ### Where a struct is compiled -/

theorem checkFields_eq_ok {fields : List Field} : checkFields fields = .ok () ↔
    ∀ f ∈ fields, ∃ format, checkedFormat f.attrs = .ok format := by
  induction fields with
  | nil => simp [checkFields]
  | cons f fs ih =>
    rw [checkFields, List.forall_mem_cons, ← ih]
    rcases checkedFormat f.attrs with e | format <;> simp

theorem checkSanitize_eq_ok {d : DataItem} : checkSanitize d = .ok () ↔
    (∀ a ∈ d.attrs, a.isNamed formatAttribute = false) ∧ ∃ fields, d.kind = .struct fields ∧
      ∀ f ∈ fields.toList, ∃ format, checkedFormat f.attrs = .ok format := by
  rw [checkSanitize]
  split
  · rename_i a hown
    have hnamed := List.find?_some hown
    constructor
    · intro h
      split at h <;> cases h
    · rintro ⟨hnone, -⟩
      cases (hnone a (List.mem_of_find?_eq_some hown)).symm.trans hnamed
  · rename_i hown
    have hnone := List.find?_eq_none.1 hown
    simp only [Bool.not_eq_true] at hnone
    rw [and_iff_right hnone]
    rcases d.kind with fields | _ | _
    · simp only [DataKind.struct.injEq, exists_eq_left', ← checkFields_eq_ok]
      rcases checkFields fields.toList with e | ⟨⟨⟩⟩ <;> simp [Except.mapError]
    · simp
    · simp

/-! ### Where code is generated -/

theorem Fields.toList_eq (fields : Fields) : fields.toList = fields.keyed.map Prod.snd := by
  cases fields with
  | named fields => simp [toList, keyed]
  | tuple fields =>
    rw [toList, keyed, List.map_map]
    exact (List.zipIdx_map_fst 0 fields).symm
  | unit => rfl

/-- The target of a field has the label, the accessor and the format that the compiler sees. -/
structure TargetField.IsCompiled (t : TargetField) (k : FieldKey) (f : Field) : Prop where
  label : t.label = k.label
  accessor : t.accessor = k.code
  format : checkedFormat f.attrs = .ok t.format

/-- Fields that are compiled have targets, one for each. -/
theorem Fields.exists_targets {fs : List (FieldKey × Field)} (params : List String)
    (h : ∀ kf ∈ fs, ∃ format, checkedFormat kf.2.attrs = .ok format) :
    ∃ ts, targets params (fs.map fun (k, f) => (k.label, k.code, f)) = .ok ts ∧
      List.Forall₂ (fun kf t => t.IsCompiled kf.1 kf.2) fs ts := by
  induction fs with
  | nil => exact ⟨[], rfl, .nil⟩
  | cons kf fs ih =>
    obtain ⟨k, f⟩ := kf
    obtain ⟨⟨format, hformat⟩, hrest⟩ := List.forall_mem_cons.1 h
    obtain ⟨ts, hts, hall⟩ := ih hrest
    obtain ⟨generic, htarget⟩ : ∃ generic,
        f.target params k.label k.code = .ok ⟨k.label, k.code, format, generic⟩ := by
      rw [Field.target, (checkedFormat_eq_ok_iff.1 hformat).1]
      exact ⟨_, rfl⟩
    refine ⟨⟨k.label, k.code, format, generic⟩ :: ts, ?_, .cons ⟨rfl, rfl, hformat⟩ hall⟩
    rw [List.map_cons, targets, htarget]
    simp only [hts]

/-- Code can be generated for an item that is compiled: it is a struct, and its target has each of
its fields in order, in the format that the compiler sees. What is no struct is neither compiled nor
generated. -/
theorem resolve_of_checkSanitize (ns : Namespace) (d : DataItem) (file : FilePath) :
    (checkSanitize d = .ok () → ∃ fields t, d.kind = .struct fields ∧
      (Tagged.mk ns d file).resolve = .ok t ∧
      List.Forall₂ (fun kf t => t.IsCompiled kf.1 kf.2) fields.keyed t.fields) ∧
    (d.kind = .enum ∨ d.kind = .union →
      (∃ e, checkSanitize d = .error e) ∧ ∃ e, (Tagged.mk ns d file).resolve = .error e) := by
  constructor
  · intro h
    obtain ⟨-, fields, hkind, hfields⟩ := checkSanitize_eq_ok.1 h
    rw [fields.toList_eq, List.forall_mem_map] at hfields
    obtain ⟨ts, hts, hall⟩ := Fields.exists_targets d.generics.typeParams hfields
    rw [← fields.labelled_eq] at hts
    refine ⟨fields, ⟨Tagged.path ⟨ns, d, file⟩, ts, d.generics.target⟩, hkind, ?_, hall⟩
    simp only [Tagged.resolve, hkind, hts]
  · intro hkind
    have hnot : checkSanitize d ≠ .ok () := by
      intro h
      obtain ⟨-, fields, hstruct, -⟩ := checkSanitize_eq_ok.1 h
      rcases hkind with hkind | hkind
      · cases hkind.symm.trans hstruct
      · cases hkind.symm.trans hstruct
    constructor
    · rcases hcheck : checkSanitize d with e | ⟨⟨⟩⟩
      · exact ⟨e, rfl⟩
      · exact absurd hcheck hnot
    · rcases hkind with hkind | hkind
      · exact ⟨_, by rw [Tagged.resolve, hkind]⟩
      · exact ⟨_, by rw [Tagged.resolve, hkind]⟩

/-- `struct Meter { speed: u16, #[mrclean(debug)] state: State }`. -/
def meter : DataItem :=
  ⟨[], .plain "Meter", {}, .struct (.named
    [(.plain "speed", ⟨[], .path false [.bare (.plain "u16")]⟩),
     (.plain "state", ⟨[formatAttributeWith
        (Tokens.keyword FieldFormat.debug.word (FieldFormat.isIdentText_word .debug))],
        .path false [.bare (.plain "State")]⟩)])⟩

/-- Both fields of a struct that is compiled have targets in their formats. -/
theorem exists_target_meter : checkSanitize meter = .ok () ∧
    ∃ t, (Tagged.mk .root meter ⟨"src/lib.rs"⟩).resolve = .ok t ∧
      t.fields.map (fun f => (f.label, f.format)) = [("speed", .display), ("state", .debug)] := by
  have hcheck : checkSanitize meter = .ok () := rfl
  obtain ⟨fields, ⟨path, ts, generics⟩, hkind, hresolve, hall⟩ :=
    (resolve_of_checkSanitize .root meter ⟨"src/lib.rs"⟩).1 hcheck
  obtain rfl := DataKind.struct.inj hkind
  rcases hall with _ | ⟨hspeed, _ | ⟨hstate, ⟨⟩⟩⟩
  refine ⟨hcheck, _, hresolve, ?_⟩
  simp only [List.map_cons, List.map_nil, hspeed.label, hstate.label,
    ← Except.ok.inj hspeed.format, ← Except.ok.inj hstate.format]
  rfl

end SanitizeGen
