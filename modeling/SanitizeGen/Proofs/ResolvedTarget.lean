import Mathlib.Data.List.Forall2
import SanitizeGen.Tag.Resolve
import SanitizeGen.Proofs.FieldFormats
import SanitizeGen.Proofs.WordText

/-!
# What a resolved target holds

A struct's target has the name of the struct (`typeName_of_resolve`), and for each field of the
struct in its order a label, an accessor and a format (`exists_of_resolve`). The format is debug if
an attribute of the field asks for it (`Field.format_eq_of_formatOf`).
-/

namespace SanitizeGen

open Text Token

/-! ### Names -/

namespace Text

variable {s t : List Char}

theorem afterLastColons_eq_none (h : ':' ∉ s) : afterLastColons s = none := by
  induction s with
  | nil => rfl
  | cons c r ih =>
    have hc : c ≠ ':' := fun hc => h (hc ▸ List.mem_cons_self)
    have hr := ih fun hr => h (List.mem_cons_of_mem _ hr)
    unfold afterLastColons
    rw [hr]
    split <;> simp_all

theorem afterLastColons_append (h : ':' ∉ t) :
    afterLastColons (s ++ ':' :: ':' :: t) = some t := by
  induction s with
  | nil =>
    have ht : afterLastColons (':' :: t) = none := by
      unfold afterLastColons
      rw [afterLastColons_eq_none h]
      cases t with
      | nil => rfl
      | cons d t =>
        have hd : d ≠ ':' := fun hd => h (hd ▸ List.mem_cons_self)
        simp [hd]
    rw [List.nil_append, afterLastColons, ht]
  | cons c s ih =>
    rw [List.cons_append]
    unfold afterLastColons
    rw [ih]

theorem lastOfPath_of_not_mem (h : ':' ∉ s) : lastOfPath s = s := by
  rw [lastOfPath, afterLastColons_eq_none h, Option.getD_none]

theorem lastOfPath_append (h : ':' ∉ t) : lastOfPath (s ++ ':' :: ':' :: t) = t := by
  rw [lastOfPath, afterLastColons_append h, Option.getD_some]

end Text

namespace Ident

variable {i : Ident}

theorem not_mem_text {c : Char} (hc : isIdentContinue c = false) (hm : c ≠ '#') :
    c ∉ i.text.toList := by
  have hn : c ∉ i.name.toList := fun h => by
    rw [isIdentContinue_of_mem_name h] at hc
    cases hc
  have hr : c ≠ 'r' := by
    rintro rfl
    cases hc
  rcases h : i.raw with _ | _
  · rwa [text_of_not_raw i h]
  · rw [text_of_raw i h]
    simp [hr, hm, hn]

theorem dropRaw_text : dropRaw i.text.toList = i.name.toList := by
  rcases h : i.raw with _ | _
  · rw [text_of_not_raw i h]
    have hne (r : List Char) := name_append_ne_raw (i := i) (s := []) (r := r) nofun
    simp only [List.append_nil] at hne
    unfold dropRaw
    split <;> rename_i heq
    · exact absurd heq (hne _)
    · rfl
  · rw [text_of_raw i h]
    rfl

end Ident

theorem Namespace.lastOfPath_qualify (ns : Namespace) (i : Ident) :
    lastOfPath (ns.qualify i.text).toList = i.text.toList := by
  have hi : ':' ∉ i.text.toList := Ident.not_mem_text rfl (by decide)
  rcases h : ns.isRoot with _ | _
  · simp only [qualify, h, Bool.false_eq_true, ↓reduceIte, String.toList_append, List.append_assoc]
    exact lastOfPath_append hi
  · simp only [qualify, h, ↓reduceIte]
    exact lastOfPath_of_not_mem hi

/-! ### Formats -/

/-- Whether the attribute is `#[mrclean(debug)]`, perhaps with a comma behind the word. -/
def Attribute.asksDebug (a : Attribute) : Bool :=
  a.isNamed formatAttribute &&
    match a.content with
    | .list _ _ [.leaf (.word i)] => i.text == "debug"
    | .list _ _ [.leaf (.word i), .leaf (.punct ',' _)] => i.text == "debug"
    | _ => false

/-- How the attributes of a field ask to print it. -/
def Field.format (f : Field) : FieldFormat :=
  if f.attrs.any Attribute.asksDebug then .debug else .display

/-- An attribute that is read names debug if it asks for it. -/
theorem Attribute.asksDebug_of_readOptions {unknown : SimplePath → FormatError} {a : Attribute}
    {p : SimplePath} {d : Delimiter} {args : Tokens} {found found' : Option FieldFormat}
    (ha : a.isNamed formatAttribute = true) (hc : a.content = .list p d args)
    (h : readOptions FormatError.form (formatOption unknown) found args = .ok found') :
    found' = some .debug ↔ found = some .debug ∨ a.asksDebug = true := by
  simp only [asksDebug, ha, hc, Bool.true_and]
  rcases readOptions_format.1 h with ⟨rfl, rfl⟩ | ⟨rfl, format, ⟨hi⟩ | ⟨hi⟩, rfl⟩
  · simp
  · cases format <;> simp [hi, FieldFormat.word]
  · cases format <;> simp [hi, FieldFormat.word]

theorem namedFormat_eq_ok {attrs : List Attribute} {found found' : Option FieldFormat}
    (h : namedFormat found attrs = .ok found') :
    found' = some .debug ↔ found = some .debug ∨ attrs.any Attribute.asksDebug = true := by
  induction attrs generalizing found with
  | nil => simp [← Except.ok.inj h]
  | cons a as ih =>
    rw [namedFormat] at h
    rw [List.any_cons, Bool.or_eq_true, ← or_assoc]
    split at h
    · rename_i ha
      split at h
      · rename_i p d args hc
        split at h
        · rename_i hr
          rw [ih h, Attribute.asksDebug_of_readOptions ha hc hr]
        · cases h
      · cases h
    · rename_i ha
      have hn : a.asksDebug = false := by simp [Attribute.asksDebug, ha]
      rw [ih h, hn]
      simp

/-- A field is printed as its attributes ask, if they are well-formed. -/
theorem Field.format_eq_of_formatOf {f : Field} {format : FieldFormat}
    (h : formatOf f.attrs = .ok format) : f.format = format := by
  rw [formatOf] at h
  rcases hn : namedFormat none f.attrs with e | found
  · simp [hn, Except.map] at h
  · rw [hn] at h
    obtain rfl := Except.ok.inj h
    have hf := namedFormat_eq_ok hn
    simp only [reduceCtorEq, false_or] at hf
    rw [Field.format]
    rcases found with _ | _ | _ <;> simp_all

theorem Field.target_eq_ok {f : Field} {params : List String} {label accessor : String}
    {t : TargetField} (h : f.target params label accessor = .ok t) :
    t = ⟨label, accessor, f.format,
      if f.type.mentions params then some f.type.text else none⟩ := by
  rw [Field.target] at h
  rcases hf : formatOf f.attrs with e | format
  · simp [hf, Except.map] at h
  · rw [hf] at h
    obtain rfl := Except.ok.inj h
    rw [Field.format_eq_of_formatOf hf]

/-! ### Fields -/

/-- How code reaches a field: by its name as the struct declares it, or by its place. -/
inductive FieldKey where
  | named (name : Ident)
  | index (n : Nat)
  deriving DecidableEq

namespace FieldKey

def code : FieldKey → String
  | named i => i.text
  | index n => toString n

/-- The key as it is printed. -/
def label : FieldKey → String
  | named i => i.name
  | index n => toString n

end FieldKey

/-- The target of a field has the label, the accessor and the format of the field. -/
structure TargetField.IsOf (t : TargetField) (k : FieldKey) (f : Field) : Prop where
  label : t.label = k.label
  accessor : t.accessor = k.code
  format : t.format = f.format

namespace Fields

/-- The fields in declaration order, each with its key. -/
def keyed : Fields → List (FieldKey × Field)
  | named fields => fields.map fun (i, f) => (.named i, f)
  | tuple fields => fields.zipIdx.map fun (f, n) => (.index n, f)
  | unit => []

theorem labelled_eq (fields : Fields) :
    fields.labelled = fields.keyed.map fun (k, f) => (k.label, k.code, f) := by
  cases fields with
  | named fields => simp [labelled, keyed, FieldKey.label, FieldKey.code]
  | tuple fields => simp [labelled, keyed, FieldKey.label, FieldKey.code]
  | unit => rfl

/-- Each field is made into a target by itself. Its type counts if it depends on a parameter. -/
theorem targets_eq_ok {params : List String} {fs : List (String × String × Field)}
    {ts : List TargetField} (h : targets params fs = .ok ts) :
    ts = fs.map fun (label, accessor, f) => ⟨label, accessor, f.format,
      if f.type.mentions params then some f.type.text else none⟩ := by
  induction fs generalizing ts with
  | nil => exact (Except.ok.inj h).symm
  | cons f fs ih =>
    obtain ⟨label, accessor, f⟩ := f
    rw [targets] at h
    split at h
    · cases h
    · rename_i t ht
      split at h
      · rename_i hts
        obtain rfl := Except.ok.inj h
        rw [ih hts, List.map_cons, Field.target_eq_ok ht]
      · cases h

theorem isOf_of_targets {params : List String} {fs : List (FieldKey × Field)}
    {ts : List TargetField}
    (h : targets params (fs.map fun (k, f) => (k.label, k.code, f)) = .ok ts) :
    List.Forall₂ (fun kf t => t.IsOf kf.1 kf.2) fs ts := by
  rw [targets_eq_ok h, List.map_map, List.forall₂_map_right_iff]
  exact List.forall₂_same.2 fun _ _ => ⟨rfl, rfl, rfl⟩

end Fields

/-! ### Structs -/

namespace Tagged

variable {d : Tagged} {t : Target}

/-- Only structs resolve, and their targets are made of their own path, fields and generics. -/
theorem targets_of_resolve (h : d.resolve = .ok t) : ∃ fields, d.item.kind = .struct fields ∧
    t.path = d.path ∧ t.generics = d.item.generics.target ∧
    Fields.targets d.item.generics.typeParams fields.labelled = .ok t.fields := by
  rcases hk : d.item.kind with fields | _ | _
  · rcases hf : Fields.targets d.item.generics.typeParams fields.labelled with err | fs
    · simp [resolve, hk, hf] at h
    · simp only [resolve, hk, hf, Except.ok.injEq] at h
      subst h
      exact ⟨fields, rfl, rfl, rfl, hf⟩
  · simp [resolve, hk] at h
  · simp [resolve, hk] at h

/-- The path and the fields of a target are those of the struct. -/
theorem exists_of_resolve (h : d.resolve = .ok t) : ∃ fields, d.item.kind = .struct fields ∧
    t.path = d.path ∧ List.Forall₂ (fun kf t => t.IsOf kf.1 kf.2) fields.keyed t.fields := by
  obtain ⟨fields, hk, hpath, -, hf⟩ := targets_of_resolve h
  rw [fields.labelled_eq] at hf
  exact ⟨fields, hk, hpath, Fields.isOf_of_targets hf⟩

theorem typeName_of_resolve (h : d.resolve = .ok t) : t.typeName = d.item.name.name := by
  obtain ⟨fields, -, hp, -⟩ := exists_of_resolve h
  rw [Target.typeName, hp, path, Namespace.lastOfPath_qualify, Ident.dropRaw_text,
    String.ofList_toList]

end Tagged

end SanitizeGen
