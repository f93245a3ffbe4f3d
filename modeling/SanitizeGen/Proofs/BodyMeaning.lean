import SanitizeGen.Template
import SanitizeGen.Proofs.Printing

/-!
# What generated functions return

The body of a generated function is an expression that prints what `Fields.printed` says: the name
of the struct with its fields in debug mode, the name with the identity of the value in release
mode (`body_value`).
-/

namespace SanitizeGen

open Text

/-! ### Format texts -/

/-- Whether all characters stand for themselves in a format text between quotes. -/
def Bare (s : List Char) : Prop :=
  ∀ c ∈ s, Lexeme.isPlain c = true ∧ c ≠ '\x7b' ∧ c ≠ '\x7d'

namespace Bare

variable {s t : List Char}

instance : Decidable (Bare s) :=
  decidable_of_iff (s.all fun c => Lexeme.isPlain c && c != '\x7b' && c != '\x7d')
    (by simp [Bare, and_assoc])

theorem append (hs : Bare s) (ht : Bare t) : Bare (s ++ t) := by
  intro c hc
  rcases List.mem_append.1 hc with hc | hc
  · exact hs c hc
  · exact ht c hc

theorem of_isIdentContinue (h : ∀ c ∈ s, isIdentContinue c = true) : Bare s := by
  intro c hc
  have hne (d : Char) (hd : isIdentContinue d = false) := ne_of_isIdentContinue (h c hc) hd
  refine ⟨?_, hne _ rfl, hne _ rfl⟩
  simp only [Lexeme.isPlain, Bool.and_eq_true, bne_iff_ne]
  exact ⟨⟨hne _ rfl, hne _ rfl⟩, hne _ rfl⟩

theorem name (i : Ident) : Bare i.name.toList :=
  of_isIdentContinue fun _ => Ident.isIdentContinue_of_mem_name

theorem label : (k : FieldKey) → Bare k.label.toList
  | .named i => name i
  | .index n => of_isIdentContinue fun c hc => by
    simp [isIdentContinue, Lexeme.isAsciiDigit_of_mem_toString n c hc]

end Bare

/-- Between quotes, `s` is the format text of the parts `ps`. -/
structure WritesPieces (s : List Char) (ps : List FormatPiece) : Prop where
  isPlain : ∀ c ∈ s, Lexeme.isPlain c = true
  eq : s = ps.flatMap FormatPiece.code

namespace WritesPieces

variable {s t : List Char} {ps qs : List FormatPiece}

theorem append (h : WritesPieces s ps) (k : WritesPieces t qs) :
    WritesPieces (s ++ t) (ps ++ qs) := by
  refine ⟨?_, by rw [h.eq, k.eq, List.flatMap_append]⟩
  intro c hc
  rcases List.mem_append.1 hc with hc | hc
  · exact h.isPlain c hc
  · exact k.isPlain c hc

theorem of_bare (h : Bare s) : WritesPieces s (s.map .char) :=
  ⟨fun c hc => (h c hc).1, (FormatPiece.flatMap_code_char fun c hc => (h c hc).2).symm⟩

theorem placeholder (f : FieldFormat) :
    WritesPieces f.placeholder.toList [.hole (.ofFormat f)] := by
  cases f <;> exact ⟨List.all_eq_true.1 rfl, rfl⟩

theorem ofText?_eq (h : WritesPieces s ps) : FormatPiece.ofText? s = some ps := by
  rw [h.eq, FormatPiece.ofText?_flatMap_code]

end WritesPieces

namespace Printing

variable {self : SelfView} {ps qs : List FormatPiece} {as bs : List PrintArg} {s t : List Char}

theorem fill_append (hs : fill self ps as = some s) (ht : fill self qs bs = some t) :
    fill self (ps ++ qs) (as ++ bs) = some (s ++ t) := by
  induction ps generalizing as s with
  | nil =>
    cases as with
    | nil =>
      obtain rfl := Option.some.inj hs
      exact ht
    | cons a as => cases hs
  | cons p ps ih =>
    cases p with
    | char c =>
      rw [fill, Option.map_eq_some_iff] at hs
      obtain ⟨r, hr, rfl⟩ := hs
      rw [List.cons_append, fill, ih hr, Option.map_some, List.cons_append]
    | hole p =>
      cases as with
      | nil => cases hs
      | cons a as =>
        simp only [fill, Option.bind_eq_bind, Option.bind_eq_some_iff, Option.pure_def] at hs
        obtain ⟨u, hu, r, hr, hs⟩ := hs
        obtain rfl := Option.some.inj hs
        simp [fill, hu, ih hr]

theorem fill_chars (s : List Char) : fill self (s.map .char) [] = some s := by
  induction s with
  | nil => rfl
  | cons c s ih => rw [List.map_cons, fill, ih, Option.map_some]

/-- A format text and its arguments fit: each placeholder has its argument, and no other is left. -/
def Fits : Printing → Prop
  | constant _ => True
  | format pieces args => pieces.countP FormatPiece.isHole = args.length

theorem length_of_fill (h : fill self ps as = some s) :
    ps.countP FormatPiece.isHole = as.length := by
  induction ps generalizing as s with
  | nil =>
    cases as with
    | nil => rfl
    | cons a as => cases h
  | cons p ps ih =>
    cases p with
    | char c =>
      rw [fill, Option.map_eq_some_iff] at h
      obtain ⟨r, hr, -⟩ := h
      rw [List.countP_cons_of_neg (by simp [FormatPiece.isHole]), ih hr]
    | hole p =>
      cases as with
      | nil => cases h
      | cons a as =>
        simp only [fill, Option.bind_eq_bind, Option.bind_eq_some_iff] at h
        obtain ⟨-, -, r, hr, -⟩ := h
        rw [List.countP_cons_of_pos rfl, ih hr, List.length_cons]

theorem fits_of_value? {e : Printing} {v : String} (h : e.value? self = some v) : e.Fits := by
  cases e with
  | constant s => trivial
  | format ps as =>
    rw [value?, Option.map_eq_some_iff] at h
    obtain ⟨s, hs, -⟩ := h
    exact length_of_fill hs

end Printing

/-! ### Format texts and what they print -/

/-- With the arguments `as`, the format text `s` prints `v`. -/
def Prints (s : String) (as : List PrintArg) (v : SelfView → String) : Prop :=
  ∃ ps, WritesPieces s.toList ps ∧ ∀ self, Printing.fill self ps as = some (v self).toList

namespace Prints

variable {s t : String} {as bs : List PrintArg} {v w : SelfView → String}

theorem append (h : Prints s as v) (k : Prints t bs w) :
    Prints (s ++ t) (as ++ bs) fun self => v self ++ w self := by
  obtain ⟨ps, hs, hv⟩ := h
  obtain ⟨qs, ht, hw⟩ := k
  refine ⟨ps ++ qs, ?_, fun self => ?_⟩
  · rw [String.toList_append]
    exact hs.append ht
  · rw [String.toList_append]
    exact Printing.fill_append (hv self) (hw self)

theorem bare (h : Bare s.toList) : Prints s [] fun _ => s :=
  ⟨_, .of_bare h, fun _ => Printing.fill_chars _⟩

theorem field (k : FieldKey) (f : FieldFormat) :
    Prints f.placeholder [.field k] fun self => (self.field k).inFormat f := by
  refine ⟨_, .placeholder f, fun self => ?_⟩
  cases f <;> simp [Placeholder.ofFormat, Printing.fill, PrintArg.text?, FieldText.inFormat]

theorem identity :
    Prints "\x7b:x\x7d" [.identity] fun self => String.ofList (hexDigits self.identity) := by
  refine ⟨[.hole .hex], ⟨List.all_eq_true.1 rfl, rfl⟩, fun self => ?_⟩
  simp [Printing.fill, PrintArg.text?]

/-- The call that fills the format text is an expression with the printed text as its value. -/
theorem ofText?_eq (h : Prints s as v) (runtime : CratePath) : ∃ e,
    Printing.ofText? runtime
      ("::std::format!(\"" ++ s ++ "\"" ++ Printing.argsText runtime as ++ ")") = some e ∧
    ∀ self, e.value? self = some (v self) := by
  obtain ⟨ps, hs, hv⟩ := h
  refine ⟨_, Printing.ofText?_format runtime hs.isPlain hs.ofText?_eq as, fun self => ?_⟩
  rw [Printing.value?, hv, Option.map_some, String.ofList_toList]

end Prints

/-! ### Bodies -/

namespace Fields

/-- What is printed of a field: its label, and its text as it asks for. -/
def shown (self : SelfView) (k : FieldKey) (f : Field) : String :=
  k.label ++ " = " ++ (self.field k).inFormat f.format

/-- What is printed of a value of the struct that has this name and these fields. -/
def printed (fields : Fields) (name : String) (self : SelfView) : Mode → String
  | .debug =>
    name ++ "(" ++ ", ".intercalate (fields.keyed.map fun (k, f) => shown self k f) ++ ")"
  | .release => name ++ "@" ++ String.ofList (hexDigits self.identity)

def pattern (k : FieldKey) (f : Field) : String := k.label ++ " = " ++ f.format.placeholder

theorem prints_pattern (k : FieldKey) (f : Field) :
    Prints (pattern k f) [.field k] fun self => shown self k f := by
  have hl := Prints.bare (Bare.label k)
  have he := Prints.bare (s := " = ") (by decide)
  exact (hl.append he).append (.field k f.format)

theorem prints_patterns (fs : List (FieldKey × Field)) :
    Prints (", ".intercalate (fs.map fun (k, f) => pattern k f)) (fs.map fun (k, _) => .field k)
      fun self => ", ".intercalate (fs.map fun (k, f) => shown self k f) := by
  induction fs with
  | nil => exact .bare nofun
  | cons kf fs ih =>
    obtain ⟨k, f⟩ := kf
    cases fs with
    | nil => simpa using prints_pattern k f
    | cons kf fs =>
      have hc := Prints.bare (s := ", ") (by decide)
      have h := ((prints_pattern k f).append hc).append ih
      simpa [String.intercalate_cons_cons] using h

end Fields

namespace Template

variable {fs : List (FieldKey × Field)} {ts : List TargetField}

theorem fieldPattern_eq (h : List.Forall₂ (fun kf t => t.IsOf kf.1 kf.2) fs ts) :
    fieldPattern ts = ", ".intercalate (fs.map fun (k, f) => Fields.pattern k f) := by
  have hm : ts.map (fun t => t.label ++ " = " ++ t.format.placeholder) =
      fs.map fun (k, f) => Fields.pattern k f := by
    induction h with
    | nil => rfl
    | cons hkf _ ih =>
      rw [List.map_cons, List.map_cons, ih, hkf.label, hkf.format]
      rfl
  rw [fieldPattern, hm]

theorem fieldArguments_eq (h : List.Forall₂ (fun kf t => t.IsOf kf.1 kf.2) fs ts)
    (runtime : CratePath) :
    fieldArguments ts = Printing.argsText runtime (fs.map fun (k, _) => .field k) := by
  have hm : ts.map (fun t => ", self." ++ t.accessor) =
      (fs.map fun (k, _) => PrintArg.field k).map fun a => ", " ++ a.code runtime := by
    induction h with
    | nil => rfl
    | @cons kf t fs ts hkf _ ih =>
      have hc : ", self." ++ kf.1.code = ", " ++ ("self." ++ kf.1.code) := by
        rw [← String.append_assoc]
        rfl
      rw [List.map_cons, List.map_cons, List.map_cons, ih, hkf.accessor, PrintArg.code, hc]
  rw [fieldArguments, Printing.argsText, hm]

variable {t : Target} {runtime : CratePath}

theorem body_release (hn : Bare t.typeName.toList) : ∃ e,
    Printing.ofText? runtime (body t .release runtime.path.text) = some e ∧
    ∀ self, e.value? self =
      some (t.typeName ++ "@" ++ String.ofList (hexDigits self.identity)) := by
  have hat := Prints.bare (s := "@") (by decide)
  obtain ⟨e, he, hv⟩ := (((Prints.bare hn).append hat).append .identity).ofText?_eq runtime
  refine ⟨e, ?_, hv⟩
  have htext : body t .release runtime.path.text = "::std::format!(\"" ++
      (t.typeName ++ "@" ++ "\x7b:x\x7d") ++ "\"" ++ Printing.argsText runtime [.identity] ++
      ")" := by
    refine String.toList_inj.1 ?_
    unfold body
    simp [Printing.argsText, PrintArg.code]
  rw [htext]
  exact he

/-- Without fields the text is no format text: its parentheses are in the literal. -/
theorem body_debug_of_nil (h : t.fields = []) : body t .debug runtime.path.text =
    "::std::string::String::from(\"" ++ (t.typeName ++ "()") ++ "\")" := by
  refine String.toList_inj.1 ?_
  unfold body
  simp [h]

theorem body_debug_of_ne_nil (h : t.fields ≠ [])
    (hf : List.Forall₂ (fun kf t => t.IsOf kf.1 kf.2) fs t.fields) :
    body t .debug runtime.path.text = "::std::format!(\"" ++
      (t.typeName ++ "(" ++ ", ".intercalate (fs.map fun (k, f) => Fields.pattern k f) ++ ")") ++
      "\"" ++ Printing.argsText runtime (fs.map fun (k, _) => .field k) ++ ")" := by
  refine String.toList_inj.1 ?_
  unfold body
  simp [h, fieldPattern_eq hf, fieldArguments_eq hf runtime]

/-- The body in debug mode is a literal if there are no fields, and else a call that fills a format
text with them. -/
theorem ofText?_body_debug {ps : List FormatPiece} (hn : Bare t.typeName.toList)
    (hf : List.Forall₂ (fun kf t => t.IsOf kf.1 kf.2) fs t.fields)
    (hps : WritesPieces (t.typeName ++ "(" ++
      ", ".intercalate (fs.map fun (k, f) => Fields.pattern k f) ++ ")").toList ps) :
    Printing.ofText? runtime (body t .debug runtime.path.text) = some (match fs with
      | [] => .constant (t.typeName ++ "()").toList
      | _ :: _ => .format ps (fs.map fun (k, _) => .field k)) := by
  rcases fs with _ | ⟨kf, fs⟩
  · have hplain := fun c hc => ((hn.append (t := "()".toList) (by decide)) c hc).1
    rw [← String.toList_append] at hplain
    rw [body_debug_of_nil (List.forall₂_nil_left_iff.1 hf)]
    exact Printing.ofText?_constant runtime hplain
  · have hts : t.fields ≠ [] := by
      intro hnil
      rw [hnil] at hf
      cases hf
    rw [body_debug_of_ne_nil hts hf]
    exact Printing.ofText?_format runtime hps.isPlain hps.ofText?_eq _

theorem body_debug (hn : Bare t.typeName.toList)
    (hf : List.Forall₂ (fun kf t => t.IsOf kf.1 kf.2) fs t.fields) : ∃ e,
    Printing.ofText? runtime (body t .debug runtime.path.text) = some e ∧
    ∀ self, e.value? self = some (t.typeName ++ "(" ++
      ", ".intercalate (fs.map fun (k, f) => Fields.shown self k f) ++ ")") := by
  have hopen := Prints.bare (s := "(") (by decide)
  have hclose := Prints.bare (s := ")") (by decide)
  obtain ⟨ps, hps, hv⟩ := (((Prints.bare hn).append hopen).append
    (Fields.prints_patterns fs)).append hclose
  refine ⟨_, ofText?_body_debug hn hf hps, fun self => ?_⟩
  rcases fs with _ | ⟨kf, fs⟩
  · rw [Printing.value?, String.ofList_toList]
    refine congrArg some (String.toList_inj.1 ?_)
    simp
  · have hfill := hv self
    rw [List.append_nil, List.nil_append, List.nil_append] at hfill
    rw [Printing.value?, hfill, Option.map_some, String.ofList_toList]

end Template

namespace Tagged

variable {d : Tagged} {t : Target}

/-- The bodies of a struct's function print its name with each field as it asks for in debug mode,
and its name with the identity in release mode. Every placeholder has its argument. -/
theorem body_value (h : d.resolve = .ok t) (mode : Mode) (runtime : CratePath) :
    ∃ fields e, d.item.kind = .struct fields ∧
      Printing.ofText? runtime (Template.body t mode runtime.path.text) = some e ∧ e.Fits ∧
      ∀ self, e.value? self = some (fields.printed d.item.name.name self mode) := by
  obtain ⟨fields, hk, -, hf⟩ := exists_of_resolve h
  have hn := Bare.name d.item.name
  rw [← typeName_of_resolve h] at hn
  obtain ⟨e, he, hv⟩ : ∃ e, Printing.ofText? runtime (Template.body t mode runtime.path.text) =
      some e ∧ ∀ self, e.value? self = some (fields.printed d.item.name.name self mode) := by
    rw [← typeName_of_resolve h]
    cases mode with
    | debug => exact Template.body_debug hn hf
    | release => exact Template.body_release hn
  exact ⟨fields, e, hk, he, Printing.fits_of_value? (hv ⟨fun _ => ⟨"", ""⟩, 0⟩), hv⟩

/-- What is rendered of a target is what the struct's function prints. -/
theorem rendered_of_resolve (h : d.resolve = .ok t) : ∃ fields, d.item.kind = .struct fields ∧
    ∀ (mode : Mode) (self : SelfView),
      t.rendered mode self.identity (fields.keyed.map fun (k, _) => self.field k) =
        fields.printed d.item.name.name self mode := by
  obtain ⟨fields, hk, -, hf⟩ := exists_of_resolve h
  refine ⟨fields, hk, fun mode self => ?_⟩
  have hl : t.labelled (fields.keyed.map fun (k, _) => self.field k) =
      fields.keyed.map fun (k, f) => Fields.shown self k f := by
    unfold Target.labelled
    generalize fields.keyed = fs at hf ⊢
    generalize t.fields = ts at hf ⊢
    induction hf with
    | nil => rfl
    | cons hkf _ ih =>
      rw [List.map_cons, List.map_cons, List.zipWith_cons_cons, ih, hkf.label, hkf.format]
      rfl
  rw [← typeName_of_resolve h]
  cases mode with
  | debug => rw [Target.rendered, hl, Fields.printed]
  | release => rfl

/-- `struct r#Gauge { r#type: u8, #[mrclean(debug)] level: Level }`. -/
def gauge : Tagged where
  ns := .root
  item := ⟨[], ⟨true, "Gauge", by decide, by decide⟩, {}, .struct (.named
    [(⟨true, "type", by decide, by decide⟩, ⟨[], .path false [.bare (.plain "u8")]⟩),
     (.plain "level", ⟨[⟨false, .list ⟨false, [.plain "mrclean"]⟩ .paren
        (Tokens.keyword "debug")⟩], .path false [.bare (.plain "Level")]⟩)])⟩
  file := ⟨"src/lib.rs"⟩

def gaugeTarget : Target where
  path := "r#Gauge"
  fields := [⟨"type", "r#type", .display, none⟩, ⟨"level", "level", .debug, none⟩]

/-- Raw marks do not show, and each field is printed in its own format. -/
theorem body_value_gauge : ∃ e,
    Printing.ofText? ⟨⟨true, [.plain "mrclean"]⟩, nofun⟩
      (Template.body gaugeTarget .debug "::mrclean") = some e ∧ e.Fits ∧
    ∀ self, e.value? self = some ("Gauge(type = " ++
      (self.field (.named ⟨true, "type", by decide, by decide⟩)).display ++ ", level = " ++
      (self.field (.named (.plain "level"))).debug ++ ")") := by
  obtain ⟨fields, e, hk, he, hfits, hv⟩ := body_value (d := gauge) (t := gaugeTarget) rfl .debug
    ⟨⟨true, [.plain "mrclean"]⟩, nofun⟩
  obtain rfl := DataKind.struct.inj hk
  refine ⟨e, he, hfits, fun self => (hv self).trans (congrArg some (String.toList_inj.1 ?_))⟩
  simp only [Fields.printed, Fields.keyed, Fields.shown, List.map_cons, List.map_nil,
    String.intercalate_cons_cons, String.intercalate_singleton, String.toList_append,
    List.append_assoc]
  rfl

end Tagged

end SanitizeGen
