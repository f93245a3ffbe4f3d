import SanitizeGen.Proofs.BodyMeaning
import SanitizeGen.Proofs.CheckedItem
import SanitizeGen.Proofs.EmittedLines
import SanitizeGen.Proofs.TypeParams

/-!
# Bounds of generic implementations

The implementation for a struct with generic parameters keeps the predicates of the struct. In debug
mode it adds a bound for each field whose type depends on a type parameter, by the trait that the
field's placeholder in the body asks for (`function_of_generic`). The two are written by different
functions, so the placeholders are read off the body (`placeholders_body`).
-/

namespace SanitizeGen

open Text

/-! ### Placeholders of a body -/

/-- The placeholder that a part of a format text is. -/
def FormatPiece.placeholder? : FormatPiece → Option Placeholder
  | char _ => none
  | hole p => some p

/-- What an expression asks to be printed, in order. -/
def Printing.placeholders : Printing → List Placeholder
  | constant _ => []
  | format pieces _ => pieces.filterMap FormatPiece.placeholder?

/-- The format text `s` has the placeholders `hs`. -/
def Asks (s : String) (hs : List Placeholder) : Prop :=
  ∃ ps, WritesPieces s.toList ps ∧ ps.filterMap FormatPiece.placeholder? = hs

namespace Asks

variable {s t : String} {hs ks : List Placeholder}

theorem append (h : Asks s hs) (k : Asks t ks) : Asks (s ++ t) (hs ++ ks) := by
  obtain ⟨ps, hps, rfl⟩ := h
  obtain ⟨qs, hqs, rfl⟩ := k
  refine ⟨ps ++ qs, ?_, List.filterMap_append⟩
  rw [String.toList_append]
  exact hps.append hqs

theorem bare (h : Bare s.toList) : Asks s [] :=
  ⟨_, .of_bare h, by simp [List.filterMap_map, Function.comp_def, FormatPiece.placeholder?]⟩

theorem pattern (k : FieldKey) (f : Field) : Asks (Fields.pattern k f) [.ofFormat f.format] := by
  have hlabel := Asks.bare (Bare.label k)
  have heq := Asks.bare (s := " = ") (by decide)
  exact (hlabel.append heq).append ⟨_, .placeholder f.format, rfl⟩

theorem patterns (fs : List (FieldKey × Field)) :
    Asks (", ".intercalate (fs.map fun (k, f) => Fields.pattern k f))
      (fs.map fun (_, f) => .ofFormat f.format) := by
  induction fs with
  | nil => exact .bare nofun
  | cons kf fs ih =>
    obtain ⟨k, f⟩ := kf
    cases fs with
    | nil => simpa using pattern k f
    | cons kf fs =>
      have hcomma := Asks.bare (s := ", ") (by decide)
      have h := ((pattern k f).append hcomma).append ih
      simpa [String.intercalate_cons_cons] using h

end Asks

/-- The body in debug mode has a placeholder for each field, by the field's format. -/
theorem placeholders_body {t : Target} {fs : List (FieldKey × Field)} (runtime : CratePath)
    (hn : Bare t.typeName.toList)
    (hf : List.Forall₂ (fun kf t => t.IsOf kf.1 kf.2) fs t.fields) : ∃ e,
    Printing.ofText? runtime (Template.body t .debug runtime.path.text) = some e ∧
    e.placeholders = fs.map fun (_, f) => .ofFormat f.format := by
  have hopen := Asks.bare (s := "(") (by decide)
  have hclose := Asks.bare (s := ")") (by decide)
  obtain ⟨ps, hps, hholes⟩ := (((Asks.bare hn).append hopen).append (.patterns fs)).append hclose
  refine ⟨_, Template.ofText?_body_debug hn hf hps, ?_⟩
  rcases fs with _ | ⟨kf, fs⟩
  -- a literal has no placeholders
  · rfl
  · simpa [Printing.placeholders] using hholes

/-! ### Bounds of fields -/

/-- The bounds that some fields ask for, by their placeholders: for each field whose type depends on
a type parameter the trait that prints it as the placeholder says, and none for the others. -/
inductive FieldBounds (params : List String) :
    List Field → List Placeholder → List String → Prop where
  | nil : FieldBounds params [] [] []
  | display {f fs ps bs} : f.type.DependsOn params → FieldBounds params fs ps bs →
      FieldBounds params (f :: fs) (.display :: ps)
        ((f.type.text ++ ": ::core::fmt::Display") :: bs)
  | debug {f fs ps bs} : f.type.DependsOn params → FieldBounds params fs ps bs →
      FieldBounds params (f :: fs) (.debug :: ps)
        ((f.type.text ++ ": ::core::fmt::Debug") :: bs)
  | free {f fs p ps bs} : ¬f.type.DependsOn params → FieldBounds params fs ps bs →
      FieldBounds params (f :: fs) (p :: ps) bs

/-- The placeholder of a field's format and its trait go together. -/
theorem FieldBounds.cons {params : List String} {f : Field} {fs : List Field}
    {ps : List Placeholder} {bs : List String} (hdep : f.type.DependsOn params)
    (h : FieldBounds params fs ps bs) : FieldBounds params (f :: fs) (.ofFormat f.format :: ps)
      ((f.type.text ++ ": " ++ f.format.traitPath) :: bs) := by
  cases f.format <;> rw [String.append_assoc]
  · exact .display hdep h
  · exact .debug hdep h

/-- The bound of a field by the test for type parameters. -/
def Field.bound? (params : List String) (f : Field) : Option String :=
  if f.type.mentions params then some (f.type.text ++ ": " ++ f.format.traitPath) else none

theorem fieldBounds_filterMap {params : List String} (hparams : "PhantomData" ∉ params)
    (fs : List Field) : FieldBounds params fs (fs.map fun f => .ofFormat f.format)
      (fs.filterMap (Field.bound? params)) := by
  induction fs with
  | nil => exact .nil
  | cons f fs ih =>
    by_cases hdep : f.type.mentions params = true
    · have hbound : Field.bound? params f = some (f.type.text ++ ": " ++ f.format.traitPath) :=
        if_pos hdep
      rw [List.filterMap_cons_some hbound]
      exact .cons ((mentions_iff hparams).1 hdep) ih
    · have hbound : Field.bound? params f = none := if_neg hdep
      rw [List.filterMap_cons_none hbound]
      exact .free (fun h => hdep ((mentions_iff hparams).2 h)) ih

theorem filterMap_fieldBound {params : List String} {fs : List (FieldKey × Field)}
    {ts : List TargetField}
    (h : Fields.targets params (fs.map fun (k, f) => (k.label, k.code, f)) = .ok ts) :
    ts.filterMap Template.fieldBound = (fs.map Prod.snd).filterMap (Field.bound? params) := by
  rw [Fields.targets_eq_ok h, List.map_map, List.filterMap_map, List.filterMap_map]
  congr 1
  funext ⟨k, f⟩
  simp only [Function.comp_apply, Template.fieldBound, Field.bound?]
  split <;> rfl

/-! ### Implementations -/

/-- The lines of an implementation with these predicates. The first line ends with the brace if
there are none; else the word for them follows it, then each of them, and then the brace. -/
def implLines (front : String) (preds : List String) (rest : List String) : List String :=
  match preds with
  | [] => (front ++ " \x7b") :: rest
  | p :: ps => front :: "where" :: ((p :: ps).map fun p => "    " ++ p ++ ",") ++ "\x7b" :: rest

/-- The lines of an implementation between its braces, and the one with the brace behind it. -/
def methodLines (body : String) : List String :=
  ["    #[inline]", "    #[allow(dead_code)]",
    "    pub(crate) fn sanitized_to_string(&self) -> ::std::string::String \x7b",
    "        " ++ body, "    \x7d", "\x7d"]

theorem Template.function_eq_implLines {t : Target} {mode : Mode} {runtime : String}
    {preds : List String} (h : predicates t mode = preds) :
    function t mode runtime = ofLines (implLines
      ("impl" ++ t.generics.params ++ " " ++ t.receiver ++ t.generics.args) preds
      (methodLines (body t mode runtime))) := by
  rw [function_eq_ofLines, implLine, restLines, h]
  cases preds with
  | nil => rfl
  | cons p ps => simp [implLines, methodLines, whereLines]

/-- The implementation for a struct with generic parameters keeps the predicates of the struct in
their order. In debug mode the bounds of the fields follow, each by the trait that the placeholder
in the body stands for; fields without the identifier of a type parameter have none. The word for
predicates is there if any predicate is. -/
theorem function_of_generic {d : Tagged} {t : Target} (h : d.resolve = .ok t)
    (hgeneric : d.item.generics.params ≠ [])
    (hparams : "PhantomData" ∉ d.item.generics.typeParams) (runtime : CratePath) :
    ∃ fields e bounds, d.item.kind = .struct fields ∧
      Printing.ofText? runtime (Template.body t .debug runtime.path.text) = some e ∧
      FieldBounds d.item.generics.typeParams fields.toList e.placeholders bounds ∧
      (∀ f ∈ fields.toList,
        (∀ i, Tokens.Occurs i f.type.tokens → i.text ∉ d.item.generics.typeParams) →
        ¬f.type.DependsOn d.item.generics.typeParams) ∧
      ∀ mode, Template.function t mode runtime.path.text = ofLines (implLines
        ("impl" ++ t.generics.params ++ " " ++ t.receiver ++ t.generics.args)
        (d.item.generics.predicates.map TokenTree.textOf ++ if mode.isDebug then bounds else [])
        (methodLines (Template.body t mode runtime.path.text))) := by
  obtain ⟨fields, hk, -, hgenerics, htargets⟩ := Tagged.targets_of_resolve h
  rw [fields.labelled_eq] at htargets
  have hn := Bare.name d.item.name
  rw [← Tagged.typeName_of_resolve h] at hn
  obtain ⟨e, he, hholes⟩ := placeholders_body runtime hn (Fields.isOf_of_targets htargets)
  have hbounds := fieldBounds_filterMap hparams (fields.keyed.map Prod.snd)
  rw [← filterMap_fieldBound htargets, List.map_map, ← fields.toList_eq] at hbounds
  refine ⟨fields, e, t.fields.filterMap Template.fieldBound, hk, he, ?_,
    fun f _ hfree hdep => ?_, fun mode => Template.function_eq_implLines ?_⟩
  · rw [hholes]
    exact hbounds
  · obtain ⟨i, hi, hparam⟩ := exists_occurs_of_dependsOn hdep
    exact hfree i hi hparam
  · have hempty : d.item.generics.params.isEmpty = false :=
      List.isEmpty_eq_false_iff.2 hgeneric
    rw [Template.predicates, hgenerics, Generics.target, hempty]
    rfl

/-- A struct with two fields whose types depend on type parameters, and two whose types do not. -/
def envelopeText : String :=
  "struct Envelope<T, I: Iterator> where T: Send \x7b id: u64, payload: T, " ++
  "#[mrclean(debug)] items: Vec<I::Item>, marker: PhantomData<T> \x7d"

/-- The implementation for `envelopeText` has a bound for each of the two fields. -/
theorem function_of_generic_envelope : ∃ item t fields e bounds,
    DataItem.ofText? envelopeText.toList = some item ∧
    Tagged.resolve ⟨.root, item, ⟨"src/lib.rs"⟩⟩ = .ok t ∧ item.kind = .struct fields ∧
    FieldBounds item.generics.typeParams fields.toList (Printing.placeholders e) bounds ∧
    Template.function t .debug "::mrclean" = ofLines (implLines
      "impl< T , I : Iterator > crate::Envelope< T , I >" ("T : Send" :: bounds)
      (methodLines (Template.body t .debug "::mrclean"))) ∧
    Template.predicates t .debug =
      ["T : Send", "T: ::core::fmt::Display", "Vec < I :: Item >: ::core::fmt::Debug"] := by
  have h : ((DataItem.ofText? envelopeText.toList).any fun item =>
      (Tagged.resolve ⟨.root, item, ⟨"src/lib.rs"⟩⟩).toOption.any fun t =>
        !item.generics.params.isEmpty && !item.generics.typeParams.contains "PhantomData" &&
        item.generics.predicates.map TokenTree.textOf == ["T : Send"] &&
        "impl" ++ t.generics.params ++ " " ++ t.receiver ++ t.generics.args ==
          "impl< T , I : Iterator > crate::Envelope< T , I >" &&
        Template.predicates t .debug ==
          ["T : Send", "T: ::core::fmt::Display", "Vec < I :: Item >: ::core::fmt::Debug"]) =
      true := by
    decide +kernel
  obtain ⟨item, hitem, h⟩ := (Option.any_eq_true _ _).1 h
  rcases ht : Tagged.resolve ⟨.root, item, ⟨"src/lib.rs"⟩⟩ with e | t
  · rw [ht] at h
    cases h
  rw [ht] at h
  simp only [Except.toOption, Option.any_some, Bool.and_eq_true, Bool.not_eq_true', beq_iff_eq,
    List.isEmpty_eq_false_iff, List.contains_eq_mem, decide_eq_false_iff_not] at h
  obtain ⟨⟨⟨⟨hgeneric, hparams⟩, hdeclared⟩, hfront⟩, hpreds⟩ := h
  obtain ⟨fields, e, bounds, hk, -, hbounds, -, hfunction⟩ :=
    function_of_generic ht hgeneric hparams ⟨⟨true, [.plain "mrclean"]⟩, List.cons_ne_nil _ _⟩
  have hdebug := hfunction .debug
  rw [hdeclared, hfront] at hdebug
  exact ⟨item, t, fields, e, bounds, hitem, ht, hk, hbounds, hdebug, hpreds⟩

end SanitizeGen
