import Mathlib.Data.List.Forall2
import SanitizeGen.Template
import SanitizeGen.Proofs.LexedText
import SanitizeGen.Proofs.RegisteredFunctions
import SanitizeGen.Proofs.ResolvedTarget

/-!
# The lines of the file of functions

What a reader of the generated file finds who goes by its lines alone: the implementations, each
with what follows it up to the next one (`Text.blocks`), the calls that register functions
(`RegisterCall.ofLine?`), and the inside of the function that makes these calls
(`Text.registerInside`). All of them list the targets in order, and no line of one part is taken for
one of another (`readsBack_of_sanitizations`).
-/

namespace SanitizeGen

open Text

/-! ### Lines -/

namespace Text

variable {s t l : String} {ls ms : List String}

/-- The lines of a text, with the empty one behind its last line break. -/
def lines (s : String) : List String := (s.toList.splitOn '\n').map String.ofList

/-- The text of some lines, each with a line break behind it. -/
def ofLines (ls : List String) : String := String.join (ls.map fun l => l ++ "\n")

/-- The text has no line break. -/
def OneLine (s : String) : Prop := ∀ c ∈ s.toList, c ≠ '\n'

instance : Decidable (OneLine s) := List.decidableBAll (· ≠ '\n') s.toList

@[simp] theorem oneLine_append : OneLine (s ++ t) ↔ OneLine s ∧ OneLine t := by
  simp only [OneLine, String.toList_append, List.forall_mem_append]

@[simp] theorem ofLines_nil : ofLines [] = "" := rfl

@[simp] theorem ofLines_cons : ofLines (l :: ls) = l ++ "\n" ++ ofLines ls := by
  simp [ofLines]

@[simp] theorem ofLines_append : ofLines (ls ++ ms) = ofLines ls ++ ofLines ms := by
  simp [ofLines]

theorem ofLines_flatMap {α : Type} (f : α → List String) (xs : List α) :
    ofLines (xs.flatMap f) = String.join (xs.map fun x => ofLines (f x)) := by
  induction xs with
  | nil => rfl
  | cons x xs ih => simp [ih]

theorem lines_ofLines (h : ∀ l ∈ ls, OneLine l) : lines (ofLines ls) = ls ++ [""] := by
  induction ls with
  | nil => rfl
  | cons l ls ih =>
    rw [List.forall_mem_cons] at h
    have htext : (ofLines (l :: ls)).toList = l.toList ++ '\n' :: (ofLines ls).toList := by
      simp
    have hl : '\n' ∉ l.toList := fun hc => h.1 _ hc rfl
    rw [lines, htext, List.splitOn_append_cons_self_of_not_mem hl, List.map_cons,
      String.ofList_toList, List.cons_append, ← ih h.2, lines]

/-- The characters of some texts, with one between each two, are those of the texts. -/
theorem forall_mem_intercalate {P : Char → Prop} (hs : ∀ c ∈ s.toList, P c)
    (h : ∀ l ∈ ls, ∀ c ∈ l.toList, P c) : ∀ c ∈ (s.intercalate ls).toList, P c := by
  induction ls with
  | nil => simp
  | cons l ls ih =>
    rw [List.forall_mem_cons] at h
    cases ls with
    | nil => simpa using h.1
    | cons k ks =>
      rw [String.intercalate_cons_cons, String.toList_append, String.toList_append]
      simp only [List.forall_mem_append]
      exact ⟨⟨h.1, hs⟩, ih h.2⟩

/-- The text is made of what paths are made of. -/
def PathLetters (s : String) : Prop := ∀ c ∈ s.toList, isIdentContinue c = true ∨ c = '#' ∨ c = ':'

instance : Decidable (PathLetters s) :=
  List.decidableBAll (fun c => isIdentContinue c = true ∨ c = '#' ∨ c = ':') s.toList

theorem PathLetters.append (hs : PathLetters s) (ht : PathLetters t) : PathLetters (s ++ t) := by
  simp only [PathLetters, String.toList_append, List.forall_mem_append]
  exact ⟨hs, ht⟩

theorem PathLetters.not_mem (hs : PathLetters s) {c : Char} (hc : isIdentContinue c = false)
    (hm : c ≠ '#') (hd : c ≠ ':') : c ∉ s.toList := by
  intro h
  rcases hs c h with h | h | h
  · rw [hc] at h
    cases h
  · exact hm h
  · exact hd h

theorem PathLetters.oneLine (hs : PathLetters s) : OneLine s := by
  rintro c hc rfl
  exact hs.not_mem (by decide) (by decide) (by decide) hc

/-! ### Implementations -/

def startsImpl (l : String) : Bool := "impl".toList.isPrefixOf l.toList

/-- Each line that starts with `impl`, with the lines from there to the next one. -/
def blocks : List String → List (String × List String)
  | [] => []
  | l :: ls =>
    if startsImpl l then (l, ls.takeWhile fun k => !startsImpl k) :: blocks ls else blocks ls

theorem map_fst_blocks (ls : List String) : (blocks ls).map Prod.fst = ls.filter startsImpl := by
  induction ls with
  | nil => rfl
  | cons l ls ih => cases hl : startsImpl l <;> simp [blocks, hl, ih]

theorem blocks_append (h : ∀ l ∈ ls, startsImpl l = false) : blocks (ls ++ ms) = blocks ms := by
  induction ls with
  | nil => rfl
  | cons l ls ih =>
    rw [List.forall_mem_cons] at h
    rw [List.cons_append, blocks, h.1, ih h.2]
    rfl

theorem blocks_cons_append (hl : startsImpl l = true) (h : ∀ k ∈ ls, startsImpl k = false) :
    blocks (l :: (ls ++ ms)) = (l, ls ++ ms.takeWhile fun k => !startsImpl k) :: blocks ms := by
  rw [blocks, hl, if_pos rfl, blocks_append h,
    List.takeWhile_append_of_pos fun k hk => by rw [h k hk]; rfl]

/-! ### The function that registers -/

def startsRegister (l : String) : Bool :=
  "pub(crate) fn register_sanitizations(".toList.isPrefixOf l.toList

/-- The lines between the first one that starts the function that registers and the next brace. -/
def registerInside (ls : List String) : List String :=
  ((ls.dropWhile fun l => !startsRegister l).drop 1).takeWhile (· != "\x7d")

theorem registerInside_append {inside : List String} (h : ∀ k ∈ ls, startsRegister k = false)
    (hl : startsRegister l = true) (hi : ∀ k ∈ inside, k ≠ "\x7d") :
    registerInside (ls ++ l :: (inside ++ "\x7d" :: ms)) = inside := by
  rw [registerInside, List.dropWhile_append_of_pos fun k hk => by rw [h k hk]; rfl,
    List.dropWhile_cons_of_neg (by simp [hl]), List.drop_one, List.tail_cons,
    List.takeWhile_append_of_pos fun k hk => bne_iff_ne.2 (hi k hk),
    List.takeWhile_cons_of_neg (by simp), List.append_nil]

/-- What stands in for calls where there are none. -/
def unusedLine : String := "    let _ = table;"

end Text

/-- A call that registers the function at one path for the type at another. -/
structure RegisterCall where
  type : String
  function : String
  deriving DecidableEq

namespace RegisterCall

variable {l : String} {c : RegisterCall}

/-- The call whose arguments are a text that reads `P>(Q);`. -/
def ofArguments? (s : List Char) : Option RegisterCall :=
  ((s.dropWhile (· != '>')).dropPrefix? ['>', '(']).bind fun q =>
    if q.dropWhile (· != ')') = [')', ';'] then
      some ⟨String.ofList (s.takeWhile (· != '>')), String.ofList (q.takeWhile (· != ')'))⟩
    else none

def opening : String := "    table.register::<"

/-- The call on a line that reads `table.register::<P>(Q);`. -/
def ofLine? (l : String) : Option RegisterCall :=
  (l.toList.dropPrefix? opening.toList).bind ofArguments?

def line (c : RegisterCall) : String := opening ++ c.type ++ ">(" ++ c.function ++ ");"

theorem eq_of_ofArguments? {s : List Char} (h : ofArguments? s = some c) :
    s = c.type.toList ++ ['>', '('] ++ c.function.toList ++ [')', ';'] := by
  obtain ⟨q, hq, hc⟩ := Option.bind_eq_some_iff.1 h
  obtain ⟨p, hs, hp⟩ := List.dropPrefix?_eq_some_iff.1 hq
  obtain ⟨hend, hc⟩ := Option.ite_none_right_eq_some.1 hc
  obtain rfl := Option.some.inj hc
  calc s = s.takeWhile (· != '>') ++ s.dropWhile (· != '>') :=
        List.takeWhile_append_dropWhile.symm
    _ = s.takeWhile (· != '>') ++ ['>', '('] ++ q := by
        rw [hs, eq_of_beq hp, List.append_assoc]
    _ = s.takeWhile (· != '>') ++ ['>', '('] ++ (q.takeWhile (· != ')') ++ [')', ';']) := by
        rw [← hend, List.takeWhile_append_dropWhile]
    _ = _ := by
        rw [String.toList_ofList, String.toList_ofList, List.append_assoc _ _ [')', ';']]

theorem ofArguments?_eq (ht : '>' ∉ c.type.toList) (hf : ')' ∉ c.function.toList) :
    ofArguments? (c.type.toList ++ ['>', '('] ++ c.function.toList ++ [')', ';']) = some c := by
  have ht' : ∀ a ∈ c.type.toList, (a != '>') = true := fun a ha =>
    bne_iff_ne.2 fun h => ht (h ▸ ha)
  have hf' : ∀ a ∈ c.function.toList, (a != ')') = true := fun a ha =>
    bne_iff_ne.2 fun h => hf (h ▸ ha)
  have hdrop (q : List Char) : ('>' :: '(' :: q).dropPrefix? ['>', '('] = some q :=
    List.dropPrefix?_eq_some_iff.2 ⟨_, rfl, beq_self_eq_true _⟩
  simp [ofArguments?, List.dropWhile_append_of_pos ht', List.takeWhile_append_of_pos ht', hdrop,
    List.dropWhile_append_of_pos hf', List.takeWhile_append_of_pos hf']

theorem toList_line (c : RegisterCall) : c.line.toList = opening.toList ++
    (c.type.toList ++ ['>', '('] ++ c.function.toList ++ [')', ';']) := by
  simp [line]

theorem eq_line_of_ofLine? (h : ofLine? l = some c) : l = c.line := by
  rw [ofLine?, Option.bind_eq_some_iff] at h
  obtain ⟨s, hs, hc⟩ := h
  obtain ⟨p, hl, hp⟩ := List.dropPrefix?_eq_some_iff.1 hs
  rw [← String.toList_inj, toList_line, hl, eq_of_beq hp, eq_of_ofArguments? hc]

theorem ofLine?_line (ht : '>' ∉ c.type.toList) (hf : ')' ∉ c.function.toList) :
    ofLine? c.line = some c := by
  rw [ofLine?, toList_line, List.dropPrefix?_eq_some_iff.2 ⟨_, rfl, beq_self_eq_true _⟩,
    Option.bind_some, ofArguments?_eq ht hf]

end RegisterCall

/-! ### The lines that are written -/

namespace Template

variable {t : Target} {ts : List Target} {mode : Mode} {runtime : String}

/-- The first line of an implementation. -/
def implLine (t : Target) (mode : Mode) : String :=
  "impl" ++ t.generics.params ++ " " ++ t.receiver ++ t.generics.args ++
    if (predicates t mode).isEmpty then " \x7b" else ""

/-- The lines of a where clause, up to the brace behind it. -/
def whereLines (preds : List String) : List String :=
  if preds.isEmpty then [] else "where" :: (preds.map fun p => "    " ++ p ++ ",") ++ ["\x7b"]

/-- The lines of an implementation behind the first one. -/
def restLines (t : Target) (mode : Mode) (runtime : String) : List String :=
  whereLines (predicates t mode) ++
  ["    #[inline]", "    #[allow(dead_code)]",
    "    pub(crate) fn sanitized_to_string(&self) -> ::std::string::String \x7b",
    "        " ++ body t mode runtime, "    \x7d", "\x7d"]

/-- The call that registers the function of a target. -/
def call (t : Target) : RegisterCall := ⟨t.receiver, t.receiver ++ "::sanitized_to_string"⟩

/-- The line about a target in the function that registers. -/
def targetLine (t : Target) : String :=
  if t.isGeneric then
    "    // " ++ t.receiver ++ " is generic; register each instantiation explicitly."
  else (call t).line

/-- The lines inside the function that registers. -/
def insideLines (ts : List Target) : List String :=
  ts.map targetLine ++ if ts.all Target.isGeneric then [unusedLine] else []

/-- The lines of a file in front of the function that registers. -/
def frontLines (ts : List Target) (mode : Mode) (runtime : String) : List String :=
  ["// " ++ mode.name, notice] ++
    (ts.flatMap fun t => "" :: implLine t mode :: restLines t mode runtime) ++
    ["", "#[allow(dead_code)]"]

def registerHead (runtime : String) : String :=
  "pub(crate) fn register_sanitizations(table: &mut " ++ runtime ++ "::SanitizerTable) \x7b"

/-- Joined lines, as a where clause writes them. -/
theorem ofLines_predicates (p : String) (ps : List String) :
    ofLines ((p :: ps).map fun p => "    " ++ p ++ ",") =
      "    " ++ ",\n    ".intercalate (p :: ps) ++ ",\n" := by
  induction ps generalizing p with
  | nil => simp [← String.toList_inj]
  | cons q qs ih =>
    rw [List.map_cons, ofLines_cons, ih, String.intercalate_cons_cons]
    simp [← String.toList_inj]

theorem function_eq_ofLines (t : Target) (mode : Mode) (runtime : String) :
    function t mode runtime = ofLines (implLine t mode :: restLines t mode runtime) := by
  rcases h : predicates t mode with _ | ⟨p, ps⟩
  · simp [← String.toList_inj, function, implLine, restLines, whereLines, whereClause, h]
  · have hp := ofLines_predicates p ps
    rw [ofLines_cons, restLines, ofLines_append, h, whereLines, if_neg (by simp), ofLines_append,
      ofLines_cons, hp]
    simp [← String.toList_inj, function, implLine, whereClause, h]

theorem registrationLine_eq (t : Target) : registrationLine t = targetLine t ++ "\n" := by
  unfold registrationLine targetLine
  cases h : t.isGeneric
  · rw [if_neg Bool.false_ne_true, if_neg Bool.false_ne_true]
    simp [← String.toList_inj, RegisterCall.line, RegisterCall.opening, call]
  · rw [if_pos rfl, if_pos rfl]
    simp [← String.toList_inj]

theorem registration_eq_ofLines (ts : List Target) (runtime : String) :
    registration ts runtime = ofLines ("#[allow(dead_code)]" ::
      registerHead runtime :: (insideLines ts ++ ["\x7d"])) := by
  have hlines : String.join (ts.map registrationLine) = ofLines (ts.map targetLine) := by
    rw [ofLines, List.map_map]
    exact congrArg _ (List.map_congr_left fun t _ => registrationLine_eq t)
  unfold registration insideLines registerHead
  rw [hlines]
  split <;> simp [← String.toList_inj, unusedLine]

theorem sanitizations_eq_ofLines (ts : List Target) (mode : Mode) (runtime : String) :
    sanitizations ts mode runtime = ofLines (frontLines ts mode runtime ++
      registerHead runtime :: (insideLines ts ++ ["\x7d"])) := by
  have hfunctions : String.join (ts.map fun t => "\n" ++ function t mode runtime) =
      ofLines (ts.flatMap fun t => "" :: implLine t mode :: restLines t mode runtime) := by
    rw [ofLines_flatMap]
    congr 1
    refine List.map_congr_left fun t _ => ?_
    rw [ofLines_cons, function_eq_ofLines, String.empty_append]
  rw [sanitizations, hfunctions, registration_eq_ofLines, frontLines]
  simp [← String.toList_inj]

/-! ### Lines that are told apart -/

theorem startsImpl_of_head {l : String} (h : l.toList.head? ≠ some 'i') : startsImpl l = false := by
  refine Bool.eq_false_iff.2 fun hl => h ?_
  obtain ⟨r, hr⟩ := List.isPrefixOf_iff_prefix.1 hl
  simp [← hr]

/-- A line outside of the function that registers. -/
structure Outside (l : String) : Prop where
  call : RegisterCall.ofLine? l = none
  register : startsRegister l = false
  unused : l ≠ unusedLine

theorem startsRegister_of_head {l : String} (h : l.toList.head? ≠ some 'p') :
    startsRegister l = false := by
  refine Bool.eq_false_iff.2 fun hl => h ?_
  obtain ⟨r, hr⟩ := List.isPrefixOf_iff_prefix.1 hl
  simp [← hr]

theorem ofLine?_of_heads {l : String}
    (h : l.toList.head? ≠ some ' ' ∨ (l.toList.drop 4).head? ≠ some 't') :
    RegisterCall.ofLine? l = none := by
  refine Option.eq_none_iff_forall_not_mem.2 fun c hc => ?_
  obtain rfl := RegisterCall.eq_line_of_ofLine? hc
  simp [RegisterCall.toList_line, RegisterCall.opening] at h

/-- Calls, and what stands in for them, have blanks in front and then a letter of their own. -/
theorem Outside.of_heads {l : String} (hp : l.toList.head? ≠ some 'p')
    (h : l.toList.head? ≠ some ' ' ∨
      (l.toList.drop 4).head? ≠ some 't' ∧ (l.toList.drop 4).head? ≠ some 'l') : Outside l where
  call := ofLine?_of_heads (h.imp_right And.left)
  register := startsRegister_of_head hp
  unused := by
    rintro rfl
    simp [unusedLine] at h

/-- A predicate ends with a comma. -/
theorem Outside.predicate (p : String) : Outside ("    " ++ p ++ ",") := by
  have hlast : ("    " ++ p ++ ",").toList.reverse.head? = some ',' := by simp
  refine ⟨Option.eq_none_iff_forall_not_mem.2 fun c hc => ?_, startsRegister_of_head (by simp),
    fun hu => ?_⟩
  · rw [RegisterCall.eq_line_of_ofLine? hc, RegisterCall.toList_line] at hlast
    simp at hlast
  · rw [hu] at hlast
    simp [unusedLine] at hlast

section

variable {P : String → Prop}

/-- The lines behind the first one of an implementation: predicates, the body, and fixed ones. -/
theorem forall_mem_restLines (hp : ∀ p ∈ predicates t mode, P ("    " ++ p ++ ","))
    (hbody : P ("        " ++ body t mode runtime)) (hw : P "where") (hb : P "\x7b")
    (hi : P "    #[inline]") (ha : P "    #[allow(dead_code)]")
    (hf : P "    pub(crate) fn sanitized_to_string(&self) -> ::std::string::String \x7b")
    (hend : P "    \x7d") (he : P "\x7d") : ∀ l ∈ restLines t mode runtime, P l := by
  intro l hl
  rcases List.mem_append.1 hl with hl | hl
  · rw [whereLines] at hl
    split at hl
    · cases hl
    · simp only [List.cons_append, List.mem_cons, List.mem_append, List.mem_map, List.not_mem_nil,
        or_false] at hl
      rcases hl with rfl | ⟨p, h, rfl⟩ | rfl
      exacts [hw, hp p h, hb]
  · simp only [List.mem_cons, List.not_mem_nil, or_false] at hl
    rcases hl with rfl | rfl | rfl | rfl | rfl | rfl
    exacts [hi, ha, hf, hbody, hend, he]

end

theorem not_startsImpl_restLines : ∀ l ∈ restLines t mode runtime, startsImpl l = false := by
  apply forall_mem_restLines <;> intros <;> exact startsImpl_of_head (by simp)

theorem outside_restLines : ∀ l ∈ restLines t mode runtime, Outside l := by
  refine forall_mem_restLines (fun p _ => .predicate p) ?_ ?_ ?_ ?_ ?_ ?_ ?_ ?_ <;>
    exact .of_heads (by simp) (by simp)

theorem outside_frontLines (ts : List Target) (mode : Mode) (runtime : String) :
    ∀ l ∈ frontLines ts mode runtime, Outside l := by
  intro l hl
  simp only [frontLines, List.mem_append, List.mem_flatMap, List.mem_cons, List.not_mem_nil,
    or_false] at hl
  rcases hl with ((rfl | rfl) | ⟨t, -, rfl | rfl | hl⟩) | rfl | rfl
  · exact .of_heads (by simp) (by simp)
  · exact .of_heads (by simp [notice]) (by simp [notice])
  · exact .of_heads (by simp) (by simp)
  · exact .of_heads (by simp [implLine]) (by simp [implLine])
  · exact outside_restLines l hl
  · exact .of_heads (by simp) (by simp)
  · exact .of_heads (by simp) (by simp)

theorem startsImpl_implLine (t : Target) (mode : Mode) : startsImpl (implLine t mode) = true := by
  rw [startsImpl, List.isPrefixOf_iff_prefix]
  simp [implLine]

end Template

/-! ### Texts without a line break -/

theorem Ident.pathLetters_name (i : Ident) : PathLetters i.name :=
  fun _ hc => .inl (isIdentContinue_of_mem_name hc)

theorem Ident.pathLetters_text (i : Ident) : PathLetters i.text := by
  rw [text]
  split
  · exact .append (by decide) i.pathLetters_name
  · exact i.pathLetters_name

theorem pathLetters_toString (n : Nat) : PathLetters (toString n) := fun c hc => .inl <| by
  simp [isIdentContinue, Lexeme.isAsciiDigit_of_mem_toString n c hc]

theorem FieldKey.pathLetters_label : (k : FieldKey) → PathLetters k.label
  | .named i => i.pathLetters_name
  | .index n => pathLetters_toString n

theorem FieldKey.pathLetters_code : (k : FieldKey) → PathLetters k.code
  | .named i => i.pathLetters_text
  | .index n => pathLetters_toString n

theorem Namespace.pathLetters_qualify (ns : Namespace) (i : Ident) :
    PathLetters (ns.qualify i.text) := by
  rw [qualify]
  split
  · exact i.pathLetters_text
  · rename_i hroot
    have htext : PathLetters ns.text := by
      rw [text, if_neg hroot]
      refine forall_mem_intercalate (show PathLetters "::" by decide) fun l hl => ?_
      obtain ⟨j, -, rfl⟩ := List.mem_map.1 hl
      exact j.pathLetters_text
    exact (htext.append (by decide)).append i.pathLetters_text

/-- The generic parameters of a target, and the types that depend on them, have no line break. -/
structure Target.OnOneLine (t : Target) : Prop where
  params : OneLine t.generics.params
  args : OneLine t.generics.args
  predicates : ∀ p ∈ t.generics.predicates, OneLine p
  types : ∀ f ∈ t.fields, ∀ type ∈ f.genericType, OneLine type

/-- What a file takes from a target can be written on lines of their own. -/
structure Target.Written (t : Target) : Prop extends t.OnOneLine where
  receiver : PathLetters t.receiver
  typeName : PathLetters t.typeName
  labels : ∀ f ∈ t.fields, PathLetters f.label
  accessors : ∀ f ∈ t.fields, PathLetters f.accessor

theorem TargetField.exists_isOf {fs : List (FieldKey × Field)} {us : List TargetField}
    (h : List.Forall₂ (fun kf u => u.IsOf kf.1 kf.2) fs us) : ∀ u ∈ us, ∃ k f, u.IsOf k f := by
  induction h with
  | nil => exact List.forall_mem_nil _
  | cons hu _ ih => exact List.forall_mem_cons.2 ⟨⟨_, _, hu⟩, ih⟩

theorem Tagged.written_of_resolve {d : Tagged} {t : Target} (h : d.resolve = .ok t)
    (ht : t.OnOneLine) : t.Written := by
  obtain ⟨fields, -, hpath, hfields⟩ := exists_of_resolve h
  refine ⟨ht, ?_, ?_, fun f hf => ?_, fun f hf => ?_⟩
  · rw [Target.receiver, hpath]
    exact .append (by decide) (d.ns.pathLetters_qualify d.item.name)
  · rw [typeName_of_resolve h]
    exact d.item.name.pathLetters_name
  · obtain ⟨k, g, hk⟩ := TargetField.exists_isOf hfields f hf
    exact hk.label ▸ k.pathLetters_label
  · obtain ⟨k, g, hk⟩ := TargetField.exists_isOf hfields f hf
    exact hk.accessor ▸ k.pathLetters_code

namespace Template

variable {t : Target} {ts : List Target} {mode : Mode} {runtime : String}

theorem oneLine_placeholder (f : FieldFormat) : OneLine f.placeholder := by
  cases f <;> decide

theorem oneLine_traitPath (f : FieldFormat) : OneLine f.traitPath := by
  cases f <;> decide

theorem oneLine_fieldPattern (h : t.Written) : OneLine (fieldPattern t.fields) := by
  refine forall_mem_intercalate (show OneLine ", " by decide) fun l hl => ?_
  obtain ⟨f, hf, rfl⟩ := List.mem_map.1 hl
  exact oneLine_append.2 ⟨oneLine_append.2 ⟨(h.labels f hf).oneLine, by decide⟩,
    oneLine_placeholder f.format⟩

theorem oneLine_fieldArguments (h : t.Written) : OneLine (fieldArguments t.fields) := by
  rw [fieldArguments, OneLine, String.toList_join]
  intro c hc
  obtain ⟨l, hl, hc⟩ := List.mem_flatMap.1 hc
  obtain ⟨f, hf, rfl⟩ := List.mem_map.1 hl
  exact oneLine_append.2 ⟨by decide, (h.accessors f hf).oneLine⟩ c hc

theorem oneLine_body (h : t.Written) (hr : OneLine runtime) : OneLine (body t mode runtime) := by
  have hname := h.typeName.oneLine
  have hpattern := oneLine_fieldPattern h
  have harguments := oneLine_fieldArguments h
  unfold body
  cases mode with
  | release =>
    simp only [oneLine_append]
    exact ⟨⟨⟨⟨by decide, hname⟩, by decide⟩, hr⟩, by decide⟩
  | debug =>
    simp only
    split
    · simp only [oneLine_append]
      exact ⟨⟨by decide, hname⟩, by decide⟩
    · simp only [oneLine_append]
      exact ⟨⟨⟨⟨⟨⟨by decide, hname⟩, by decide⟩, hpattern⟩, by decide⟩, harguments⟩, by decide⟩

theorem oneLine_predicates (h : t.Written) : ∀ p ∈ predicates t mode, OneLine p := by
  intro p hp
  rcases List.mem_append.1 hp with hp | hp
  · exact h.predicates p hp
  · split at hp
    · obtain ⟨f, hf, hbound⟩ := List.mem_filterMap.1 hp
      obtain ⟨type, htype, rfl⟩ := Option.map_eq_some_iff.1 hbound
      exact oneLine_append.2 ⟨oneLine_append.2 ⟨h.types f hf type htype, by decide⟩,
        oneLine_traitPath f.format⟩
    · cases hp

theorem oneLine_implLine (h : t.Written) : OneLine (implLine t mode) := by
  simp only [implLine, oneLine_append]
  refine ⟨⟨⟨⟨⟨by decide, h.params⟩, by decide⟩, h.receiver.oneLine⟩, h.args⟩, ?_⟩
  split <;> decide

theorem oneLine_targetLine (h : t.Written) : OneLine (targetLine t) := by
  have hr := h.receiver.oneLine
  unfold targetLine
  split
  · simp only [oneLine_append]
    exact ⟨⟨by decide, hr⟩, by decide⟩
  · simp only [RegisterCall.line, call, oneLine_append]
    exact ⟨⟨⟨⟨by decide, hr⟩, by decide⟩, hr, by decide⟩, by decide⟩

theorem oneLine_lines (h : ∀ t ∈ ts, t.Written) (hr : OneLine runtime) :
    ∀ l ∈ frontLines ts mode runtime ++ registerHead runtime :: (insideLines ts ++ ["\x7d"]),
      OneLine l := by
  intro l hl
  simp only [frontLines, insideLines, List.mem_append, List.mem_flatMap, List.mem_map,
    List.mem_cons, List.not_mem_nil, or_false] at hl
  rcases hl with (((rfl | rfl) | ⟨t, ht, rfl | rfl | hl⟩) | rfl | rfl) | rfl |
    (⟨t, ht, rfl⟩ | hl) | rfl
  · cases mode <;> decide
  · decide
  · decide
  · exact oneLine_implLine (h t ht)
  · refine forall_mem_restLines (fun p hp => ?_) ?_ (by decide) (by decide) (by decide)
      (by decide) (by decide) (by decide) (by decide) l hl
    · simpa only [oneLine_append] using
        ⟨⟨by decide, oneLine_predicates (h t ht) p hp⟩, by decide⟩
    · exact oneLine_append.2 ⟨by decide, oneLine_body (h t ht) hr⟩
  · decide
  · decide
  · unfold registerHead
    exact oneLine_append.2 ⟨oneLine_append.2 ⟨by decide, hr⟩, by decide⟩
  · exact oneLine_targetLine (h t ht)
  · split at hl
    · obtain rfl := List.mem_singleton.1 hl
      decide
    · cases hl
  · decide

/-! ### Reading the lines -/

/-- The line starts the implementation of a target. -/
def Names (t : Target) (l : String) : Prop :=
  ∃ brace, l = "impl" ++ t.generics.params ++ " " ++ t.receiver ++ t.generics.args ++ brace ∧
    (brace = "" ∨ brace = " \x7b")

/-- The line is what the function that registers holds for a target. -/
def IsAbout (t : Target) (l : String) : Prop :=
  if t.isGeneric then
    l = "    // " ++ t.receiver ++ " is generic; register each instantiation explicitly."
  else RegisterCall.ofLine? l = some (call t)

theorem names_implLine (t : Target) (mode : Mode) : Names t (implLine t mode) := by
  refine ⟨_, rfl, ?_⟩
  split
  · exact .inr rfl
  · exact .inl rfl

theorem ofLine?_targetLine (h : t.Written) : RegisterCall.ofLine? (targetLine t) =
    if t.isGeneric then none else some (call t) := by
  unfold targetLine
  split
  · exact (Outside.of_heads (by simp) (by simp)).call
  · exact RegisterCall.ofLine?_line (h.receiver.not_mem (by decide) (by decide) (by decide))
      ((h.receiver.append (by decide)).not_mem (by decide) (by decide) (by decide))

theorem isAbout_targetLine (h : t.Written) : IsAbout t (targetLine t) := by
  unfold IsAbout
  split
  · rename_i ht
    unfold targetLine
    rw [if_pos ht]
  · rename_i ht
    rw [ofLine?_targetLine h, if_neg ht]

theorem forall₂_blocks (ts : List Target) (mode : Mode) (runtime : String) {rest : List String}
    (h : ∀ l ∈ rest, startsImpl l = false) :
    List.Forall₂ (fun t b => Names t b.1 ∧ "        " ++ body t mode runtime ∈ b.2) ts
      (blocks ((ts.flatMap fun t => "" :: implLine t mode :: restLines t mode runtime) ++
        rest)) := by
  induction ts with
  | nil =>
    have hrest : blocks (rest ++ []) = blocks [] := blocks_append h
    rw [List.append_nil] at hrest
    rw [List.flatMap_nil, List.nil_append, hrest]
    exact .nil
  | cons t ts ih =>
    have hblank : startsImpl "" = false := by decide
    rw [List.flatMap_cons, List.cons_append, List.cons_append, List.cons_append, blocks, hblank,
      if_neg Bool.false_ne_true, List.cons_append, List.append_assoc,
      blocks_cons_append (startsImpl_implLine t mode) not_startsImpl_restLines]
    refine .cons ⟨names_implLine t mode, ?_⟩ ih
    simp [restLines]

/-- The lines of the function that registers, from its head to the end of the file. -/
def registerLines (ts : List Target) (runtime : String) : List String :=
  registerHead runtime :: (insideLines ts ++ ["\x7d", ""])

theorem head?_targetLine (t : Target) : (targetLine t).toList.head? = some ' ' := by
  unfold targetLine
  split
  · simp
  · simp [RegisterCall.toList_line, RegisterCall.opening]

theorem head?_insideLines : ∀ l ∈ insideLines ts, l.toList.head? = some ' ' := by
  intro l hl
  rcases List.mem_append.1 hl with hl | hl
  · obtain ⟨t, -, rfl⟩ := List.mem_map.1 hl
    exact head?_targetLine t
  · split at hl
    · obtain rfl := List.mem_singleton.1 hl
      simp [unusedLine]
    · cases hl

theorem targetLine_ne_unusedLine (t : Target) : targetLine t ≠ unusedLine := by
  intro h
  have hdrop : ((targetLine t).toList.drop 4).head? = some 'l' := by
    rw [h]
    simp [unusedLine]
  unfold targetLine at hdrop
  split at hdrop
  · simp at hdrop
  · simp [RegisterCall.toList_line, RegisterCall.opening] at hdrop

theorem lines_sanitizations (h : ∀ t ∈ ts, t.Written) (hr : OneLine runtime) :
    lines (sanitizations ts mode runtime) =
      frontLines ts mode runtime ++ registerLines ts runtime := by
  rw [sanitizations_eq_ofLines, lines_ofLines (oneLine_lines h hr), registerLines]
  simp

theorem filterMap_targetLine (h : ∀ t ∈ ts, t.Written) :
    (ts.map targetLine).filterMap RegisterCall.ofLine? =
      (ts.filter fun t => !t.isGeneric).map call := by
  induction ts with
  | nil => rfl
  | cons t ts ih =>
    rw [List.forall_mem_cons] at h
    have ht := ofLine?_targetLine h.1
    cases hg : t.isGeneric <;> simp [ht, hg, ih h.2]

/-- The calls of a file are those that register the targets without generic parameters. -/
theorem filterMap_lines (h : ∀ t ∈ ts, t.Written) :
    (frontLines ts mode runtime ++ registerLines ts runtime).filterMap RegisterCall.ofLine? =
      (ts.filter fun t => !t.isGeneric).map call := by
  have hfront : (frontLines ts mode runtime).filterMap RegisterCall.ofLine? = [] :=
    List.filterMap_eq_nil_iff.2 fun l hl => (outside_frontLines ts mode runtime l hl).call
  have hhead : RegisterCall.ofLine? (registerHead runtime) = none :=
    ofLine?_of_heads (.inl (by unfold registerHead; simp))
  have hunused : RegisterCall.ofLine? unusedLine = none :=
    ofLine?_of_heads (.inr (by simp [unusedLine]))
  have hend : ["\x7d", ""].filterMap RegisterCall.ofLine? = [] :=
    List.filterMap_eq_nil_iff.2 fun l hl => by
      simp only [List.mem_cons, List.not_mem_nil, or_false] at hl
      rcases hl with rfl | rfl <;> exact ofLine?_of_heads (.inl (by simp))
  rw [registerLines, insideLines, List.filterMap_append, hfront, List.nil_append,
    List.filterMap_cons_none hhead, List.filterMap_append, List.filterMap_append, hend,
    List.append_nil, filterMap_targetLine h]
  split
  · rw [List.filterMap_cons_none hunused, List.filterMap_nil, List.append_nil]
  · rw [List.filterMap_nil, List.append_nil]

theorem mem_unusedLine :
    unusedLine ∈ frontLines ts mode runtime ++ registerLines ts runtime ↔
      ts.all Target.isGeneric = true := by
  have hfront : unusedLine ∉ frontLines ts mode runtime := fun hmem =>
    (outside_frontLines ts mode runtime _ hmem).unused rfl
  have hhead : unusedLine ≠ registerHead runtime := fun h => by
    have hp : (registerHead runtime).toList.head? = some 'p' := by unfold registerHead; simp
    rw [← h] at hp
    simp [unusedLine] at hp
  have htargets : unusedLine ∉ ts.map targetLine := fun hmem => by
    obtain ⟨t, -, ht⟩ := List.mem_map.1 hmem
    exact targetLine_ne_unusedLine t ht
  have hend : unusedLine ∉ ["\x7d", ""] := by decide
  rw [registerLines, insideLines, List.mem_append, List.mem_cons, List.mem_append, List.mem_append]
  simp only [hfront, hhead, htargets, hend, false_or, or_false]
  split <;> simp_all

theorem registerInside_lines (ts : List Target) (mode : Mode) (runtime : String) :
    registerInside (frontLines ts mode runtime ++ registerLines ts runtime) = insideLines ts := by
  have hhead : startsRegister (registerHead runtime) = true := by
    rw [startsRegister, List.isPrefixOf_iff_prefix]
    unfold registerHead
    simp
  refine registerInside_append (fun l hl => (outside_frontLines ts mode runtime l hl).register)
    hhead fun l hl hbrace => ?_
  have hblank := head?_insideLines l hl
  rw [hbrace] at hblank
  simp at hblank

theorem forall₂_blocks_lines (ts : List Target) (mode : Mode) (runtime : String) :
    List.Forall₂ (fun t b => Names t b.1 ∧ "        " ++ body t mode runtime ∈ b.2) ts
      (blocks (frontLines ts mode runtime ++ registerLines ts runtime)) := by
  have hfront : ∀ l ∈ ["// " ++ mode.name, notice], startsImpl l = false := by
    simp only [List.mem_cons, List.not_mem_nil, or_false]
    rintro l (rfl | rfl) <;> exact startsImpl_of_head (by simp [notice])
  have hrest : ∀ l ∈ ["", "#[allow(dead_code)]"] ++ registerLines ts runtime,
      startsImpl l = false := by
    simp only [registerLines, List.mem_append, List.mem_cons, List.not_mem_nil, or_false]
    rintro l ((rfl | rfl) | rfl | hl | rfl | rfl)
    · exact startsImpl_of_head (by simp)
    · exact startsImpl_of_head (by simp)
    · exact startsImpl_of_head (by unfold registerHead; simp)
    · exact startsImpl_of_head (by simp [head?_insideLines l hl])
    · exact startsImpl_of_head (by simp)
    · exact startsImpl_of_head (by simp)
  rw [frontLines, List.append_assoc, List.append_assoc, blocks_append hfront]
  exact forall₂_blocks ts mode runtime hrest

end Template

/-! ### What the calls leave in a table -/

/-- The table after some calls. `types` says which type a path means, and `functions` which function
of a type. -/
def Table.ofCalls {κ : Type} [TypeCode κ] [DecidableEq κ] (types : String → κ)
    (functions : String → (k : κ) → Live (TypeCode.El k) → String) (mode : Mode)
    (cs : List RegisterCall) : Table κ :=
  .ofRegistrations mode (cs.map fun c => ⟨types c.type, functions c.function (types c.type)⟩)

/-- What a reader finds on the lines of a file with the functions of some targets. -/
structure ReadsBack (ts : List Target) (mode : Mode) (runtime : String) (ls : List String) :
    Prop where
  impls : List.Forall₂ Template.Names ts (ls.filter startsImpl)
  /-- Each implementation is followed by its own body before the next one. -/
  bodies : List.Forall₂
    (fun t b => Template.Names t b.1 ∧ "        " ++ Template.body t mode runtime ∈ b.2) ts
    (blocks ls)
  calls : ls.filterMap RegisterCall.ofLine? = (ts.filter fun t => !t.isGeneric).map Template.call
  /-- A target with generic parameters has a comment where others have their call. -/
  inside : ∃ about, List.Forall₂ Template.IsAbout ts about ∧
    registerInside ls = about ++ if unusedLine ∈ ls then [unusedLine] else []
  unused : unusedLine ∈ ls ↔ ls.filterMap RegisterCall.ofLine? = []
  table : ∀ {κ : Type} [TypeCode κ] [DecidableEq κ] (types : String → κ)
    (functions : String → (k : κ) → Live (TypeCode.El k) → String) (tableMode : Mode) (k : κ),
    (Table.ofCalls types functions tableMode (ls.filterMap RegisterCall.ofLine?)).contains k =
      true ↔ ∃ t ∈ ts, t.isGeneric = false ∧ types t.receiver = k

theorem Table.contains_ofCalls {κ : Type} [TypeCode κ] [DecidableEq κ] (types : String → κ)
    (functions : String → (k : κ) → Live (TypeCode.El k) → String) (mode : Mode)
    (cs : List RegisterCall) (k : κ) :
    (ofCalls types functions mode cs).contains k = true ↔ ∃ c ∈ cs, types c.type = k := by
  rw [ofCalls, contains_iff, (keeps_of_registrations mode _).mem_codes]
  simp

/-- Whatever targets a file is made of, its lines tell them in order: an implementation for each with
its body, and a call or a comment for each in the function that registers. Only the path of the
runtime crate and the texts of the generic parameters have to be on one line. -/
theorem readsBack_of_sanitizations (mode : Mode) {runtime : String} (hr : OneLine runtime)
    {ts : List Target} (h : ∀ t ∈ ts, ∃ d : Tagged, d.resolve = .ok t)
    (ht : ∀ t ∈ ts, t.OnOneLine) :
    ReadsBack ts mode runtime (lines (Template.sanitizations ts mode runtime)) := by
  have hw : ∀ t ∈ ts, t.Written := fun t hmem => by
    obtain ⟨d, hd⟩ := h t hmem
    exact d.written_of_resolve hd (ht t hmem)
  have hbodies := Template.forall₂_blocks_lines ts mode runtime
  have hcalls : (Template.frontLines ts mode runtime ++
      Template.registerLines ts runtime).filterMap RegisterCall.ofLine? =
        (ts.filter fun t => !t.isGeneric).map Template.call := Template.filterMap_lines hw
  have hunused : unusedLine ∈ Template.frontLines ts mode runtime ++
      Template.registerLines ts runtime ↔ ts.all Target.isGeneric = true :=
    Template.mem_unusedLine
  rw [Template.lines_sanitizations hw hr]
  refine ⟨?_, hbodies, hcalls, ⟨ts.map Template.targetLine, ?_, ?_⟩, ?_, ?_⟩
  · rw [← map_fst_blocks, List.forall₂_map_right_iff]
    exact hbodies.imp fun _ _ hb => hb.1
  · rw [List.forall₂_map_right_iff, List.forall₂_same]
    exact fun t hmem => Template.isAbout_targetLine (hw t hmem)
  · rw [Template.registerInside_lines, Template.insideLines]
    simp only [hunused]
  · rw [hunused, hcalls]
    simp
  · intro κ _ _ types functions tableMode k
    rw [Table.contains_ofCalls, hcalls]
    simp [Template.call, and_assoc]

namespace Demo.Ledger

/-- `struct Entry<V> { amount: V }` in the module `ledger`. -/
def entry : Tagged where
  ns := ⟨[.plain "ledger"]⟩
  item := ⟨[], .plain "Entry", { params := [⟨.type [] (.plain "V") [], false⟩] },
    .struct (.named [(.plain "amount", ⟨[], .path false [.bare (.plain "V")]⟩)])⟩
  file := ⟨"src/ledger.rs"⟩

/-- `struct Total(i64);`. -/
def total : Tagged where
  ns := .root
  item := ⟨[], .plain "Total", {}, .struct (.tuple [⟨[], .path false [.bare (.plain "i64")]⟩])⟩
  file := ⟨"src/lib.rs"⟩

def entryTarget : Target where
  path := "ledger::Entry"
  fields := [⟨"amount", "amount", .display, some "V"⟩]
  generics := { params := "< V >", args := "< V >" }

def totalTarget : Target where
  path := "Total"
  fields := [.ofLabel "0"]

theorem resolve_total : total.resolve = .ok totalTarget := rfl

theorem resolve_entry : entry.resolve = .ok entryTarget := rfl

theorem onOneLine_total : totalTarget.OnOneLine :=
  ⟨by decide, by decide, by decide, by decide⟩

theorem onOneLine_entry : entryTarget.OnOneLine :=
  ⟨by decide, by decide, by decide, by decide⟩

/-- Of two targets, the one with a type parameter is left to be registered by hand. -/
theorem readsBack_of_sanitizations_ledger :
    OneLine "::mrclean" ∧ entry.resolve = .ok entryTarget ∧ total.resolve = .ok totalTarget ∧
    entryTarget.OnOneLine ∧ totalTarget.OnOneLine ∧
    ReadsBack [entryTarget, totalTarget] .debug "::mrclean"
      (lines (Template.sanitizations [entryTarget, totalTarget] .debug "::mrclean")) :=
  ⟨by decide, resolve_entry, resolve_total, onOneLine_entry, onOneLine_total,
    readsBack_of_sanitizations .debug (by decide)
      (List.forall_mem_cons.2 ⟨⟨entry, resolve_entry⟩, List.forall_mem_singleton.2
        ⟨total, resolve_total⟩⟩)
      (List.forall_mem_cons.2 ⟨onOneLine_entry, List.forall_mem_singleton.2 onOneLine_total⟩)⟩

/-- The lines of a file in which the head of the function that registers takes two. -/
theorem lines_broken : lines (Template.sanitizations [totalTarget] .debug "::\nimpl_rt") =
    Template.frontLines [totalTarget] .debug "::mrclean" ++
      "pub(crate) fn register_sanitizations(table: &mut ::" ::
        "impl_rt::SanitizerTable) \x7b" :: (Template.insideLines [totalTarget] ++ ["\x7d", ""]) := by
  have hfront : Template.frontLines [totalTarget] .debug "::\nimpl_rt" =
    Template.frontLines [totalTarget] .debug "::mrclean" := rfl
  have hhead : Template.registerHead "::\nimpl_rt" =
      "pub(crate) fn register_sanitizations(table: &mut ::" ++ "\n" ++
        "impl_rt::SanitizerTable) \x7b" := rfl
  have hone : ∀ l ∈ Template.frontLines [totalTarget] .debug "::mrclean" ++
      Template.registerHead "::mrclean" :: (Template.insideLines [totalTarget] ++ ["\x7d"]),
      OneLine l :=
    Template.oneLine_lines
      (List.forall_mem_singleton.2 (total.written_of_resolve resolve_total onOneLine_total))
      (by decide)
  rw [List.forall_mem_append, List.forall_mem_cons] at hone
  have hbroken (a b : String) (ls : List String) :
      ofLines ((a ++ "\n" ++ b) :: ls) = ofLines (a :: b :: ls) := by
    simp [String.append_assoc]
  rw [Template.sanitizations_eq_ofLines, hfront, hhead, ofLines_append, hbroken, ← ofLines_append,
    lines_ofLines]
  · simp
  · rw [List.forall_mem_append, List.forall_mem_cons, List.forall_mem_cons]
    exact ⟨hone.1, by decide, by decide, hone.2.2⟩

/-- A path of the runtime crate that goes on on a second line makes a line of its own. -/
theorem not_readsBack_broken_runtime :
    total.resolve = .ok totalTarget ∧ totalTarget.OnOneLine ∧
    ¬ReadsBack [totalTarget] .debug "::\nimpl_rt"
      (lines (Template.sanitizations [totalTarget] .debug "::\nimpl_rt")) := by
  refine ⟨resolve_total, onOneLine_total, fun h => ?_⟩
  have htwo : ((lines (Template.sanitizations [totalTarget] .debug "::\nimpl_rt")).filter
      startsImpl).length = 2 := by
    rw [lines_broken]
    decide +kernel
  have hone := h.impls.length_eq
  rw [htwo] at hone
  cases hone

end Demo.Ledger

end SanitizeGen
