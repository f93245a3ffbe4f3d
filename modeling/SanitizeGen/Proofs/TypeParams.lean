import Mathlib.Logic.Relation
import SanitizeGen.Tag.Resolve

/-!
# Types that depend on type parameters

A type depends on a type parameter if the parameter is named at a place that is reached through the
parts that hold values (`TypeExpr.DependsOn`). The test that decides about bounds says just that
(`mentions_iff`), and a type that depends on a parameter has the parameter's identifier among its
tokens (`exists_occurs_of_dependsOn`).
-/

namespace SanitizeGen

namespace TypeExpr

def segments : TypeExpr → List Segment
  | path _ segments => segments
  | qualified _ _ base rest => base ++ rest
  | _ => []

/-- The type `u` is a part of `t` that counts for its values. An argument of `PhantomData` is
none. -/
inductive Holds : TypeExpr → TypeExpr → Prop where
  | argument {t name turbofish args u comma} : .angled name turbofish args ∈ t.segments →
      name.text ≠ "PhantomData" → .type u comma ∈ args → Holds t u
  | self {u leading base rest} : Holds (.qualified u leading base rest) u
  | reference {lifetime isMut u} : Holds (.reference lifetime isMut u) u
  | pointer {isMut u} : Holds (.pointer isMut u) u
  | slice {u} : Holds (.slice u) u
  | array {u length} : Holds (.array u length) u
  | paren {u} : Holds (.paren u) u
  | tuple {us trailing u} : u ∈ us → Holds (.tuple us trailing) u

/-- The type is a path that names one of the parameters `params`, as its only segment or as the
first of more. Behind a qualified type only a path of one segment can. -/
inductive Names (params : List String) : TypeExpr → Prop where
  | path {leading s more} : s.name.text ∈ params → Names params (.path leading (s :: more))
  | qualified {self leading base rest s} : base ++ rest = [s] → s.name.text ∈ params →
      Names params (.qualified self leading base rest)

/-- The type or a part of it names one of the parameters `params`. -/
def DependsOn (params : List String) (t : TypeExpr) : Prop :=
  ∃ u, Relation.ReflTransGen Holds t u ∧ Names params u

end TypeExpr

/-! ### The test for type parameters -/

variable {params : List String} {alone : Bool} {t u : TypeExpr}

theorem anyMentions_types_iff {ts : List TypeExpr} :
    TypeExpr.anyMentions params ts = true ↔ ∃ t ∈ ts, t.mentions params = true := by
  induction ts with
  | nil => simp [TypeExpr.anyMentions]
  | cons t ts ih => simp [TypeExpr.anyMentions, ih]

theorem anyMentions_segments_iff {ss : List Segment} :
    Segment.anyMentions params alone ss = true ↔ ∃ s ∈ ss, s.mentions params alone = true := by
  induction ss with
  | nil => simp [Segment.anyMentions]
  | cons s ss ih => simp [Segment.anyMentions, ih]

theorem anyMentions_arguments_iff {args : List Argument} :
    Argument.anyMentions params args = true ↔
      ∃ u comma, .type u comma ∈ args ∧ u.mentions params = true := by
  induction args with
  | nil => simp [Argument.anyMentions]
  | cons a args ih =>
    rw [Argument.anyMentions, Bool.or_eq_true, ih]
    cases a with
    | type t comma =>
      simp only [Argument.mentions, List.mem_cons, Argument.type.injEq]
      constructor
      · rintro (h | ⟨u, comma', hu, h⟩)
        · exact ⟨t, comma, .inl ⟨rfl, rfl⟩, h⟩
        · exact ⟨u, comma', .inr hu, h⟩
      · rintro ⟨u, comma', ⟨rfl, -⟩ | hu, h⟩
        · exact .inl h
        · exact .inr ⟨u, comma', hu, h⟩
    | lifetime name comma => simp [Argument.mentions]
    | other ts comma => simp [Argument.mentions]

theorem Segment.mentions_iff (hparams : "PhantomData" ∉ params) {s : Segment} :
    s.mentions params alone = true ↔ (alone = true ∧ s.name.text ∈ params) ∨
      ∃ name turbofish args u comma, s = .angled name turbofish args ∧
        name.text ≠ "PhantomData" ∧ .type u comma ∈ args ∧ u.mentions params = true := by
  have hne {name : Ident} (h : name.text ∈ params) : name.text ≠ "PhantomData" :=
    fun hname => hparams (hname ▸ h)
  cases s with
  | bare name =>
    simp only [Segment.mentions, Segment.name, reduceCtorEq, false_and, exists_false, or_false,
      Bool.and_eq_true, bne_iff_ne, List.contains_iff_mem]
    exact ⟨fun h => ⟨h.1.2, h.2⟩, fun h => ⟨⟨hne h.2, h.1⟩, h.2⟩⟩
  | angled name turbofish args =>
    simp only [Segment.mentions, Segment.name, Bool.and_eq_true, Bool.or_eq_true, bne_iff_ne,
      List.contains_iff_mem, anyMentions_arguments_iff]
    constructor
    · rintro ⟨hname, h | ⟨u, comma, hu, h⟩⟩
      · exact .inl h
      · exact .inr ⟨name, turbofish, args, u, comma, rfl, hname, hu, h⟩
    · rintro (h | ⟨_, _, _, u, comma, heq, hname, hu, h⟩)
      · exact ⟨hne h.2, .inl h⟩
      · cases heq
        exact ⟨hname, .inr ⟨u, comma, hu, h⟩⟩

/-- The type `u` is an argument of one of the segments, and not of `PhantomData`. -/
def ArgumentOf (ss : List Segment) (u : TypeExpr) : Prop :=
  ∃ name turbofish args comma, .angled name turbofish args ∈ ss ∧ name.text ≠ "PhantomData" ∧
    .type u comma ∈ args

/-- A path counts by the names of its segments if they may be the whole path, and by its
arguments. -/
theorem anyMentions_iff (hparams : "PhantomData" ∉ params) {ss : List Segment} :
    Segment.anyMentions params alone ss = true ↔
      (alone = true ∧ ∃ s ∈ ss, s.name.text ∈ params) ∨
      ∃ u, ArgumentOf ss u ∧ u.mentions params = true := by
  simp only [anyMentions_segments_iff, Segment.mentions_iff hparams]
  constructor
  · rintro ⟨s, hs, ⟨halone, h⟩ | ⟨name, turbofish, args, u, comma, rfl, hname, hu, h⟩⟩
    · exact .inl ⟨halone, s, hs, h⟩
    · exact .inr ⟨u, ⟨name, turbofish, args, comma, hs, hname, hu⟩, h⟩
  · rintro (⟨halone, s, hs, h⟩ | ⟨u, ⟨name, turbofish, args, comma, hs, hname, hu⟩, h⟩)
    · exact ⟨s, hs, .inl ⟨halone, h⟩⟩
    · exact ⟨_, hs, .inr ⟨name, turbofish, args, u, comma, rfl, hname, hu, h⟩⟩

/-! ### One step of the test -/

theorem holds_path_iff {leading : Bool} {ss : List Segment} :
    (TypeExpr.path leading ss).Holds u ↔ ArgumentOf ss u := by
  constructor
  · rintro ⟨hs, hname, hu⟩
    exact ⟨_, _, _, _, hs, hname, hu⟩
  · rintro ⟨name, turbofish, args, comma, hs, hname, hu⟩
    exact .argument hs hname hu

theorem holds_qualified_iff {leading : Bool} {base rest : List Segment} :
    (TypeExpr.qualified t leading base rest).Holds u ↔ u = t ∨ ArgumentOf (base ++ rest) u := by
  constructor
  · rintro (⟨hs, hname, hu⟩ | _)
    · exact .inr ⟨_, _, _, _, hs, hname, hu⟩
    · exact .inl rfl
  · rintro (rfl | ⟨name, turbofish, args, comma, hs, hname, hu⟩)
    · exact .self
    · exact .argument hs hname hu

theorem mentions_path (hparams : "PhantomData" ∉ params) {leading : Bool} {ss : List Segment} :
    (TypeExpr.path leading ss).mentions params = true ↔
      (TypeExpr.path leading ss).Names params ∨
      ∃ u, ArgumentOf ss u ∧ u.mentions params = true := by
  have hmentions : (TypeExpr.path leading ss).mentions params =
      (Segment.anyMentions params (ss.length == 1) ss ||
        (1 < ss.length && (ss.head?.any fun s => params.contains s.name.text))) := by
    cases ss <;> rfl
  rw [hmentions, Bool.or_eq_true, anyMentions_iff hparams, or_right_comm]
  refine or_congr_left ⟨?_, ?_⟩
  -- a segment alone counts by its own test, the first of more by that of the path
  · rintro (⟨halone, s, hs, h⟩ | h)
    · obtain ⟨s', rfl⟩ := List.length_eq_one_iff.1 (beq_iff_eq.1 halone)
      obtain rfl := List.mem_singleton.1 hs
      exact .path h
    · cases ss with
      | nil => simp at h
      | cons s more =>
        exact .path (by simpa using (Bool.and_eq_true_iff.1 h).2)
  · rintro ⟨h⟩
    rename_i s more
    cases more with
    | nil => exact .inl ⟨rfl, s, List.mem_cons_self, h⟩
    | cons s' more => exact .inr (by simpa using h)

theorem mentions_qualified (hparams : "PhantomData" ∉ params) {leading : Bool}
    {base rest : List Segment} : (TypeExpr.qualified t leading base rest).mentions params = true ↔
      (TypeExpr.qualified t leading base rest).Names params ∨ t.mentions params = true ∨
      ∃ u, ArgumentOf (base ++ rest) u ∧ u.mentions params = true := by
  have happend : (Segment.anyMentions params (base.length + rest.length == 1) base ||
      Segment.anyMentions params (base.length + rest.length == 1) rest) =
      Segment.anyMentions params (base.length + rest.length == 1) (base ++ rest) := by
    rw [Bool.eq_iff_iff, Bool.or_eq_true]
    simp only [anyMentions_segments_iff, List.mem_append, or_and_right, exists_or]
  rw [TypeExpr.mentions, Bool.or_assoc, happend, Bool.or_eq_true, anyMentions_iff hparams,
    or_left_comm]
  refine or_congr_left ⟨?_, ?_⟩
  · rintro ⟨halone, s, hs, h⟩
    rw [beq_iff_eq, ← List.length_append] at halone
    obtain ⟨s', hall⟩ := List.length_eq_one_iff.1 halone
    rw [hall] at hs
    obtain rfl := List.mem_singleton.1 hs
    exact .qualified hall h
  · rintro (_ | ⟨hall, h⟩)
    rename_i s
    refine ⟨?_, s, hall ▸ List.mem_singleton_self s, h⟩
    rw [beq_iff_eq, ← List.length_append, hall]
    rfl

/-- The part of a type that is no path and has only one. -/
def TypeExpr.part? : TypeExpr → Option TypeExpr
  | reference _ _ target => some target
  | pointer _ target => some target
  | slice element => some element
  | array element _ => some element
  | paren inner => some inner
  | _ => none

theorem TypeExpr.segments_of_part (hpart : t.part? = some u) : t.segments = [] := by
  cases t <;> first | rfl | cases hpart

theorem TypeExpr.Holds.eq_part {v : TypeExpr} (h : t.Holds v) (hpart : t.part? = some u) :
    v = u := by
  cases h with
  | argument hs =>
    rw [segments_of_part hpart] at hs
    cases hs
  | self | tuple => cases hpart
  | reference | pointer | slice | array | paren => exact Option.some.inj hpart

theorem mentions_step_of_part (hpart : t.part? = some u) (hu : t.Holds u)
    (hmentions : t.mentions params = u.mentions params) (hnames : ¬t.Names params) :
    t.mentions params = true ↔ t.Names params ∨ ∃ v, t.Holds v ∧ v.mentions params = true := by
  have hholds (v : TypeExpr) : t.Holds v ↔ v = u := ⟨fun h => h.eq_part hpart, fun h => h ▸ hu⟩
  rw [hmentions, or_iff_right hnames]
  simp only [hholds, exists_eq_left]

/-- The test looks at the type itself and at the parts that it holds. -/
theorem mentions_step (hparams : "PhantomData" ∉ params) : t.mentions params = true ↔
    t.Names params ∨ ∃ u, t.Holds u ∧ u.mentions params = true := by
  cases t with
  | path leading ss =>
    rw [mentions_path hparams]
    simp only [holds_path_iff]
  | qualified self leading base rest =>
    rw [mentions_qualified hparams]
    simp only [holds_qualified_iff, or_and_right, exists_or, exists_eq_left]
  | reference lifetime isMut target => exact mentions_step_of_part rfl .reference rfl nofun
  | pointer isMut target => exact mentions_step_of_part rfl .pointer rfl nofun
  | slice element => exact mentions_step_of_part rfl .slice rfl nofun
  | array element length => exact mentions_step_of_part rfl .array rfl nofun
  | paren inner => exact mentions_step_of_part rfl .paren rfl nofun
  | tuple elements trailing =>
    rw [TypeExpr.mentions, anyMentions_types_iff, or_iff_right nofun]
    refine exists_congr fun u => and_congr_left fun _ => ⟨.tuple, ?_⟩
    rintro (⟨⟨⟩⟩ | _)
    assumption
  | other tokens =>
    rw [TypeExpr.mentions, or_iff_right nofun]
    refine iff_of_false Bool.false_ne_true ?_
    rintro ⟨u, ⟨⟨⟩⟩, -⟩

theorem sizeOf_lt_of_mem_segments {s : Segment} (h : s ∈ t.segments) : sizeOf s < sizeOf t := by
  cases t with
  | path leading ss =>
    have hs := List.sizeOf_lt_of_mem h
    simp only [TypeExpr.segments] at hs
    simp only [TypeExpr.path.sizeOf_spec]
    omega
  | qualified self leading base rest =>
    simp only [TypeExpr.qualified.sizeOf_spec]
    rcases List.mem_append.1 h with h | h
    · have hs := List.sizeOf_lt_of_mem h
      omega
    · have hs := List.sizeOf_lt_of_mem h
      omega
  | _ => cases h

theorem sizeOf_lt_of_holds (h : t.Holds u) : sizeOf u < sizeOf t := by
  cases h with
  | argument hs _ hu =>
    have hs := sizeOf_lt_of_mem_segments hs
    have hu := List.sizeOf_lt_of_mem hu
    simp only [Argument.type.sizeOf_spec] at hu
    simp only [Segment.angled.sizeOf_spec] at hs
    omega
  | tuple hu =>
    have hu := List.sizeOf_lt_of_mem hu
    simp only [TypeExpr.tuple.sizeOf_spec]
    omega
  | self =>
    simp only [TypeExpr.qualified.sizeOf_spec]
    omega
  | array =>
    simp only [TypeExpr.array.sizeOf_spec]
    omega
  | _ => simp

/-- The test says which types depend on a type parameter. -/
theorem mentions_iff (hparams : "PhantomData" ∉ params) :
    t.mentions params = true ↔ t.DependsOn params := by
  constructor
  · intro h
    -- the parts are in lists inside the type, so it is the size that gets smaller
    induction hn : sizeOf t using Nat.strongRecOn generalizing t with
    | _ n ih =>
      rcases (mentions_step hparams).1 h with hnames | ⟨u, hu, hmentions⟩
      · exact ⟨t, .refl, hnames⟩
      · obtain ⟨v, hv, hnames⟩ := ih _ (hn ▸ sizeOf_lt_of_holds hu) hmentions rfl
        exact ⟨v, .head hu hv, hnames⟩
  · rintro ⟨u, hu, hnames⟩
    induction hu using Relation.ReflTransGen.head_induction_on with
    | refl => exact (mentions_step hparams).2 (.inl hnames)
    | head hstep _ ih => exact (mentions_step hparams).2 (.inr ⟨_, hstep, ih⟩)

/-! ### Identifiers in a type -/

namespace Tokens

/-- The identifier stands somewhere among the tokens, perhaps between delimiters. -/
inductive Occurs (i : Ident) : Tokens → Prop where
  | here {ts} : .leaf (.word i) ∈ ts → Occurs i ts
  | inside {d own ts} : .group d own ∈ ts → Occurs i own → Occurs i ts

variable {i : Ident} {ts us : Tokens}

theorem Occurs.mono (h : Occurs i ts) (hsub : ts ⊆ us) : Occurs i us := by
  cases h with
  | here h => exact .here (hsub h)
  | inside h hown => exact .inside (hsub h) hown

theorem Occurs.group {d : Delimiter} (h : Occurs i ts) : Occurs i (Tokens.group d ts) :=
  .inside (List.mem_singleton_self _) h

theorem subset_joinSegments {ss : List Tokens} (h : ts ∈ ss) : ts ⊆ joinSegments ss := by
  induction ss with
  | nil => cases h
  | cons s ss ih =>
    cases ss with
    | nil => exact (List.mem_singleton.1 h) ▸ List.Subset.refl _
    | cons s' ss =>
      rw [joinSegments]
      rcases List.mem_cons.1 h with rfl | h
      · exact List.subset_append_of_subset_left _ (List.subset_append_left _ _)
      · exact List.subset_append_of_subset_right _ (ih h)

theorem subset_joinCommas {trailing : Bool} {ss : List Tokens} (h : ts ∈ ss) :
    ts ⊆ joinCommas trailing ss := by
  induction ss with
  | nil => cases h
  | cons s ss ih =>
    cases ss with
    | nil => exact (List.mem_singleton.1 h) ▸ List.subset_append_left _ _
    | cons s' ss =>
      rw [joinCommas]
      rcases List.mem_cons.1 h with rfl | h
      · exact List.subset_append_of_subset_left _ (List.subset_append_left _ _)
      · exact List.subset_append_of_subset_right _ (ih h)

theorem subset_arrange {args : List (Bool × Tokens × Bool)} {comma : Bool}
    (h : (false, ts, comma) ∈ args) : ts ⊆ Argument.arrange args := by
  have hgo {separated : Bool} {others : List (Bool × Tokens × Bool)}
      (h : (false, ts, comma) ∈ others) : ts ⊆ Argument.arrange.go separated others := by
    induction others generalizing separated with
    | nil => cases h
    | cons a others ih =>
      rw [Argument.arrange.go]
      rcases List.mem_cons.1 h with rfl | h
      · exact fun x hx => by simp [hx]
      · exact List.subset_append_of_subset_right _ (ih h)
  exact List.subset_append_of_subset_right _ (hgo (List.mem_filter.2 ⟨h, rfl⟩))

end Tokens

open Tokens

theorem TypeExpr.tokensAll_eq_map (ts : List TypeExpr) : tokensAll ts = ts.map tokens := by
  induction ts with
  | nil => rfl
  | cons t ts ih => rw [tokensAll, ih, List.map_cons]

theorem Segment.tokensAll_eq_map (ss : List Segment) : tokensAll ss = ss.map tokens := by
  induction ss with
  | nil => rfl
  | cons s ss ih => rw [tokensAll, ih, List.map_cons]

theorem Argument.tokensAll_eq_map (args : List Argument) : tokensAll args = args.map tokens := by
  induction args with
  | nil => rfl
  | cons a args ih => rw [tokensAll, ih, List.map_cons]

theorem subset_joinSegments_tokensAll {s : Segment} {ss : List Segment} (h : s ∈ ss) :
    s.tokens ⊆ joinSegments (Segment.tokensAll ss) := by
  rw [Segment.tokensAll_eq_map]
  exact subset_joinSegments (List.mem_map_of_mem h)

theorem subset_tokens_of_segment {s : Segment} (h : s ∈ t.segments) : s.tokens ⊆ t.tokens := by
  cases t with
  | path leading ss =>
    rw [TypeExpr.tokens]
    exact List.subset_append_of_subset_right _ (subset_joinSegments_tokensAll h)
  | qualified self leading base rest =>
    rw [TypeExpr.tokens]
    rcases List.mem_append.1 h with h | h
    · have hbase : base.isEmpty = false := List.isEmpty_eq_false_iff.2 (List.ne_nil_of_mem h)
      have hsub := subset_joinSegments_tokensAll h
      rw [hbase]
      exact fun x hx => by simp [hsub hx]
    · have hsub := subset_joinSegments_tokensAll h
      exact fun x hx => by simp [hsub hx]
  | _ => cases h

theorem occurs_name {s : Segment} : Occurs s.name s.tokens := by
  cases s with
  | bare name => exact .here List.mem_cons_self
  | angled name turbofish args => exact .here (by simp [Segment.tokens, Segment.name, Tokens.word])

theorem occurs_of_holds {i : Ident} (h : t.Holds u) (hi : Occurs i u.tokens) :
    Occurs i t.tokens := by
  cases h with
  | argument hs _ hu =>
    have hu := List.mem_map_of_mem (f := Argument.tokens) hu
    rw [Argument.tokens] at hu
    refine hi.mono (List.Subset.trans ?_ (subset_tokens_of_segment hs))
    rw [Segment.tokens, Argument.tokensAll_eq_map]
    have hsub := subset_arrange hu
    exact fun x hx => by simp [hsub hx]
  | self =>
    rw [TypeExpr.tokens]
    exact hi.mono fun x hx => by simp [hx]
  | reference =>
    rw [TypeExpr.tokens]
    exact hi.mono (List.subset_append_right _ _)
  | pointer =>
    rw [TypeExpr.tokens]
    exact hi.mono (List.subset_append_right _ _)
  | slice =>
    rw [TypeExpr.tokens]
    exact hi.group
  | array =>
    rw [TypeExpr.tokens]
    exact (hi.mono fun x hx => by simp [hx]).group
  | paren =>
    rw [TypeExpr.tokens]
    exact hi.group
  | tuple hu =>
    rw [TypeExpr.tokens, TypeExpr.tokensAll_eq_map]
    exact (hi.mono (subset_joinCommas (List.mem_map_of_mem hu))).group

theorem exists_occurs_of_names (h : t.Names params) :
    ∃ i : Ident, Occurs i t.tokens ∧ i.text ∈ params := by
  cases h with
  | path h =>
    exact ⟨_, occurs_name.mono (subset_tokens_of_segment List.mem_cons_self), h⟩
  | @qualified self leading base rest s hall h =>
    refine ⟨_, occurs_name.mono (subset_tokens_of_segment (s := s) ?_), h⟩
    rw [TypeExpr.segments, hall]
    exact List.mem_singleton_self s

/-- A type that depends on a parameter has its identifier. -/
theorem exists_occurs_of_dependsOn (h : t.DependsOn params) :
    ∃ i : Ident, Occurs i t.tokens ∧ i.text ∈ params := by
  obtain ⟨u, hu, hnames⟩ := h
  obtain ⟨i, hi, hparam⟩ := exists_occurs_of_names hnames
  refine ⟨i, ?_, hparam⟩
  induction hu using Relation.ReflTransGen.head_induction_on with
  | refl => exact hi
  | head hstep _ ih => exact occurs_of_holds hstep ih

end SanitizeGen
