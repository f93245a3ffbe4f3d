import SanitizeGen.Proofs.ChildPaths
import SanitizeGen.Proofs.WordText

/-!
# Components of paths

Paths are told apart by their `components`: empty parts count at the start of an absolute path only,
and single dots at the start of a relative one. Joining appends components (`components_join`), and
`directory` drops the last one (`components_directory`), so it undoes `child`
(`IsComponent.components_directory_child`).
-/

namespace SanitizeGen.FilePath

/-- Whether a part of a path leads anywhere, wherever it stands. -/
def isPart (piece : List Char) : Bool := !isVoid false piece

/-- The first of some parts as it is, and those after it that lead anywhere. -/
def normal (ps : List (List Char)) : List (List Char) := ps.take 1 ++ (ps.drop 1).filter isPart

/-- The parts by which a path is told from others. -/
def components (p : FilePath) : List (List Char) :=
  if p.text.isEmpty then [] else normal p.pieces

/-- The parts of a path that lead anywhere. -/
def parts (p : FilePath) : List (List Char) := p.pieces.filter isPart

theorem normal_append {ps qs : List (List Char)} (h : ps ≠ []) :
    normal (ps ++ qs) = normal ps ++ qs.filter isPart := by
  obtain ⟨p, ps, rfl⟩ := List.exists_cons_of_ne_nil h
  simp [normal]

theorem normal_ne_nil {ps : List (List Char)} (h : ps ≠ []) : normal ps ≠ [] := by
  obtain ⟨p, ps, rfl⟩ := List.exists_cons_of_ne_nil h
  simp [normal]

theorem filter_normal (ps : List (List Char)) : (normal ps).filter isPart = ps.filter isPart := by
  rcases ps with _ | ⟨p, ps⟩
  · rfl
  · simp [normal, List.filter_cons]

variable {p q : FilePath}

theorem pieces_ne_nil (p : FilePath) : p.pieces ≠ [] := splitSlash_ne_nil _

theorem pieces_of_isEmpty (h : p.text.isEmpty = true) : p.pieces = [[]] := by
  obtain rfl : p = ⟨""⟩ := by
    cases p
    simpa using h
  rfl

theorem components_eq_nil : p.components = [] ↔ p.text.isEmpty = true := by
  rw [components]
  split
  · simp [*]
  · simp [*, normal_ne_nil p.pieces_ne_nil]

theorem filter_components (p : FilePath) : p.components.filter isPart = p.parts := by
  rw [components, parts]
  split
  · rename_i h
    rw [pieces_of_isEmpty h]
    rfl
  · exact filter_normal _

/-! ### Joined paths -/

theorem join_of_isEmpty (h : p.text.isEmpty = true) : p.join q = q := by
  obtain rfl : p = ⟨""⟩ := by
    cases p
    simpa using h
  rw [join]
  split
  · rfl
  · simp

/-- What follows a path that is not empty is appended to its pieces. -/
theorem exists_pieces_join (hp : ¬p.text.isEmpty = true) (hq : q.isAbsolute = false) :
    ∃ ps ends, ps ≠ [] ∧ ends.filter isPart = [] ∧ p.pieces = ps ++ ends ∧
      (p.join q).pieces = ps ++ q.pieces := by
  rw [join, if_neg (by simp [hq])]
  by_cases hend : p.text.toList.getLast? = some '/'
  · obtain ⟨t, ht⟩ := List.getLast?_eq_some_iff.1 hend
    refine ⟨splitSlash t, [[]], splitSlash_ne_nil t, rfl, ?_, ?_⟩
    · rw [pieces, ht, splitSlash_append]
      rfl
    · rw [if_pos (by simp [hend]), pieces, String.toList_append, ht, List.append_assoc,
        List.singleton_append, splitSlash_append, pieces]
  · refine ⟨p.pieces, [], p.pieces_ne_nil, rfl, (List.append_nil _).symm, ?_⟩
    rw [if_neg (by simp_all), pieces, String.toList_append, String.toList_append,
      List.append_assoc]
    exact splitSlash_append _ _

theorem components_join (hp : ¬p.text.isEmpty = true) (hq : q.isAbsolute = false) :
    (p.join q).components = p.components ++ q.parts := by
  obtain ⟨ps, ends, hps, hends, hpieces, hjoin⟩ := exists_pieces_join hp hq
  have hne : ¬(p.join q).text.isEmpty = true := by
    rw [join, if_neg (by simp [hq])]
    split <;> simp_all
  rw [components, if_neg hne, hjoin, normal_append hps, components, if_neg hp, hpieces,
    normal_append hps, hends, List.append_nil, parts]

theorem parts_join (hq : q.isAbsolute = false) : (p.join q).parts = p.parts ++ q.parts := by
  by_cases hp : p.text.isEmpty = true
  · rw [join_of_isEmpty hp, parts, parts, pieces_of_isEmpty hp]
    rfl
  · obtain ⟨ps, ends, -, hends, hpieces, hjoin⟩ := exists_pieces_join hp hq
    rw [parts, hjoin, List.filter_append, parts, hpieces, List.filter_append, hends,
      List.append_nil, parts]

theorem join_of_isAbsolute (hq : q.isAbsolute = true) : p.join q = q := by rw [join, if_pos hq]

theorem child_of_isAbsolute {name : String} (h : FilePath.isAbsolute ⟨name⟩ = true) :
    p.child name = ⟨name⟩ :=
  join_of_isAbsolute h

/-- Paths that are not told apart stay so when they are continued. -/
theorem components_join_congr {p' : FilePath} (h : p.components = p'.components) (q : FilePath) :
    (p.join q).components = (p'.join q).components := by
  by_cases hq : q.isAbsolute = true
  · rw [join_of_isAbsolute hq, join_of_isAbsolute hq]
  · have hq : q.isAbsolute = false := by simpa using hq
    by_cases hp : p.text.isEmpty = true
    · have hp' : p'.text.isEmpty = true := components_eq_nil.1 (h ▸ components_eq_nil.2 hp)
      rw [join_of_isEmpty hp, join_of_isEmpty hp']
    · have hp' : ¬p'.text.isEmpty = true := fun hp' =>
        hp (components_eq_nil.1 (h ▸ components_eq_nil.2 hp'))
      rw [components_join hp hq, components_join hp' hq, h]

theorem length_parts_child_of_relative {p' : FilePath} {name : String}
    (h : FilePath.isAbsolute ⟨name⟩ = false) (hlen : p.parts.length = p'.parts.length + 1) :
    (p.child name).parts.length = (p'.child name).parts.length + 1 := by
  rw [child, child, parts_join h, parts_join h, List.length_append, List.length_append]
  omega

theorem components_child_congr {p' : FilePath} (h : p.components = p'.components) (name : String) :
    (p.child name).components = (p'.child name).components :=
  components_join_congr h ⟨name⟩

/-! ### Directories -/

theorem isAbsolute_iff : p.isAbsolute = true ↔ ∃ ps, ps ≠ [] ∧ p.pieces = [] :: ps := by
  rw [isAbsolute, pieces, beq_iff_eq]
  rcases p.text.toList with _ | ⟨c, r⟩
  · simp [splitSlash]
  · by_cases hc : c = '/'
    · subst hc
      simp [splitSlash, splitSlash_ne_nil]
    · rw [splitSlash.eq_3 _ _ hc]
      rcases hs : splitSlash r with _ | ⟨s, ss⟩ <;> simp [hc]

/-- Parts without a slash are the pieces of what they are joined to. -/
theorem splitSlash_joinSlash {ps : List (List Char)} (hne : ps ≠ []) (h : ∀ q ∈ ps, '/' ∉ q) :
    splitSlash (joinSlash ps) = ps := by
  induction ps with
  | nil => exact absurd rfl hne
  | cons q qs ih =>
    obtain ⟨hq, hqs⟩ := List.forall_mem_cons.1 h
    rcases qs with _ | ⟨r, rs⟩
    · exact splitSlash_of_not_mem hq
    · rw [joinSlash, splitSlash_append, ih (by simp) hqs, splitSlash_of_not_mem hq]
      rfl

theorem not_mem_of_mem_splitSlash {s q : List Char} (h : q ∈ splitSlash s) : '/' ∉ q := by
  induction s generalizing q with
  | nil =>
    obtain rfl := List.mem_singleton.1 h
    exact List.not_mem_nil
  | cons c s ih =>
    by_cases hc : c = '/'
    · subst hc
      rcases List.mem_cons.1 h with rfl | h
      · exact List.not_mem_nil
      · exact ih h
    · rw [splitSlash.eq_3 _ _ hc] at h
      rcases hs : splitSlash s with _ | ⟨r, rs⟩
      · exact absurd hs (splitSlash_ne_nil s)
      · rw [hs] at h ih
        rcases List.mem_cons.1 h with rfl | h
        · simpa [Ne.symm hc] using ih List.mem_cons_self
        · exact ih (List.mem_cons_of_mem _ h)

/-- Void parts at the end do not count. -/
theorem normal_dropVoid {ps : List (List Char)} (h : dropVoid ps ≠ []) :
    normal (dropVoid ps).reverse = normal ps.reverse := by
  induction ps with
  | nil => rfl
  | cons q qs ih =>
    rw [dropVoid] at h ⊢
    split at h
    · rename_i hvoid
      have hqs : qs ≠ [] := by
        rintro rfl
        exact h rfl
      have hpart : isPart q = false := by
        rwa [isPart, Bool.not_eq_false', ← List.isEmpty_eq_false_iff.2 hqs]
      rw [if_pos hvoid, ih h, List.reverse_cons, normal_append (by simpa using hqs)]
      simp [hpart]
    · rename_i hvoid
      rw [if_neg hvoid]

/-- Only the start of an absolute path is left if all parts are void. -/
theorem normal_of_dropVoid_eq_nil {ps : List (List Char)} (hne : ps ≠ []) (h : dropVoid ps = []) :
    normal ps.reverse = [[]] := by
  induction ps with
  | nil => exact absurd rfl hne
  | cons q qs ih =>
    rw [dropVoid] at h
    split at h
    · rename_i hvoid
      rcases qs with _ | ⟨r, rs⟩
      · simp_all [isVoid, normal]
      · have hpart : isPart q = false := by
          rw [isPart, Bool.not_eq_false']
          simpa using hvoid
        rw [List.reverse_cons, normal_append (by simp), ih (by simp) h]
        simp [hpart]
    · cases h

theorem isVoid_of_dropVoid {ps qs : List (List Char)} {q : List Char} (h : dropVoid ps = q :: qs) :
    isVoid qs.isEmpty q = false := by
  induction ps with
  | nil => cases h
  | cons r rs ih =>
    rw [dropVoid] at h
    split at h
    · exact ih h
    · rename_i hvoid
      obtain ⟨rfl, rfl⟩ := List.cons.inj h
      simpa using hvoid

theorem dropVoid_suffix (ps : List (List Char)) : dropVoid ps <:+ ps := by
  induction ps with
  | nil => exact List.suffix_rfl
  | cons q qs ih =>
    rw [dropVoid]
    split
    · exact ih.trans (List.suffix_cons q qs)
    · exact List.suffix_rfl

theorem components_ofList_joinSlash {ps : List (List Char)} (hne : ps ≠ []) (hempty : ps ≠ [[]])
    (h : ∀ q ∈ ps, '/' ∉ q) : components ⟨String.ofList (joinSlash ps)⟩ = normal ps := by
  have hpieces : (⟨String.ofList (joinSlash ps)⟩ : FilePath).pieces = ps := by
    rw [pieces, String.toList_ofList, splitSlash_joinSlash hne h]
  rw [components, if_neg, hpieces]
  intro he
  rw [pieces_of_isEmpty he] at hpieces
  exact hempty hpieces.symm

section

variable {last : List Char} {before : List (List Char)}

theorem exists_pieces_eq (h : dropVoid p.pieces.reverse = last :: before) :
    ∃ ends, p.pieces = before.reverse ++ last :: ends := by
  obtain ⟨r, hr⟩ := h ▸ dropVoid_suffix p.pieces.reverse
  refine ⟨r.reverse, ?_⟩
  rw [← p.pieces.reverse_reverse, ← hr]
  simp

theorem components_of_dropVoid (h : dropVoid p.pieces.reverse = last :: before) :
    p.components = normal (before.reverse ++ [last]) := by
  have hne : ¬p.text.isEmpty = true := fun he => by
    rw [pieces_of_isEmpty he] at h
    cases h
  rw [components, if_neg hne, ← p.pieces.reverse_reverse, ← normal_dropVoid (by simp [h]), h,
    List.reverse_cons]

theorem directory_of_dropVoid (h : dropVoid p.pieces.reverse = last :: before) :
    p.directory = if (dropVoid before).isEmpty && p.isAbsolute then ⟨"/"⟩
      else ⟨String.ofList (joinSlash (dropVoid before).reverse)⟩ := by
  rw [directory, parent]
  simp only [h]
  split <;> rfl

end

theorem directory_of_dropVoid_eq_nil (h : dropVoid p.pieces.reverse = []) : p.directory = ⟨""⟩ := by
  rw [directory, parent]
  simp only [h]
  rfl

/-- The directory of a path has its components without the last one. -/
theorem components_directory (p : FilePath) : p.directory.components = p.components.dropLast := by
  rcases hdrop : dropVoid p.pieces.reverse with _ | ⟨last, before⟩
  · rw [directory_of_dropVoid_eq_nil hdrop, components_eq_nil.2 rfl, components]
    split
    · rfl
    · rw [← p.pieces.reverse_reverse,
        normal_of_dropVoid_eq_nil (by simpa using p.pieces_ne_nil) hdrop]
      rfl
  have hvoid := isVoid_of_dropVoid hdrop
  obtain ⟨ends, hpieces⟩ := exists_pieces_eq hdrop
  rw [components_of_dropVoid hdrop, directory_of_dropVoid hdrop]
  by_cases hbefore : before = []
  · -- the last component is the only one, and starts no absolute path
    subst hbefore
    have habs : ¬p.isAbsolute = true := by
      intro h
      obtain ⟨ps, -, hps⟩ := isAbsolute_iff.1 h
      obtain ⟨rfl, -⟩ := List.cons.inj (hpieces.symm.trans hps)
      simp [isVoid] at hvoid
    rw [if_neg (by simp [habs])]
    rfl
  have hpart : isPart last = true := by
    rw [List.isEmpty_eq_false_iff.2 hbefore] at hvoid
    simpa [isPart] using hvoid
  have hlast : (normal (before.reverse ++ [last])).dropLast = normal before.reverse := by
    rw [normal_append (by simpa using hbefore)]
    simp [hpart]
  rw [hlast]
  rcases hkept : dropVoid before with _ | ⟨q, qs⟩
  · -- only the start of an absolute path is in front of the last component
    have hnormal := normal_of_dropVoid_eq_nil hbefore hkept
    have habs : p.isAbsolute = true := by
      obtain ⟨first, rest, hfirst⟩ := List.exists_cons_of_ne_nil (List.reverse_ne_nil_iff.2 hbefore)
      obtain rfl : first = [] := by
        rw [hfirst] at hnormal
        exact (List.cons.inj hnormal).1
      exact isAbsolute_iff.2 ⟨rest ++ last :: ends, by simp, by rw [hpieces, hfirst]; rfl⟩
    rw [if_pos (by simp [habs]), hnormal]
    rfl
  · have hslash : ∀ r ∈ (q :: qs).reverse, '/' ∉ r := by
      intro r hr
      have hmem : r ∈ before := (hkept ▸ dropVoid_suffix before).subset (List.mem_reverse.1 hr)
      exact not_mem_of_mem_splitSlash (show r ∈ p.pieces from hpieces ▸ by simp [hmem])
    have hempty : (q :: qs).reverse ≠ [[]] := by
      intro h
      obtain ⟨rfl, rfl⟩ : q = [] ∧ qs = [] := by
        rw [List.reverse_eq_iff] at h
        simpa using h
      have hq := isVoid_of_dropVoid hkept
      simp [isVoid] at hq
    rw [if_neg (by simp), components_ofList_joinSlash (by simp) hempty hslash, ← hkept,
      normal_dropVoid (by simp [hkept])]

/-! ### Children by one component -/

/-- A text that is one component wherever it is put behind a path. -/
structure IsComponent (name : String) : Prop where
  noSlash : '/' ∉ name.toList
  isPart : isPart name.toList = true

theorem IsName.isComponent {name : String} (h : IsName name) : IsComponent name where
  noSlash := h.noSlash
  isPart := by simp [FilePath.isPart, isVoid, h.ne_nil, h.ne_dot]

namespace IsComponent

variable {name : String} (h : IsComponent name)

include h

theorem pieces_eq : (⟨name⟩ : FilePath).pieces = [name.toList] := splitSlash_of_not_mem h.noSlash

theorem isAbsolute_eq_false : (⟨name⟩ : FilePath).isAbsolute = false := by
  refine Bool.eq_false_iff.2 fun habs => ?_
  obtain ⟨ps, hps, hpieces⟩ := isAbsolute_iff.1 habs
  exact hps (List.cons.inj (hpieces.symm.trans h.pieces_eq)).2

theorem parts_eq : (⟨name⟩ : FilePath).parts = [name.toList] := by
  rw [parts, h.pieces_eq, List.filter_cons_of_pos h.isPart, List.filter_nil]

theorem length_parts_child (p : FilePath) :
    (p.child name).parts.length = p.parts.length + 1 := by
  rw [child, parts_join h.isAbsolute_eq_false, h.parts_eq, List.length_append]
  rfl

theorem components_child (p : FilePath) :
    (p.child name).components = p.components ++ [name.toList] := by
  by_cases hp : p.text.isEmpty = true
  · have hne : ¬(⟨name⟩ : FilePath).text.isEmpty = true := by
      intro he
      have hpart := h.isPart
      obtain rfl : name = "" := by simpa using he
      cases hpart
    rw [child, join_of_isEmpty hp, components_eq_nil.2 hp, components, if_neg hne, h.pieces_eq]
    rfl
  · rw [child, components_join hp h.isAbsolute_eq_false, h.parts_eq]

/-- The directory of a file is the one that it was put into. -/
theorem components_directory_child (p : FilePath) :
    (p.child name).directory.components = p.components := by
  rw [components_directory, h.components_child, List.dropLast_concat]

end IsComponent

end SanitizeGen.FilePath

/-! ### Names of modules -/

namespace SanitizeGen.Ident

open FilePath Text

variable (i : Ident)

theorem not_mem_name {c : Char} (hc : isIdentContinue c = false) : c ∉ i.name.toList :=
  fun h => ne_of_isIdentContinue (isIdentContinue_of_mem_name h) hc rfl

theorem isPart_name_append (s : List Char) : isPart (i.name.toList ++ s) = true := by
  obtain ⟨c, r, hn, hc, -⟩ := i.exists_name_eq_cons
  have hdot : c ≠ '.' := ne_of_isIdentContinue (isIdentContinue_of_start hc) rfl
  simp [isPart, isVoid, hn, hdot]

theorem isComponent_name : IsComponent i.name where
  noSlash := i.not_mem_name rfl
  isPart := by simpa using i.isPart_name_append []

theorem isComponent_rs : IsComponent (i.name ++ ".rs") where
  noSlash := by
    rw [String.toList_append, List.mem_append, not_or]
    exact ⟨i.not_mem_name rfl, by decide⟩
  isPart := by
    rw [String.toList_append]
    exact i.isPart_name_append _

end SanitizeGen.Ident
