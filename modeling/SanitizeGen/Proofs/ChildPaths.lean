import SanitizeGen.Files.FileTree

/-!
# Paths of files in a directory

The pieces of `p.child name` are those of `p` and the name (`pieces_child`). So files of one
directory have one parent (`parent_child`), and an extension changes the name alone
(`withExtension_child`).
-/

namespace SanitizeGen.FilePath

/-! ### Pieces -/

theorem splitSlash_ne_nil (s : List Char) : splitSlash s ≠ [] := by
  fun_cases splitSlash s <;> simp

theorem splitSlash_append (s t : List Char) :
    splitSlash (s ++ '/' :: t) = splitSlash s ++ splitSlash t := by
  induction s with
  | nil => rfl
  | cons c s ih =>
    by_cases hc : c = '/'
    · subst hc
      rw [List.cons_append, splitSlash, splitSlash, ih, List.cons_append]
    · rw [List.cons_append, splitSlash.eq_3 _ _ hc, splitSlash.eq_3 _ _ hc, ih]
      rcases hs : splitSlash s with _ | ⟨p, ps⟩
      · exact absurd hs (splitSlash_ne_nil s)
      · rfl

theorem splitSlash_of_not_mem {s : List Char} (h : '/' ∉ s) : splitSlash s = [s] := by
  induction s with
  | nil => rfl
  | cons c s ih =>
    have hc : c ≠ '/' := fun hc => h (hc ▸ List.mem_cons_self)
    rw [splitSlash.eq_3 _ _ hc, ih fun hs => h (List.mem_cons_of_mem _ hs)]

theorem joinSlash_cons_of_ne_nil (p : List Char) {ps : List (List Char)} (h : ps ≠ []) :
    joinSlash (p :: ps) = p ++ '/' :: joinSlash ps := by
  obtain ⟨q, qs, rfl⟩ := List.exists_cons_of_ne_nil h
  rfl

theorem joinSlash_splitSlash (s : List Char) : joinSlash (splitSlash s) = s := by
  induction s with
  | nil => rfl
  | cons c s ih =>
    by_cases hc : c = '/'
    · subst hc
      rw [splitSlash, joinSlash_cons_of_ne_nil _ (splitSlash_ne_nil s), ih, List.nil_append]
    · rw [splitSlash.eq_3 _ _ hc]
      rcases hs : splitSlash s with _ | ⟨p, _ | ⟨q, ps⟩⟩
      · exact absurd hs (splitSlash_ne_nil s)
      · rw [hs] at ih
        exact congrArg (c :: ·) ih
      · rw [hs] at ih
        exact congrArg (c :: ·) ih

theorem ofList_joinSlash_pieces (p : FilePath) : ⟨String.ofList (joinSlash p.pieces)⟩ = p := by
  rw [pieces, joinSlash_splitSlash, String.ofList_toList]

/-! ### Children -/

/-- A text that names a file: it has no slash, leads nowhere else, and file systems take it. -/
structure IsName (name : String) : Prop where
  noSlash : '/' ∉ name.toList
  ne_nil : name.toList ≠ []
  ne_dot : name.toList ≠ ['.']
  ne_dots : name.toList ≠ ['.', '.']
  fits : ¬FileTree.nameLimit < name.utf8ByteSize
  noNul : '\x00' ∉ name.toList

variable (p : FilePath) {name : String}

/-- Whether nothing separates the path from a name that is written behind it. -/
def endsOpen : Bool := p.text.isEmpty || p.text.toList.getLast? == some '/'

/-- The pieces of the path in front of a name in it. -/
def base : List (List Char) := if p.endsOpen then p.pieces.dropLast else p.pieces

/-- The directory that files in `p` have for their parent. -/
def folder : FilePath :=
  if (dropVoid p.base.reverse).isEmpty && p.isAbsolute then ⟨"/"⟩
  else ⟨String.ofList (joinSlash (dropVoid p.base.reverse).reverse)⟩

namespace IsName

variable (h : IsName name)

include h

theorem isAbsolute_eq_false : FilePath.isAbsolute ⟨name⟩ = false := by
  rw [isAbsolute]
  rcases hn : name.toList with _ | ⟨c, r⟩
  · rfl
  · have hc : c ≠ '/' := fun hc => h.noSlash (by simp [hn, hc])
    simp [hc]

theorem text_child :
    (p.child name).text = if p.endsOpen then p.text ++ name else p.text ++ "/" ++ name := by
  rw [child, join, if_neg (by simp [h.isAbsolute_eq_false]), endsOpen]
  split <;> rfl

theorem text_child_ne : (p.child name).text.isEmpty = false := by
  have hne : name ≠ "" := fun he => h.ne_nil (by simp [he])
  rw [h.text_child]
  split <;> simp [hne]

theorem pieces_child : (p.child name).pieces = p.base ++ [name.toList] := by
  have hname := splitSlash_of_not_mem h.noSlash
  rw [pieces, h.text_child, base]
  by_cases he : p.endsOpen
  · rw [if_pos he, if_pos he, String.toList_append, pieces]
    rw [endsOpen, Bool.or_eq_true, beq_iff_eq] at he
    rcases he with he | he
    · have ht : p.text.toList = [] := by simpa using he
      rw [ht, List.nil_append, hname]
      rfl
    · obtain ⟨t, ht⟩ := List.getLast?_eq_some_iff.1 he
      rw [ht, List.append_assoc, splitSlash_append t [], List.singleton_append, splitSlash_append,
        hname]
      simp [splitSlash]
  · rw [if_neg he, if_neg he, String.toList_append, String.toList_append, List.append_assoc]
    show splitSlash (p.text.toList ++ '/' :: name.toList) = _
    rw [splitSlash_append, hname, pieces]

theorem isAbsolute_child : (p.child name).isAbsolute = p.isAbsolute := by
  have hn := h.isAbsolute_eq_false
  rw [isAbsolute] at hn ⊢
  rw [h.text_child, isAbsolute]
  rcases hp : p.text.toList with _ | ⟨c, r⟩
  · have he : p.endsOpen = true := by
      have hp : p.text = "" := by simpa using hp
      simp [endsOpen, hp]
    rw [if_pos he, String.toList_append, hp]
    exact hn
  · split <;> simp [hp]

theorem dropVoid_child :
    dropVoid (p.child name).pieces.reverse = name.toList :: p.base.reverse := by
  rw [h.pieces_child, List.reverse_append, List.reverse_singleton, List.singleton_append,
    dropVoid, if_neg]
  simp [isVoid, h.ne_nil, h.ne_dot]

theorem parent_child : (p.child name).parent = some p.folder := by
  rw [parent]
  simp only [h.dropVoid_child, folder, h.isAbsolute_child]
  split <;> rfl

theorem directory_child : (p.child name).directory = p.folder := by
  rw [directory, h.parent_child, Option.getD_some]

/-- An extension takes the place of what follows the last dot of the name. -/
theorem withExtension_child {other : String} (ho : IsName other) (ext : String)
    (he : stem name.toList ++ '.' :: ext.toList = other.toList) :
    (p.child name).withExtension ext = p.child other := by
  rw [withExtension]
  simp only [h.dropVoid_child, he]
  rw [if_neg (by simp [h.ne_dot, h.ne_dots]), List.reverse_cons, List.reverse_reverse,
    ← ho.pieces_child, ofList_joinSlash_pieces]

end IsName

end SanitizeGen.FilePath
