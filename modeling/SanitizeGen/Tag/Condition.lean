import SanitizeGen.Source.Reader.Grammar

/-!
# Conditions of compilation

A `Condition` is what a `#[cfg(...)]` asks for. `Condition.eval` decides it for builds without
tests, as far as nothing but `test` matters. `isTestOnly` holds of items whose condition is false
there.
-/

namespace SanitizeGen

/-- A condition. What is no other form, such as the name of a feature, is `unknown`. -/
inductive Condition where
  | test
  | all (cs : List Condition)
  | any (cs : List Condition)
  | not (c : Condition)
  | unknown

namespace Condition

/-- The value of a conjunction. -/
def conj : List (Option Bool) → Option Bool
  | [] => some true
  | some false :: _ => some false
  | some true :: vs => conj vs
  | none :: vs => if conj vs = some false then some false else none

theorem conj_eq_true {vs : List (Option Bool)} : conj vs = some true ↔ ∀ v ∈ vs, v = some true := by
  fun_induction conj vs <;> simp_all

theorem conj_eq_false {vs : List (Option Bool)} : conj vs = some false ↔ some false ∈ vs := by
  fun_induction conj vs <;> simp_all

/-- The value of a disjunction. -/
def disj : List (Option Bool) → Option Bool
  | [] => some false
  | some true :: _ => some true
  | some false :: vs => disj vs
  | none :: vs => if disj vs = some true then some true else none

theorem disj_eq_false {vs : List (Option Bool)} :
    disj vs = some false ↔ ∀ v ∈ vs, v = some false := by
  fun_induction disj vs <;> simp_all

theorem disj_eq_true {vs : List (Option Bool)} : disj vs = some true ↔ some true ∈ vs := by
  fun_induction disj vs <;> simp_all

mutual

/-- The value of a condition where nothing is tested, if it depends on nothing else. -/
def eval : Condition → Option Bool
  | test => some false
  | all cs => conj (evalAll cs)
  | any cs => disj (evalAll cs)
  | not c => (eval c).map (!·)
  | unknown => none

/-- The value of each condition. -/
def evalAll : List Condition → List (Option Bool)
  | [] => []
  | c :: cs => eval c :: evalAll cs

end

theorem evalAll_eq_map (cs : List Condition) : evalAll cs = cs.map eval := by
  induction cs with
  | nil => rfl
  | cons c cs ih => rw [evalAll, ih, List.map_cons]

/-- The condition that an attribute content states. -/
def ofMeta : Meta → Condition
  | .path p => if p.isWord "test" then test else unknown
  | .nameValue _ _ => unknown
  | .list p _ args =>
    match _h : Meta.listOfTokens? args with
    | none => unknown
    | some ms =>
      let cs := ms.attach.map fun m => ofMeta m.1
      if p.isWord "not" then
        match cs with
        | [c] => not c
        | _ => unknown
      else if p.isWord "all" then all cs
      else if p.isWord "any" then any cs
      else unknown
termination_by m => m.size
decreasing_by exact Meta.size_lt_of_mem_listOfTokens? ‹_› m.2

theorem ofMeta_list_of_none {p : SimplePath} {d : Delimiter} {args : Tokens}
    (h : Meta.listOfTokens? args = none) : ofMeta (.list p d args) = unknown := by
  rw [ofMeta]
  split
  · rfl
  · simp_all

theorem ofMeta_list {p : SimplePath} {d : Delimiter} {args : Tokens} {ms : List Meta}
    (h : Meta.listOfTokens? args = some ms) :
    ofMeta (.list p d args) =
      if p.isWord "not" then
        match ms.map ofMeta with
        | [c] => not c
        | _ => unknown
      else if p.isWord "all" then all (ms.map ofMeta)
      else if p.isWord "any" then any (ms.map ofMeta)
      else unknown := by
  rw [ofMeta]
  split
  · simp_all
  · rename_i ms' h'
    obtain rfl := Option.some.inj (h.symm.trans h')
    simp only [List.map_attach_eq_pmap, List.pmap_eq_map]

end Condition

/-- What an attribute asks for, if it makes a condition. -/
def Attribute.predicate? (a : Attribute) : Option Meta :=
  if a.isNamed "cfg" then
    match a.content with
    | .list _ _ args => Meta.ofTokens? args
    | _ => none
  else none

/-- Whether an item with these attributes is in no build without tests. -/
def isTestOnly (attrs : List Attribute) : Bool :=
  (attrs.filterMap Attribute.predicate?).any fun m => (Condition.ofMeta m).eval = some false

end SanitizeGen
