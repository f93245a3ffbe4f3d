import SanitizeGen.Mode
import SanitizeGen.Text.Structured

/-!
# The dispatch table

A `Table` holds at most one function for each type, and runs it on a value whose type is only known
at run time. Types are told apart by codes (`TypeCode`), values by their identity (`Live`).
-/

namespace SanitizeGen

/-- Codes for types: what a code stands for, the type's name, and the debug view of its values. -/
class TypeCode (κ : Type) where
  El : κ → Type
  typeName : κ → String
  view : (k : κ) → El k → Text.Structured

/-- A value with what tells it from every other value that is alive. -/
structure Live (α : Type) where
  identity : Nat
  value : α

/-- The number that identifies a value, whatever the value holds. -/
def Live.identityHash {α : Type} (x : Live α) : Nat := x.identity

/-- There is no function for a value's type. -/
structure NotGenerated where
  typeName : String
  deriving DecidableEq

/-- What is said when there is no function. -/
def NotGenerated.message (_ : NotGenerated) : String := notGeneratedMessage

/-- The text with which a computation ends without a result. -/
structure Panic where
  text : String
  deriving DecidableEq

/-- A value of any type, with the code of its type. -/
structure AnyValue (κ : Type) [TypeCode κ] where
  code : κ
  value : Live (TypeCode.El code)

/-- The value as one of the type `k`, if it is of that type. -/
def AnyValue.as? {κ : Type} [TypeCode κ] [DecidableEq κ] (x : AnyValue κ) (k : κ) :
    Option (Live (TypeCode.El k)) :=
  if h : x.code = k then some (h ▸ x.value) else none

/-- What is kept for a type: its name, and its function in a form that takes any value and returns
nothing for one of another type. -/
structure TableEntry (κ : Type) [TypeCode κ] where
  typeName : String
  run : AnyValue κ → Option String

/-- The entry that is made of the function of the type `k`. -/
def TableEntry.ofFunction {κ : Type} [TypeCode κ] [DecidableEq κ] (k : κ)
    (f : Live (TypeCode.El k) → String) : TableEntry κ :=
  ⟨TypeCode.typeName k, fun x => (x.as? k).map f⟩

/-- Entries by type, at most one for each. -/
structure Table (κ : Type) [TypeCode κ] where
  mode : Mode
  entries : List (κ × TableEntry κ)
  distinct : (entries.map Prod.fst).Nodup

namespace Table

variable {κ : Type} [TypeCode κ]

/-- The table without functions. -/
def empty (mode : Mode) : Table κ := ⟨mode, [], List.nodup_nil⟩

/-- How many types have a function. -/
def len (t : Table κ) : Nat := t.entries.length

/-- Whether no type has a function. -/
def isEmpty (t : Table κ) : Bool := t.entries.isEmpty

/-- The names of the types that have a function, in order. -/
def registeredTypes (t : Table κ) : List String :=
  (t.entries.map fun e => e.2.typeName).mergeSort fun a b => decide (a ≤ b)

/-- The table as its mode and the names of its types. -/
def view (t : Table κ) : Text.Structured :=
  .record "SanitizerTable" [("mode", .atom t.mode.name),
    ("registered", .list (t.registeredTypes.map .ofString))]

variable [DecidableEq κ]

/-- Removing a type's entry and adding a new one leaves one entry for each type. -/
theorem nodup_replace {es : List (κ × TableEntry κ)} (k : κ) (e : TableEntry κ)
    (h : (es.map Prod.fst).Nodup) :
    ((es.filter (fun x => decide (x.1 ≠ k)) ++ [(k, e)]).map Prod.fst).Nodup := by
  rw [List.map_append, List.nodup_append]
  refine ⟨h.sublist (List.filter_sublist.map _), by simp, ?_⟩
  intro a ha b hb
  obtain ⟨x, hx, rfl⟩ := List.mem_map.mp ha
  obtain rfl : b = k := by simpa using hb
  exact of_decide_eq_true (List.mem_filter.mp hx).2

/-- The table in which `run` is the function for `k`, and every other type keeps its function. -/
def register (t : Table κ) (k : κ) (run : Live (TypeCode.El k) → String) : Table κ where
  mode := t.mode
  entries := t.entries.filter (fun e => decide (e.1 ≠ k)) ++ [(k, .ofFunction k run)]
  distinct := nodup_replace k (.ofFunction k run) t.distinct

/-- Whether a type has a function. -/
def contains (t : Table κ) (k : κ) : Bool := t.entries.any fun e => decide (e.1 = k)

/-- What the function of the value's type returns; none if the type has none. -/
def sanitizeAny (t : Table κ) (k : κ) (x : Live (TypeCode.El k)) : Option String :=
  (t.entries.lookup k).bind fun e => e.run ⟨k, x⟩

/-- The text of a value: what its type's function returns, or without one the debug text in a debug
table and an error in a release table. -/
def sanitize (t : Table κ) (k : κ) (x : Live (TypeCode.El k)) : Except NotGenerated String :=
  match t.sanitizeAny k x with
  | some text => .ok text
  | none =>
    match t.mode with
    | .debug => .ok (TypeCode.view k x.value).compact
    | .release => .error ⟨TypeCode.typeName k⟩

/-- The text of a value, or a panic with the message of the error. -/
def sanitizeOrPanic (t : Table κ) (k : κ) (x : Live (TypeCode.El k)) : Except Panic String :=
  (t.sanitize k x).mapError fun e => ⟨e.message⟩

end Table

end SanitizeGen
