import SanitizeGen.Source.Item

/-!
# Reading token trees

A `Reader` takes trees from the front of a list and fails without a message. Readers look ahead by
plain tests on the list, `startsOp` and its companions. What is read is returned as it is printed:
operators as one token each.
-/

namespace SanitizeGen

/-- A step that reads from the front of a list of token trees, or fails. It leaves a tail of the
list, so that nothing is read that was not there. -/
structure Reader (α : Type) where
  run : Tokens → Option (α × Tokens)
  isSuffix : ∀ {ts a r}, run ts = some (a, r) → r <:+ ts

namespace Tokens

/-- Whether the trees start with the operator of these characters. What follows the last character
does not matter. -/
def startsOpChars : List Char → Tokens → Bool
  | [], _ => false
  | [c], .leaf (.punct d _) :: _ => c == d
  | c :: cs, .leaf (.punct d true) :: r => c == d && startsOpChars cs r
  | _, _ => false

/-- Whether the trees start with the operator `s`. -/
def startsOp (ts : Tokens) (s : String) : Bool := startsOpChars s.toList ts

/-- Whether the trees start with the operator `s` and with none of `longer`. -/
def startsOpOnly (ts : Tokens) (s : String) (longer : List String) : Bool :=
  ts.startsOp s && !longer.any ts.startsOp

/-- The trees after the first `n`. -/
def skip (ts : Tokens) (n : Nat) : Tokens := ts.drop n

/-- Whether the first tree is a word, reserved or not. -/
def startsAnyWord : Tokens → Bool
  | .leaf (.word _) :: _ => true
  | _ => false

/-- Whether the first tree is the plain word `w`. -/
def startsWord (ts : Tokens) (w : String) : Bool :=
  match ts with
  | .leaf (.word i) :: _ => !i.raw && i.name == w
  | _ => false

/-- Whether the first tree is one of the plain words `ws`. -/
def startsWordIn (ts : Tokens) (ws : List String) : Bool :=
  ws.any ts.startsWord

/-- Whether the first tree is a word that is not reserved. -/
def startsIdent : Tokens → Bool
  | .leaf (.word i) :: _ => !i.isReserved
  | _ => false

/-- Whether the first tree is a lifetime. -/
def startsLifetime : Tokens → Bool
  | .leaf (.lifetime _) :: _ => true
  | _ => false

/-- Whether the first tree is a group between `d`. -/
def startsGroup (ts : Tokens) (d : Delimiter) : Bool :=
  match ts with
  | .group e _ :: _ => d = e
  | _ => false

/-- Whether a number follows. -/
def startsNumber : Tokens → Bool
  | .leaf (.literal l) :: _ => l.kind = .integer || l.kind = .float
  | _ => false

/-- Whether the trees start with a literal: `true` and `false` count, and so does a number after a
minus sign. -/
def startsLiteral : Tokens → Bool
  | .leaf (.literal _) :: _ => true
  | .leaf (.word i) :: _ => !i.raw && (i.name == "true" || i.name == "false")
  | .leaf (.punct '-' _) :: r => startsNumber r
  | _ => false

/-- Whether a string literal follows. -/
def startsString : Tokens → Bool
  | .leaf (.literal l) :: _ => l.kind = .string
  | _ => false

end Tokens

namespace Reader

variable {α β : Type}

instance : Monad Reader where
  pure a := ⟨fun ts => some (a, ts), fun h => by cases h; exact List.suffix_rfl⟩
  bind p f :=
    ⟨fun ts => (p.run ts).bind fun (a, r) => (f a).run r, fun h => by
      obtain ⟨⟨a, r⟩, hp, hf⟩ := Option.bind_eq_some_iff.1 h
      exact ((f a).isSuffix hf).trans (p.isSuffix hp)⟩

instance : Alternative Reader where
  failure := ⟨fun _ => none, nofun⟩
  orElse p q :=
    ⟨fun ts => (p.run ts).or ((q ()).run ts), fun h => by
      rcases Option.or_eq_some_iff.1 h with h | ⟨-, h⟩
      · exact p.isSuffix h
      · exact (q ()).isSuffix h⟩

theorem run_bind_eq_some {p : Reader α} {f : α → Reader β} {ts r : Tokens} {b : β} :
    (p >>= f).run ts = some (b, r) ↔ ∃ a s, p.run ts = some (a, s) ∧ (f a).run s = some (b, r) := by
  show (p.run ts).bind _ = _ ↔ _
  rw [Option.bind_eq_some_iff]
  exact ⟨fun ⟨⟨a, s⟩, hp, hf⟩ => ⟨a, s, hp, hf⟩, fun ⟨a, s, hp, hf⟩ => ⟨⟨a, s⟩, hp, hf⟩⟩

/-- What is left to read. -/
def rest : Reader Tokens :=
  ⟨fun ts => some (ts, ts), fun h => by cases h; exact List.suffix_rfl⟩

/-- Goes over the first `n` trees. -/
def skip (n : Nat) : Reader Unit :=
  ⟨fun ts => some ((), ts.drop n), fun h => by cases h; exact List.drop_suffix n _⟩

/-- Runs `p` and forgets that it has read anything. -/
def lookAhead (p : Reader α) : Reader α :=
  ⟨fun ts => (p.run ts).map fun (a, _) => (a, ts), fun h => by
    obtain ⟨x, -, hx⟩ := Option.map_eq_some_iff.1 h
    cases hx
    exact List.suffix_rfl⟩

/-- Fails unless `b`. -/
def check (b : Bool) : Reader Unit := if b then pure () else failure

/-- Whether nothing is left. -/
def atEnd : Reader Bool := do return (← rest).isEmpty

/-- Whether a test holds of what is left. -/
def sees (test : Tokens → Bool) : Reader Bool := do return test (← rest)

/-- Reads one tree, whatever it is. -/
def tree : Reader TokenTree := do
  match ← rest with
  | t :: _ => skip 1; return t
  | [] => failure

/-- Reads the operator `s`. -/
def op (s : String) : Reader Tokens := do
  check (← sees (·.startsOp s))
  skip s.length
  return Tokens.op s

/-- Reads the operator `s` if it is there. -/
def op? (s : String) : Reader Tokens := do
  if (← rest).startsOp s then op s else return []

/-- Reads any word. -/
def anyWord : Reader Ident := do
  match ← tree with
  | .leaf (.word i) => return i
  | _ => failure

/-- Reads a word that is not reserved. -/
def ident : Reader Ident := do
  let i ← anyWord
  check (!i.isReserved)
  return i

/-- Reads the plain word `w`. -/
def word (w : String) : Reader Tokens := do
  check ((← rest).startsWord w)
  return Tokens.word (← anyWord)

/-- Reads the plain word `w` if it is there. -/
def word? (w : String) : Reader Tokens := do
  if (← rest).startsWord w then word w else return []

/-- Reads a lifetime. -/
def lifetime : Reader Ident := do
  match ← tree with
  | .leaf (.lifetime i) => return i
  | _ => failure

/-- Reads a lifetime if there is one. -/
def lifetime? : Reader Tokens := do
  if (← rest).startsLifetime then return Tokens.lifetime (← lifetime) else return []

/-- Reads a literal, with the minus sign in front of a number. -/
def literal : Reader Tokens := do
  check (← sees (·.startsLiteral))
  match ← tree with
  | .leaf (.punct c joint) => return [.leaf (.punct c joint), ← tree]
  | t => return [t]

/-- Reads the content of a group with `p`, which has to reach its end. -/
def inGroup (d : Delimiter) (p : Reader α) : Reader α := do
  match ← tree with
  | .group e ts =>
    check (d = e)
    match p.run ts with
    | some (a, []) => return a
    | _ => failure
  | _ => failure

/-- Reads a group with `p` and returns it as a group. -/
def group (d : Delimiter) (p : Reader Tokens) : Reader Tokens := do
  return Tokens.group d (← inGroup d p)

/-- Reads a group whatever it holds. -/
def anyGroup : Reader Tokens := do
  match ← tree with
  | .group d ts => return [.group d ts]
  | _ => failure

/-- Reads all that is left. -/
def remaining : Reader Tokens := do
  let ts ← rest
  skip ts.length
  return ts

/-- Repeats `step` until it yields nothing, at most once per tree that is left and once more. -/
def iterate (step : α → Reader (Option α)) (a : α) : Reader α := do
  go ((← rest).length + 1) a
where
  go : Nat → α → Reader α
    | 0, a => pure a
    | fuel + 1, a => do
      match ← step a with
      | some b => go fuel b
      | none => return a

/-- What each step keeps holds in the end. A step reads a tail of what was there at the start. -/
theorem of_iterate {step : α → Reader (Option α)} {P : α → Prop} {start : Tokens}
    (hstep : ∀ {a b ts r}, ts <:+ start → P a → (step a).run ts = some (some b, r) → P b)
    {a b : α} {r : Tokens} (ha : P a) (h : (iterate step a).run start = some (b, r)) : P b := by
  suffices hgo : ∀ fuel {a ts}, ts <:+ start → P a → (iterate.go step fuel a).run ts = some (b, r) →
      P b by
    obtain ⟨_, _, hrest, h⟩ := run_bind_eq_some.1 h
    cases hrest
    exact hgo _ List.suffix_rfl ha h
  intro fuel
  induction fuel with
  | zero =>
    intro a ts _ ha h
    cases h
    exact ha
  | succ fuel ih =>
    intro a ts hts ha h
    obtain ⟨next, s, hnext, h⟩ := run_bind_eq_some.1 h
    cases next with
    | none =>
      cases h
      exact ha
    | some a' => exact ih (((step a).isSuffix hnext).trans hts) (hstep hts ha hnext) h

/-- Repeats `p` as long as `test` holds of what is left, and collects the results. -/
def manyWhile (test : Tokens → Bool) (p : Reader α) : Reader (List α) := do
  let found ← iterate (fun found => do
    if ← sees test then return some ((← p) :: found) else return none) []
  return found.reverse

/-- Reads elements with `p` and separators with `sep` until `stop` holds in front of an element or
of a separator. Each element is returned with the separator after it. -/
def separated (stop : Tokens → Bool) (p : Reader α) (sep : Reader β) :
    Reader (List (α × Option β)) := do
  let (found, _) ← iterate (fun (found, done) => do
    if done || (← sees stop) then return none
    let a ← p
    if ← sees stop then return some ((a, none) :: found, true)
    let b ← sep
    return some ((a, some b) :: found, false)) ([], false)
  return found.reverse

/-- Each element is read from a tail of the list. -/
theorem exists_run_of_separated {stop : Tokens → Bool} {p : Reader α} {sep : Reader β}
    {ts r : Tokens} {found : List (α × Option β)}
    (h : (separated stop p sep).run ts = some (found, r)) {x : α × Option β} (hx : x ∈ found) :
    ∃ s r', s <:+ ts ∧ p.run s = some (x.1, r') := by
  obtain ⟨⟨all, done⟩, s, hall, h⟩ := run_bind_eq_some.1 h
  cases h
  refine of_iterate (P := fun found => ∀ x ∈ found.1, ∃ s r', s <:+ ts ∧ p.run s = some (x.1, r'))
    ?_ (by simp) hall x (List.mem_reverse.1 hx)
  rintro ⟨before, ended⟩ ⟨after, ended'⟩ s r hs hbefore hstep
  obtain ⟨b, s₀, hb, hstep⟩ := run_bind_eq_some.1 hstep
  cases hb
  split at hstep
  · cases hstep
  · obtain ⟨a, s₁, ha, hstep⟩ := run_bind_eq_some.1 hstep
    -- whether a separator follows changes only what stands beside the element
    have hafter : ∃ sep, after = (a, sep) :: before := by
      obtain ⟨b, s₂, hb, hstep⟩ := run_bind_eq_some.1 hstep
      cases hb
      split at hstep
      · cases hstep
        exact ⟨_, rfl⟩
      · obtain ⟨c, s₃, hc, hstep⟩ := run_bind_eq_some.1 hstep
        cases hstep
        exact ⟨_, rfl⟩
    obtain ⟨sep, rfl⟩ := hafter
    intro x hx
    rcases List.mem_cons.1 hx with rfl | hx
    · exact ⟨s, s₁, hs, ha⟩
    · exact hbefore x hx

/-- Reads elements with commas between them, and perhaps one at the end, up to the end. -/
def commaList (p : Reader Tokens) : Reader Tokens := do
  let found ← separated List.isEmpty p (op ",")
  return found.flatMap fun (ts, sep) => ts ++ sep.getD []

/-- Reads with `p` and returns what it has read as it stood in the source. -/
def consumed (p : Reader α) : Reader Tokens := do
  let before ← rest
  let _ ← p
  return before.take (before.length - (← rest).length)

/-- The result of reading all of some trees with `p`. -/
def readAll? (p : Reader α) (ts : Tokens) : Option α :=
  match p.run ts with
  | some (a, []) => some a
  | _ => none

end Reader

end SanitizeGen
