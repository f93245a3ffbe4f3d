import SanitizeGen.Text.CharClass
import SanitizeGen.Token.Quotation

/-!
# Package manifests as values

`Toml.ofText?` reads a manifest: tables of keys and values, in file order. Numbers and dates are
only checked. A table that is defined twice makes the whole text malformed.
-/

namespace SanitizeGen

open Text

/-- How a table came to be, which decides how it may be extended. -/
inductive TableOrigin where
  /-- By a header of its own. -/
  | header
  /-- By a header for a table inside it. -/
  | implied
  /-- By a key with dots. -/
  | dotted
  /-- As a value. -/
  | inline
  deriving DecidableEq

/-- A value of a manifest. -/
inductive Toml where
  | string (s : List Char)
  | boolean (b : Bool)
  /-- A number or a date. -/
  | scalar
  | array (vs : List Toml)
  | table (origin : TableOrigin) (entries : List (List Char × Toml))
  /-- Tables that share a header in double brackets, the last one first. -/
  | tables (ts : List (List (List Char × Toml)))

namespace Toml

/-- Keys with their values, in file order. -/
abbrev Table := List (List Char × Toml)

/-- The value of a key. -/
def Table.get? (t : Table) (key : List Char) : Option Toml := List.lookup key t

/-- The table with the value of `key` replaced, or added at the end. -/
def Table.set (t : Table) (key : List Char) (v : Toml) : Table :=
  if t.any (·.1 == key) then t.map fun e => if e.1 == key then (key, v) else e
  else t ++ [(key, v)]

/-! ### Characters -/

/-- A step that reads from the front of a text, or fails. -/
abbrev TextReader (α : Type) := StateT (List Char) Option α

/-- Fails unless `b`. -/
def check (b : Bool) : TextReader Unit := if b then pure () else failure

/-- Reads the text `s`. -/
def exactly (s : String) : TextReader Unit := do
  let cs ← get
  check (s.toList.isPrefixOf cs)
  set (cs.drop s.length)

/-- Reads the text `s` if it is there, and says whether it is. -/
def optionally (s : String) : TextReader Bool := do
  if s.toList.isPrefixOf (← get) then
    exactly s
    return true
  else return false

/-- Reads spaces and tabs. -/
def spaces : TextReader Unit := modify (·.dropWhile fun c => c == ' ' || c == '\t')

/-- Whether a character may stand in a comment. -/
def isCommentChar (c : Char) : Bool := c == '\t' || (0x20 ≤ c.toNat && c.toNat != 0x7f)

/-- Reads a comment if there is one. -/
def comment : TextReader Unit := do
  if ← optionally "#" then modify (·.dropWhile isCommentChar)

/-- Reads the end of a line, or of the text. -/
def lineEnd : TextReader Unit := do
  match ← get with
  | [] => return
  | '\n' :: r => set r
  | '\r' :: '\n' :: r => set r
  | _ => failure

/-- Reads white space, comments and ends of lines. -/
def gaps : TextReader Unit := do
  go ((← get).length)
where
  go : Nat → TextReader Unit
    | 0 => pure ()
    | fuel + 1 => do
      spaces
      comment
      match ← get with
      | '\n' :: r => set r; go fuel
      | '\r' :: '\n' :: r => set r; go fuel
      | _ => return

/-! ### Strings and keys -/

/-- The character that follows a backslash, or that some digits after it stand for. -/
def escaped : TextReader (List Char) := do
  match ← get with
  | 'b' :: r => set r; return ['\x08']
  | 't' :: r => set r; return ['\t']
  | 'n' :: r => set r; return ['\n']
  | 'f' :: r => set r; return ['\x0c']
  | 'r' :: r => set r; return ['\r']
  | '"' :: r => set r; return ['"']
  | '\\' :: r => set r; return ['\\']
  | 'u' :: r => code 4 r
  | 'U' :: r => code 8 r
  | _ => failure
where
  code (n : Nat) (r : List Char) : TextReader (List Char) := do
    let digits := (r.take n).filterMap Token.hexValue
    check (digits.length == n)
    let value := digits.foldl (fun v d => 16 * v + d) 0
    check value.isValidChar
    set (r.drop n)
    return [Char.ofNat value]

/-- Reads characters of a string up to `close`. `raw` says that backslashes are plain, `lines` that
the string may have several lines. -/
def quoted (close : String) (raw lines : Bool) : TextReader (List Char) := do
  go ((← get).length + 1)
where
  go : Nat → TextReader (List Char)
    | 0 => failure
    | fuel + 1 => do
      if close.toList.isPrefixOf (← get) then
        exactly close
        if lines then
          -- Up to two more quotes belong to the string.
          let q := close.toList.take 1
          let more := ((← get).takeWhile fun c => [c] == q).length
          check (more ≤ 2)
          modify (·.drop more)
          return (List.replicate more q).flatten
        else return []
      else
        match ← get with
        | [] => failure
        | '\r' :: '\n' :: r =>
          check lines
          set r
          return '\n' :: (← go fuel)
        | c :: r =>
          set r
          if c == '\n' then
            check lines
            return c :: (← go fuel)
          else if c == '\\' && !raw then
            let blank := r.dropWhile fun c => c == ' ' || c == '\t'
            if lines && (blank.head? == some '\n' || ['\r', '\n'].isPrefixOf blank) then
              set (r.dropWhile fun c => c == ' ' || c == '\t' || c == '\n' || c == '\r')
              go fuel
            else
              let e ← escaped
              return e ++ (← go fuel)
          else
            check (isCommentChar c)
            return c :: (← go fuel)

/-- Reads a string of one line, if a quote starts one. -/
def lineString : TextReader (List Char) := do
  if ← optionally "\"" then quoted "\"" false false
  else
    exactly "'"
    quoted "'" true false

/-- Reads a string. -/
def anyString : TextReader (List Char) := do
  if ← optionally "\"\"\"" then
    dropLine
    quoted "\"\"\"" false true
  else if ← optionally "'''" then
    dropLine
    quoted "'''" true true
  else lineString
where
  dropLine : TextReader Unit := do
    match ← get with
    | '\n' :: r => set r
    | '\r' :: '\n' :: r => set r
    | _ => return

/-- Whether a character may stand in a key without quotes. -/
def isKeyChar (c : Char) : Bool := isAsciiLetter c || isAsciiDigit c || c == '_' || c == '-'

/-- Reads one part of a key. -/
def keyPart : TextReader (List Char) := do
  let cs ← get
  match cs with
  | '"' :: _ => lineString
  | '\'' :: _ => lineString
  | _ =>
    let key := cs.takeWhile isKeyChar
    check (!key.isEmpty)
    set (cs.drop key.length)
    return key

/-- Reads a key: parts with dots between them. -/
def key : TextReader (List Char × List (List Char)) := do
  spaces
  let first ← keyPart
  spaces
  return (first, ← go ((← get).length))
where
  go : Nat → TextReader (List (List Char))
    | 0 => return []
    | fuel + 1 => do
      if ← optionally "." then
        spaces
        let p ← keyPart
        spaces
        return p :: (← go fuel)
      else return []

/-! ### Numbers and dates -/

/-- Whether `cs` are digits of the kind `digit`, with single underscores between them. -/
def isDigits (digit : Char → Bool) : List Char → Bool
  | [] => false
  | [c] => digit c
  | c :: '_' :: r => digit c && isDigits digit r
  | c :: r => digit c && isDigits digit r

/-- Whether `cs` is a decimal number without a sign and without zeros in front. -/
def isDecimal (cs : List Char) : Bool :=
  isDigits isAsciiDigit cs && (cs.length == 1 || cs.head? != some '0')

/-- The text after a sign, if it has one. -/
def dropSign : List Char → List Char
  | '+' :: r => r
  | '-' :: r => r
  | cs => cs

/-- Whether `cs` is an exponent. -/
def isExponent (cs : List Char) : Bool := isDigits isAsciiDigit (dropSign cs)

/-- The value of some digits, with underscores between them. -/
def digitsValue (base : Nat) (cs : List Char) : Nat :=
  (cs.filterMap Token.hexValue).foldl (fun v d => base * v + d) 0

/-- Whether `cs` are digits of a whole number that fits into 63 bits. -/
def isWhole (base : Nat) (cs : List Char) : Bool :=
  isDigits (fun c => (Token.hexValue c).any (· < base)) cs && digitsValue base cs < Nat.pow 2 63

/-- Whether `cs` is a number. Whole numbers fit into 64 bits with a sign. -/
def isNumber (cs : List Char) : Bool :=
  match cs with
  | '0' :: 'x' :: r => isWhole 16 r
  | '0' :: 'o' :: r => isWhole 8 r
  | '0' :: 'b' :: r => isWhole 2 r
  | _ =>
    let body := dropSign cs
    let bound := if cs.head? == some '-' then Nat.pow 2 63 else Nat.pow 2 63 - 1
    let isExp (c : Char) : Bool := c == 'e' || c == 'E'
    let mantissa := body.takeWhile (!isExp ·)
    let expo := body.dropWhile (!isExp ·)
    let whole := mantissa.takeWhile (· != '.')
    let fraction := mantissa.dropWhile (· != '.')
    body == "inf".toList || body == "nan".toList ||
      (isDecimal whole && (fraction.isEmpty || isDigits isAsciiDigit (fraction.drop 1)) &&
        (expo.isEmpty || isExponent (expo.drop 1)) &&
        (!fraction.isEmpty || !expo.isEmpty || digitsValue 10 whole ≤ bound))

/-- Whether `cs` has the form `pattern`, in which a zero stands for any digit. -/
def fits (pattern : String) (cs : List Char) : Bool :=
  pattern.length == cs.length &&
    (pattern.toList.zip cs).all fun (p, c) => if p == '0' then isAsciiDigit c else p == c

/-- The number that two digits at place `i` of `cs` stand for. -/
def twoDigits (cs : List Char) (i : Nat) : Nat := digitsValue 10 ((cs.drop i).take 2)

/-- How many days a month has. -/
def daysIn (year month : Nat) : Nat :=
  if month = 2 then
    if year % 4 = 0 ∧ (year % 100 ≠ 0 ∨ year % 400 = 0) then 29 else 28
  else if [4, 6, 9, 11].contains month then 30 else 31

/-- Whether `cs` is a time of day to the second. A minute may have a leap second. -/
def isClock (cs : List Char) : Bool :=
  fits "00:00:00" cs && twoDigits cs 0 < 24 && twoDigits cs 3 < 60 && twoDigits cs 6 ≤ 60

/-- Whether `cs` is a time, perhaps with parts of a second. -/
def isTime (cs : List Char) : Bool :=
  let fraction := cs.drop 8
  isClock (cs.take 8) &&
    (fraction.isEmpty || (fraction.head? == some '.' && 1 < fraction.length &&
      (fraction.drop 1).all isAsciiDigit))

/-- Whether `cs` is a distance from universal time, in hours and minutes. -/
def isOffset (cs : List Char) : Bool :=
  (fits "+00:00" cs || fits "-00:00" cs) && twoDigits cs 1 < 24 && twoDigits cs 4 < 60

/-- Whether `cs` is a time, perhaps with its distance from universal time. -/
def isZonedTime (cs : List Char) : Bool :=
  let back := cs.reverse
  isTime cs || ((back.head? == some 'Z' || back.head? == some 'z') && isTime cs.dropLast) ||
    (isOffset (cs.drop (cs.length - 6)) && isTime (cs.take (cs.length - 6)))

/-- Whether `cs` is a day of the calendar. -/
def isDay (cs : List Char) : Bool :=
  let month := twoDigits cs 5
  let day := twoDigits cs 8
  fits "0000-00-00" cs && 1 ≤ month && month ≤ 12 && 1 ≤ day &&
    day ≤ daysIn (digitsValue 10 (cs.take 4)) month

/-- Whether `cs` is a date, a time, or both. -/
def isDate (cs : List Char) : Bool :=
  let time := cs.drop 10
  isTime cs || (isDay (cs.take 10) &&
    (time.isEmpty || (['T', 't', ' '].any (time.head? == some ·) && isZonedTime (time.drop 1))))

/-- Reads a number or a date. -/
def skipScalar : TextReader Unit := do
  let cs ← get
  let isPart (c : Char) : Bool :=
    isAsciiLetter c || isAsciiDigit c || ['+', '-', '_', '.', ':'].contains c
  let word := cs.takeWhile isPart
  let rest := cs.drop word.length
  let second := (rest.drop 1).takeWhile isPart
  if fits "0000-00-00" word && rest.head? == some ' ' &&
      isDate (word ++ ' ' :: second) && !second.isEmpty then
    set (rest.drop (second.length + 1))
  else
    check (isNumber word || isDate word)
    set rest

/-! ### Tables -/

/-- The table with a value added at a key with dots. Only tables made by such keys are extended. -/
def insertDotted (v : Toml) : Table → List Char → List (List Char) → Option Table
  | t, k, [] => if (t.get? k).isSome then none else some (t.set k v)
  | t, k, l :: ks =>
    match t.get? k with
    | none => (insertDotted v [] l ks).map fun inner => t.set k (.table .dotted inner)
    | some (.table .dotted inner) =>
      (insertDotted v inner l ks).map fun inner => t.set k (.table .dotted inner)
    | _ => none

/-- The table with `change` made in the table that some keys lead to. Missing tables are made. -/
def within (change : Table → Option Table) : Table → List (List Char) → Option Table
  | t, [] => change t
  | t, k :: ks =>
    match t.get? k with
    | none => (within change [] ks).map fun inner => t.set k (.table .implied inner)
    | some (.table .inline _) => none
    | some (.table origin inner) =>
      (within change inner ks).map fun inner => t.set k (.table origin inner)
    | some (.tables (last :: before)) =>
      (within change last ks).map fun last => t.set k (.tables (last :: before))
    | _ => none

/-- The table with a table opened by a header. One that was only implied moves to the end. -/
def openTable (k : List Char) (t : Table) : Option Table :=
  match t.get? k with
  | none => some (t.set k (.table .header []))
  | some (.table .implied inner) => some (t.filter (·.1 != k) ++ [(k, .table .header inner)])
  | _ => none

/-- The table with one more table opened by a header in double brackets. -/
def openNext (k : List Char) (t : Table) : Option Table :=
  match t.get? k with
  | none => some (t.set k (.tables [[]]))
  | some (.tables ts) => some (t.set k (.tables ([] :: ts)))
  | _ => none

/-! ### Values -/

/-- Reads a value that nests at most `depth` arrays and tables. -/
def value : Nat → TextReader Toml
  | 0 => failure
  | depth + 1 => do
    match ← get with
    | '"' :: _ => return .string (← anyString)
    | '\'' :: _ => return .string (← anyString)
    | '[' :: r =>
      set r
      return .array (← elements (value depth) (r.length + 1))
    | '\x7b' :: r =>
      set r
      spaces
      if ← optionally "\x7d" then return .table .inline []
      else return .table .inline (← entries (value depth) (r.length + 1) [])
    | _ =>
      if ← optionally "true" then return .boolean true
      else if ← optionally "false" then return .boolean false
      else
        skipScalar
        return .scalar
where
  /-- The elements of an array up to its bracket. -/
  elements (element : TextReader Toml) : Nat → TextReader (List Toml)
    | 0 => failure
    | fuel + 1 => do
      gaps
      if ← optionally "]" then return []
      let v ← element
      gaps
      if ← optionally "," then return v :: (← elements element fuel)
      else
        exactly "]"
        return [v]
  /-- The entries of an inline table up to its brace. -/
  entries (element : TextReader Toml) : Nat → Table → TextReader Table
    | 0, _ => failure
    | fuel + 1, t => do
      let (k, ks) ← key
      exactly "="
      spaces
      let v ← element
      spaces
      match insertDotted v t k ks with
      | none => failure
      | some t =>
        if ← optionally "," then entries element fuel t
        else
          exactly "\x7d"
          return t

/-! ### Documents -/

/-- What has been read of a document: the tables, and the keys that lead to the open one. -/
structure Document where
  tables : Table
  opened : List (List Char)

/-- Reads one line: a header, a key with its value, or nothing. -/
def line (d : Document) : TextReader Document := do
  spaces
  match ← get with
  | '[' :: '[' :: r =>
    set r
    let (k, ks) ← key
    exactly "]]"
    let path := k :: ks
    match within (openNext (path.getLast?.getD k)) d.tables path.dropLast with
    | some t => return ⟨t, path⟩
    | none => failure
  | '[' :: r =>
    set r
    let (k, ks) ← key
    exactly "]"
    let path := k :: ks
    match within (openTable (path.getLast?.getD k)) d.tables path.dropLast with
    | some t => return ⟨t, path⟩
    | none => failure
  | cs =>
    match cs with
    | [] => return d
    | c :: _ =>
      if c == '\n' || c == '\r' || c == '#' then return d
      let (k, ks) ← key
      exactly "="
      spaces
      let v ← value (cs.length + 1)
      match within (fun t => insertDotted v t k ks) d.tables d.opened with
      | some t => return { d with tables := t }
      | none => failure

/-- Reads all lines. -/
def lines : Nat → Document → TextReader Table
  | 0, d => return d.tables
  | fuel + 1, d => do
    let d ← line d
    spaces
    comment
    lineEnd
    if (← get).isEmpty then return d.tables else lines fuel d

/-- The tables of a manifest. -/
def ofText? (s : List Char) : Option Table :=
  let s := match s with
    | '\ufeff' :: r => r
    | _ => s
  match lines (s.length + 1) ⟨[], []⟩ s with
  | some (t, _) => some t
  | none => none

/-! ### Looking things up -/

/-- The entries of a table, by header or as a value. -/
def asTable? : Toml → Option Table
  | table _ entries => some entries
  | _ => none

/-- The entries of a table that is no value. -/
def asSection? : Toml → Option Table
  | table .inline _ => none
  | table _ entries => some entries
  | _ => none

/-- The text of a string. -/
def asString? : Toml → Option (List Char)
  | string s => some s
  | _ => none

end Toml

end SanitizeGen
