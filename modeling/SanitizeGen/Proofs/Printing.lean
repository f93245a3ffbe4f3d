import SanitizeGen.Rendering
import SanitizeGen.Proofs.LexedText
import SanitizeGen.Proofs.ResolvedTarget

/-!
# What generated expressions print

A `Printing` is an expression of generated code that makes a text: a text as it stands, or a format
text whose placeholders take arguments in order. `Printing.ofText?` reads one from its tokens, and
`Printing.value?` is the text it makes of a value. Reading undoes writing (`ofText?_format`,
`ofText?_constant`).
-/

namespace SanitizeGen

open Text

/-! ### Values and their parts -/

/-- What code can print of the value it runs on. -/
structure SelfView where
  field : FieldKey → FieldText
  identity : Nat

/-! ### Paths -/

namespace SimplePath

/-- The path as it is written. -/
def text (p : SimplePath) : String :=
  (if p.leading then "::" else "") ++ "::".intercalate (p.segments.map Ident.text)

def format : SimplePath := ⟨true, [.plain "std", .plain "format"]⟩

def stringFrom : SimplePath :=
  ⟨true, [.plain "std", .plain "string", .plain "String", .plain "from"]⟩

def self : SimplePath := ⟨false, [.plain "self"]⟩

end SimplePath

/-- The path of the runtime crate. It has at least one name. -/
structure CratePath where
  path : SimplePath
  segments_ne_nil : path.segments ≠ []

/-- The function of the runtime crate that identifies a value. -/
def CratePath.identityHash (c : CratePath) : SimplePath :=
  ⟨c.path.leading, c.path.segments ++ [.plain "identity_hash"]⟩

/-! ### Format texts -/

/-- What a format text asks to be printed. -/
inductive Placeholder where
  | display
  | debug
  | hex
  deriving DecidableEq

/-- The placeholder of a field format. -/
def Placeholder.ofFormat : FieldFormat → Placeholder
  | .display => display
  | .debug => debug

/-- A part of a format text. -/
inductive FormatPiece where
  | char (c : Char)
  | hole (p : Placeholder)
  deriving DecidableEq

namespace FormatPiece

def isHole : FormatPiece → Bool
  | char _ => false
  | hole _ => true

/-- The parts of a format text. A brace that is doubled stands for itself. -/
def ofText? : List Char → Option (List FormatPiece)
  | [] => some []
  | '\x7b' :: '\x7b' :: r => (ofText? r).map (char '\x7b' :: ·)
  | '\x7d' :: '\x7d' :: r => (ofText? r).map (char '\x7d' :: ·)
  | '\x7b' :: '\x7d' :: r => (ofText? r).map (hole .display :: ·)
  | '\x7b' :: ':' :: '?' :: '\x7d' :: r => (ofText? r).map (hole .debug :: ·)
  | '\x7b' :: ':' :: 'x' :: '\x7d' :: r => (ofText? r).map (hole .hex :: ·)
  | c :: r => if c = '\x7b' ∨ c = '\x7d' then none else (ofText? r).map (char c :: ·)

def code : FormatPiece → List Char
  | char c => if c = '\x7b' ∨ c = '\x7d' then [c, c] else [c]
  | hole .display => ['\x7b', '\x7d']
  | hole .debug => ['\x7b', ':', '?', '\x7d']
  | hole .hex => ['\x7b', ':', 'x', '\x7d']

theorem ofText?_code_append (p : FormatPiece) (s : List Char) :
    ofText? (p.code ++ s) = (ofText? s).map (p :: ·) := by
  cases p with
  | char c =>
    by_cases h : c = '\x7b' ∨ c = '\x7d'
    · rcases h with rfl | rfl <;> rfl
    · have h1 := not_or.1 h
      rw [code, if_neg h, List.singleton_append]
      simp [ofText?, h1]
  | hole p => cases p <;> rfl

/-- Parts that are written read as themselves. -/
theorem ofText?_flatMap_code (ps : List FormatPiece) : ofText? (ps.flatMap code) = some ps := by
  induction ps with
  | nil => rfl
  | cons p ps ih => rw [List.flatMap_cons, ofText?_code_append, ih, Option.map_some]

theorem flatMap_code_char {s : List Char} (h : ∀ c ∈ s, c ≠ '\x7b' ∧ c ≠ '\x7d') :
    (s.map char).flatMap code = s := by
  induction s with
  | nil => rfl
  | cons c s ih =>
    have hc := h c (by simp)
    rw [List.map_cons, List.flatMap_cons, ih fun d hd => h d (by simp [hd]), code,
      if_neg (not_or.2 hc), List.singleton_append]

end FormatPiece

/-! ### Arguments -/

/-- An argument of a format text. -/
inductive PrintArg where
  | field (k : FieldKey)
  /-- The number that identifies the value. -/
  | identity
  deriving DecidableEq

namespace PrintArg

/-- The text of the argument where a placeholder stands for it. -/
def text? (self : SelfView) : Placeholder → PrintArg → Option (List Char)
  | .display, field k => some (self.field k).display.toList
  | .debug, field k => some (self.field k).debug.toList
  | .hex, field _ => none
  | .hex, identity => some (hexDigits self.identity)
  | _, identity => some (toString self.identity).toList

/-- The argument that some trees are: a field of the value, or a call that identifies it. -/
def ofTokens? (runtime : CratePath) (ts : Tokens) : Option PrintArg :=
  match ts.optionName with
  | .error _ => none
  | .ok (p, rest) =>
    if p = .self then
      match rest with
      | [.leaf (.punct '.' _), .leaf (.word i)] => some (field (.named i))
      | [.leaf (.punct '.' _), .leaf (.literal ⟨.integer, digits⟩)] =>
        if digits.all isAsciiDigit then some (field (.index (Nat.ofDigitChars 10 digits 0)))
        else none
      | _ => none
    else if p = runtime.identityHash then
      match rest with
      | [.group .paren arg] =>
        match Tokens.optionName arg with
        | .ok (q, []) => if q = .self then some identity else none
        | _ => none
      | _ => none
    else none

def code (runtime : CratePath) : PrintArg → String
  | field k => "self." ++ k.code
  | identity => runtime.path.text ++ "::identity_hash(self)"

end PrintArg

/-! ### Expressions -/

/-- What stands between the commas of a list. -/
def Tokens.splitCommas : Tokens → List Tokens
  | [] => [[]]
  | .leaf (.punct ',' _) :: r => [] :: splitCommas r
  | t :: r =>
    match splitCommas r with
    | p :: ps => (t :: p) :: ps
    | [] => [[t]]

/-- An expression that makes a text. -/
inductive Printing where
  | constant (s : List Char)
  | format (pieces : List FormatPiece) (args : List PrintArg)

namespace Printing

/-- The expression that some trees are. -/
def ofTokens? (runtime : CratePath) (ts : Tokens) : Option Printing :=
  match ts.optionName with
  | .ok (p, [.leaf (.punct '!' _), .group .paren args]) =>
    if p = .format then
      match Tokens.splitCommas args with
      | [.leaf (.literal l)] :: rest => do
        let pieces ← FormatPiece.ofText? (← l.stringValue)
        let args ← rest.mapM (PrintArg.ofTokens? runtime)
        return format pieces args
      | _ => none
    else none
  | .ok (p, [.group .paren [.leaf (.literal l)]]) =>
    if p = .stringFrom then l.stringValue.map constant else none
  | _ => none

def ofText? (runtime : CratePath) (s : String) : Option Printing :=
  (TokenTree.ofText? s.toList).bind (ofTokens? runtime)

/-- The text of some parts whose placeholders take the arguments in order. There has to be exactly
one argument for each placeholder. -/
def fill (self : SelfView) : List FormatPiece → List PrintArg → Option (List Char)
  | [], [] => some []
  | [], _ :: _ => none
  | .char c :: ps, as => (fill self ps as).map (c :: ·)
  | .hole _ :: _, [] => none
  | .hole p :: ps, a :: as => do
    let text ← a.text? self p
    let rest ← fill self ps as
    return text ++ rest

/-- The text that the expression makes. -/
def value? (self : SelfView) : Printing → Option String
  | constant s => some (String.ofList s)
  | format pieces args => (fill self pieces args).map String.ofList

end Printing

/-! ### Reading paths -/

namespace Tokens

/-- No double colon follows. -/
def PathEnds (ts : Tokens) : Prop := ∀ j r, ts ≠ .leaf (.punct ':' j) :: r

/-- The segments of a path behind the first, each behind its double colon. -/
def furtherSegments (is : List Ident) : Tokens := is.flatMap fun i => op "::" ++ word i

theorem joinSegments_eq (i : Ident) (is : List Ident) :
    joinSegments ((i :: is).map word) = word i ++ furtherSegments is := by
  induction is generalizing i with
  | nil => rfl
  | cons j is ih =>
    rw [List.map_cons, List.map_cons, joinSegments, ← List.map_cons, ih, furtherSegments,
      furtherSegments, List.flatMap_cons, List.append_assoc, List.append_assoc]

theorem moreSegments_eq {r : Tokens} (hr : PathEnds r) (is : List Ident) :
    moreSegments (furtherSegments is ++ r) = .ok (is, r) := by
  induction is with
  | nil =>
    rw [furtherSegments, List.flatMap_nil, List.nil_append]
    unfold moreSegments
    split
    · rename_i heq
      exact absurd rfl (hr _ _)
    · rfl
  | cons i is ih =>
    show moreSegments (.leaf (.punct ':' true) :: .leaf (.punct ':' false) :: .leaf (.word i) ::
      (furtherSegments is ++ r)) = _
    simp only [moreSegments, ih]

/-- A path is read up to where it ends. -/
theorem optionName_path (p : SimplePath) (hp : p.segments ≠ []) {r : Tokens} (hr : PathEnds r) :
    Tokens.optionName (p.tokens ++ r) = .ok (p, r) := by
  obtain ⟨leading, segments⟩ := p
  obtain ⟨i, is, rfl⟩ := List.exists_cons_of_ne_nil hp
  rw [SimplePath.tokens, joinSegments_eq, List.append_assoc, List.append_assoc]
  cases leading with
  | false =>
    show optionName (.leaf (.word i) :: (furtherSegments is ++ r)) = _
    simp [optionName, startsOp, startsOpChars, moreSegments_eq hr]
  | true =>
    show optionName (.leaf (.punct ':' true) :: .leaf (.punct ':' false) :: .leaf (.word i) ::
      (furtherSegments is ++ r)) = _
    simp [optionName, startsOp, startsOpChars, skip, moreSegments_eq hr]

end Tokens

/-! ### Lexing what is written -/

open Lexeme TokenTree

variable {s : List Char} {ls : List Lexeme}

def furtherText (is : List Ident) : List Char := is.flatMap fun i => ':' :: ':' :: i.text.toList

theorem wordEnds_furtherText (hs : WordEnds s) : (is : List Ident) → WordEnds (furtherText is ++ s)
  | [] => hs
  | _ :: _ => .cons _

theorem reads_colons (hs : startsPunct s = false) (h : Reads s ls) :
    Reads (':' :: ':' :: s) (lexemesAll (Tokens.op "::") ++ ls) := by
  have h2 := Reads.punct (c := ':') (by decide) h
  rw [hs] at h2
  exact Reads.punct (by decide) h2

theorem reads_furtherText (hs : WordEnds s) (h : Reads s ls) (is : List Ident) :
    Reads (furtherText is ++ s) (lexemesAll (Tokens.furtherSegments is) ++ ls) := by
  induction is with
  | nil => exact h
  | cons i is ih =>
    have hw := Reads.word i (wordEnds_furtherText hs is) ih
    have hc := reads_colons (startsPunct_word i) hw
    simpa [furtherText, Tokens.furtherSegments, Tokens.word, lexemesAll, lexemes] using hc

theorem text_path (leading : Bool) (i : Ident) (is : List Ident) :
    (SimplePath.text ⟨leading, i :: is⟩).toList =
      (if leading then [':', ':'] else []) ++ (i.text.toList ++ furtherText is) := by
  have hi : ∀ i : Ident, ("::".intercalate ((i :: is).map Ident.text)).toList =
      i.text.toList ++ furtherText is := by
    induction is with
    | nil =>
      intro i
      simp [furtherText]
    | cons j is ih =>
      intro i
      rw [List.map_cons, List.map_cons, String.intercalate_cons_cons, ← List.map_cons,
        String.toList_append, String.toList_append, ih]
      simp [furtherText]
  rw [SimplePath.text, String.toList_append, hi]
  cases leading <;> simp

theorem reads_path (p : SimplePath) (hp : p.segments ≠ []) (hs : WordEnds s) (h : Reads s ls) :
    Reads (p.text.toList ++ s) (lexemesAll p.tokens ++ ls) := by
  obtain ⟨leading, segments⟩ := p
  obtain ⟨i, is, rfl⟩ := List.exists_cons_of_ne_nil hp
  have hw := Reads.word i (wordEnds_furtherText hs is) (reads_furtherText hs h is)
  rw [text_path, SimplePath.tokens, Tokens.joinSegments_eq, List.append_assoc, List.append_assoc]
  cases leading with
  | false => simpa [Tokens.word, lexemesAll, lexemes] using hw
  | true =>
    have hc := reads_colons (startsPunct_word i) hw
    simpa [Tokens.word, lexemesAll, lexemes] using hc

namespace CratePath

variable (runtime : CratePath)

theorem identityHash_ne_self : runtime.identityHash ≠ .self := by
  intro h
  have hl := congrArg (fun p : SimplePath => p.segments.length) h
  have hn := List.length_pos_iff.2 runtime.segments_ne_nil
  simp [identityHash, SimplePath.self] at hl
  exact runtime.segments_ne_nil hl

theorem text_identityHash :
    runtime.identityHash.text.toList = runtime.path.text.toList ++ "::identity_hash".toList := by
  obtain ⟨⟨leading, segments⟩, hs⟩ := runtime
  obtain ⟨i, is, rfl⟩ := List.exists_cons_of_ne_nil hs
  rw [identityHash, List.cons_append, text_path, text_path]
  simp [furtherText, Ident.plain, Ident.text]

end CratePath

namespace PrintArg

variable (runtime : CratePath)

def tokens (runtime : CratePath) : PrintArg → Tokens
  | field (.named i) => SimplePath.self.tokens ++ (Tokens.op "." ++ Tokens.word i)
  | field (.index n) =>
    SimplePath.self.tokens ++ (Tokens.op "." ++ [.leaf (.literal ⟨.integer, (toString n).toList⟩)])
  | identity => runtime.identityHash.tokens ++ Tokens.group .paren SimplePath.self.tokens

theorem ofTokens?_tokens (a : PrintArg) : ofTokens? runtime (a.tokens runtime) = some a := by
  rcases a with (i | n) | _
  · rw [ofTokens?, tokens, Tokens.optionName_path _ (by decide) fun _ _ => by
      simp [Tokens.op, ofOperator]]
    rfl
  · rw [ofTokens?, tokens, Tokens.optionName_path _ (by decide) fun _ _ => by
      simp [Tokens.op, ofOperator]]
    have hd := List.all_eq_true.2 (isAsciiDigit_of_mem_toString n)
    show (if ((toString n).toList).all isAsciiDigit then
      some (field (.index (Nat.ofDigitChars 10 (toString n).toList 0))) else none) = _
    rw [if_pos hd, toString_toList, Nat.ofDigitChars_ten_toDigits]
  · rw [ofTokens?, tokens, Tokens.optionName_path _ (by simp [CratePath.identityHash]) fun _ _ => by
      simp [Tokens.group]]
    simp only [if_neg runtime.identityHash_ne_self, if_true]
    rfl

theorem reads_code (a : PrintArg) (hs : NumberEnds s) (h : Reads s ls) :
    Reads ((a.code runtime).toList ++ s) (lexemesAll (a.tokens runtime) ++ ls) := by
  have hself {t : List Char} {ms : List Lexeme} (ht : WordEnds t) (h : Reads t ms) :
      Reads ('s' :: 'e' :: 'l' :: 'f' :: t) (lexemesAll SimplePath.self.tokens ++ ms) :=
    reads_path .self (by decide) ht h
  rcases a with (i | n) | _
  · have hdot := Reads.punct (c := '.') (by decide) (Reads.word i hs.wordEnds h)
    rw [startsPunct_word] at hdot
    have hr := hself (.cons _) hdot
    simpa [code, FieldKey.code, tokens, Tokens.op, Tokens.word, ofOperator, lexemesAll, lexemes]
      using hr
  · have hdot := Reads.punct (c := '.') (by decide) (Reads.number n hs h)
    rw [startsPunct_number] at hdot
    have hr := hself (.cons _) hdot
    simpa [code, FieldKey.code, tokens, Tokens.op, ofOperator, lexemesAll, lexemes] using hr
  · have hg := Reads.opening (hself (.cons _) (Reads.closing h))
    have hr := reads_path runtime.identityHash (by simp [CratePath.identityHash]) (.cons _) hg
    rw [runtime.text_identityHash] at hr
    simpa [code, tokens, Tokens.group, lexemesAll, lexemes] using hr

end PrintArg

namespace Tokens

def CommaFree (ts : Tokens) : Prop := ∀ t ∈ ts, ∀ j, t ≠ .leaf (.punct ',' j)

theorem splitCommas_append {ts : Tokens} (h : CommaFree ts) (r : Tokens) :
    splitCommas (ts ++ (op "," ++ r)) = ts :: splitCommas r := by
  induction ts with
  | nil => rfl
  | cons t ts ih =>
    rw [List.cons_append, splitCommas.eq_3 _ _ fun j => h t (by simp) j,
      ih fun u hu => h u (by simp [hu])]

theorem splitCommas_eq_singleton {ts : Tokens} (h : CommaFree ts) : splitCommas ts = [ts] := by
  induction ts with
  | nil => rfl
  | cons t ts ih =>
    rw [splitCommas.eq_3 _ _ fun j => h t (by simp) j, ih fun u hu => h u (by simp [hu])]

theorem CommaFree.append {ts us : Tokens} (ht : CommaFree ts) (hu : CommaFree us) :
    CommaFree (ts ++ us) := fun t h => (List.mem_append.1 h).elim (ht t) (hu t)

theorem commaFree_path (p : SimplePath) (hp : p.segments ≠ []) : CommaFree p.tokens := by
  obtain ⟨leading, segments⟩ := p
  obtain ⟨i, is, rfl⟩ := List.exists_cons_of_ne_nil hp
  rw [SimplePath.tokens, joinSegments_eq]
  refine .append (by cases leading <;> simp [CommaFree, op, ofOperator]) (.append ?_ ?_)
  · simp [CommaFree, word]
  · intro t ht
    obtain ⟨j, -, ht⟩ := List.mem_flatMap.1 ht
    have ht : t ∈ [.leaf (.punct ':' true), .leaf (.punct ':' false), .leaf (.word j)] := ht
    simp only [List.mem_cons, List.not_mem_nil, or_false] at ht
    rcases ht with rfl | rfl | rfl <;> simp

theorem commaFree_printArg (runtime : CratePath) (a : PrintArg) : CommaFree (a.tokens runtime) := by
  rcases a with (i | n) | _
  · exact .append (commaFree_path .self (by decide)) (by simp [CommaFree, op, ofOperator, word])
  · exact .append (commaFree_path .self (by decide)) (by simp [CommaFree, op, ofOperator])
  · exact .append (commaFree_path _ (by simp [CratePath.identityHash])) (by simp [CommaFree, group])

theorem splitCommas_args (runtime : CratePath) {ts : Tokens} (h : CommaFree ts)
    (as : List PrintArg) :
    splitCommas (ts ++ as.flatMap fun a => op "," ++ a.tokens runtime) =
      ts :: as.map (PrintArg.tokens runtime) := by
  induction as generalizing ts with
  | nil => rw [List.flatMap_nil, List.append_nil, splitCommas_eq_singleton h, List.map_nil]
  | cons a as ih =>
    rw [List.flatMap_cons, List.append_assoc, splitCommas_append h,
      ih (commaFree_printArg runtime a), List.map_cons]

end Tokens

namespace Printing

variable (runtime : CratePath)

/-- The text of arguments, each behind a comma. -/
def argsText (as : List PrintArg) : String := String.join (as.map fun a => ", " ++ a.code runtime)

theorem numberEnds_argsText (as : List PrintArg) :
    NumberEnds ((argsText runtime as).toList ++ ')' :: s) := by
  cases as with
  | nil => exact ⟨')', s, rfl, .inr rfl⟩
  | cons a as =>
    refine ⟨',', ' ' :: ((a.code runtime).toList ++ ((argsText runtime as).toList ++ ')' :: s)), ?_,
      .inl rfl⟩
    simp [argsText]

theorem reads_argsText (as : List PrintArg) (h : Reads s ls) :
    Reads ((argsText runtime as).toList ++ ')' :: s)
      (lexemesAll (as.flatMap fun a => Tokens.op "," ++ a.tokens runtime) ++
        .closing .paren :: ls) := by
  induction as with
  | nil => exact .closing h
  | cons a as ih =>
    have ha := a.reads_code runtime (numberEnds_argsText runtime as) ih
    have hc := Reads.punct (c := ',') (by decide) ha.space
    have hp : startsPunct (' ' :: ((a.code runtime).toList ++
        ((argsText runtime as).toList ++ ')' :: s))) = false := rfl
    rw [hp] at hc
    simpa [argsText, Tokens.op, ofOperator, lexemesAll, lexemes] using hc

theorem mapM_ofTokens?_tokens (as : List PrintArg) :
    (as.map (PrintArg.tokens runtime)).mapM (PrintArg.ofTokens? runtime) = some as := by
  induction as with
  | nil => rfl
  | cons a as ih => simp [PrintArg.ofTokens?_tokens, ih]

/-- A format text with its arguments reads as its pieces and the arguments. -/
theorem ofText?_format {t : String} (ht : ∀ c ∈ t.toList, isPlain c = true)
    {pieces : List FormatPiece} (hp : FormatPiece.ofText? t.toList = some pieces)
    (as : List PrintArg) :
    ofText? runtime ("::std::format!(\"" ++ t ++ "\"" ++ argsText runtime as ++ ")") =
      some (.format pieces as) := by
  have hends : ∀ c ∈ ((argsText runtime as).toList ++ [')']).head?, isIdentStart c = false := by
    obtain ⟨c, r, hr, hc⟩ := numberEnds_argsText (s := []) runtime as
    rw [hr]
    rintro d hd
    obtain rfl : c = d := by simpa using hd
    rcases hc with rfl | rfl <;> rfl
  have hstr := Reads.string ht hends (reads_argsText runtime as Reads.nil)
  have hbang := Reads.punct (c := '!') (by decide) (Reads.opening hstr)
  rw [startsPunct_eq_false (by decide)] at hbang
  have hr := reads_path .format (by decide) (.cons _) hbang
  have htree : TokenTree.ofText?
      ("::std::format!(\"" ++ t ++ "\"" ++ argsText runtime as ++ ")").toList =
      some (SimplePath.format.tokens ++ (Tokens.op "!" ++ Tokens.group .paren
        ([.leaf (quoted t.toList)] ++ as.flatMap fun a => Tokens.op "," ++ a.tokens runtime))) := by
    have htext : ("::std::format!(\"" ++ t ++ "\"" ++ argsText runtime as ++ ")").toList =
        SimplePath.format.text.toList ++ '!' :: '(' :: '"' ::
          (t.toList ++ '"' :: ((argsText runtime as).toList ++ [')'])) := by
      have hf : SimplePath.format.text.toList = "::std::format".toList := by decide
      simp [hf]
    refine TokenTree.ofText?_of_reads ?_ ?_
    · rw [htext]
      rfl
    · rw [htext]
      simpa [Tokens.op, Tokens.group, ofOperator, lexemesAll, lexemes] using hr
  have hfree : Tokens.CommaFree [.leaf (quoted t.toList)] := by simp [Tokens.CommaFree, quoted]
  have hargs := Tokens.splitCommas_args runtime hfree as
  rw [ofText?, htree, Option.bind_some, ofTokens?,
    Tokens.optionName_path _ (by decide) fun _ _ => by simp [Tokens.op, ofOperator]]
  show (if SimplePath.format = .format then _ else _) = _
  simp only [if_true, hargs]
  simp only [quoted, stringValue_quoted ht, hp, mapM_ofTokens?_tokens, Option.bind_eq_bind,
    Option.bind_some]
  rfl

/-- A text without placeholders reads as itself. -/
theorem ofText?_constant {t : String} (ht : ∀ c ∈ t.toList, isPlain c = true) :
    ofText? runtime ("::std::string::String::from(\"" ++ t ++ "\")") =
      some (.constant t.toList) := by
  have hends : ∀ c ∈ [')'].head?, isIdentStart c = false := by
    rintro c ⟨⟩
    rfl
  have hstr := Reads.string ht hends (Reads.closing .nil)
  have hr := reads_path .stringFrom (by decide) (.cons _) (Reads.opening hstr)
  have htree : TokenTree.ofText? ("::std::string::String::from(\"" ++ t ++ "\")").toList =
      some (SimplePath.stringFrom.tokens ++ Tokens.group .paren [.leaf (quoted t.toList)]) := by
    have htext : ("::std::string::String::from(\"" ++ t ++ "\")").toList =
        SimplePath.stringFrom.text.toList ++ '(' :: '"' :: (t.toList ++ ['"', ')']) := by
      have hf : SimplePath.stringFrom.text.toList = "::std::string::String::from".toList := by
        decide
      simp [hf]
    refine TokenTree.ofText?_of_reads ?_ ?_
    · rw [htext]
      rfl
    · rw [htext]
      simpa [Tokens.group, lexemesAll, lexemes] using hr
  rw [ofText?, htree, Option.bind_some, ofTokens?,
    Tokens.optionName_path _ (by decide) fun _ _ => by simp [Tokens.group]]
  show (if SimplePath.stringFrom = .stringFrom then
    (Literal.stringValue ⟨.string, '"' :: (t.toList ++ ['"'])⟩).map constant else none) = _
  rw [if_pos rfl, stringValue_quoted ht, Option.map_some]

end Printing

end SanitizeGen
