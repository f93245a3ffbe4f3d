import SanitizeGen.Token.Literal
import SanitizeGen.Text.Quoted

/-!
# From text to token trees

`TokenTree.ofText?` reads a whole text. Documentation comments become attributes, and delimiters
have to match.
-/

namespace SanitizeGen

open Text Token

/-- What the text holds, before delimiters are matched. -/
inductive Lexeme where
  | token (t : Token)
  | opening (d : Delimiter)
  | closing (d : Delimiter)
  deriving DecidableEq

namespace Lexeme

/-- The characters of operators and separators. -/
def punctuation : List Char :=
  "~!@#$%^&*-=+|;:,<.>/?'".toList

/-- Whether a text starts with punctuation that does not open a comment. -/
def startsPunct : List Char → Bool
  | '/' :: '/' :: _ => false
  | '/' :: '*' :: _ => false
  | c :: _ => punctuation.contains c
  | [] => false

/-- The words before a quote or a hash that only a literal may start with. -/
def literalMarks : List (List Char) :=
  ["r\"", "r#\"", "r##", "b\"", "b'", "br\"", "br#", "c\"", "cr\"", "cr#"].map String.toList

/-- The word at the head of a text. -/
def word? (s : List Char) : Option (Ident × List Char) :=
  if literalMarks.any (·.isPrefixOf s) then none else Ident.take? s

/-- The punctuation at the head of a text; a lifetime if an apostrophe starts one. -/
def punct? : List Char → Option (Token × List Char)
  | '\'' :: r =>
    match Ident.take? r with
    | none => none
    | some (i, rest) =>
      if rest.head? == some '\'' || (rest.head? == some '#' && !i.raw) then none
      else if (Literal.take? r).isSome then some (.punct '\'' true, r)
      else some (.lifetime i, rest)
  | c :: r => if startsPunct (c :: r) then some (.punct c (startsPunct r), r) else none
  | [] => none

/-- The token at the head of a text. -/
def token? (s : List Char) : Option (Token × List Char) :=
  match Literal.take? s with
  | some (l, r) => some (.literal l, r)
  | none =>
    match punct? s with
    | some p => some p
    | none => (word? s).map fun (i, r) => (.word i, r)

/-- The delimiter that a character opens or closes. -/
def ofDelimiter? : Char → Option Lexeme
  | '(' => some (opening .paren)
  | '[' => some (opening .bracket)
  | '\x7b' => some (opening .brace)
  | ')' => some (closing .paren)
  | ']' => some (closing .bracket)
  | '\x7d' => some (closing .brace)
  | _ => none

/-- The text up to the end of the line, and the rest. -/
def takeLine : List Char → List Char × List Char
  | [] => ([], [])
  | '\n' :: r => ([], '\n' :: r)
  | '\r' :: '\n' :: r => ([], '\n' :: r)
  | c :: r => ((c :: (takeLine r).1), (takeLine r).2)

/-- The content of the documentation at the head of a text, whether it is for what surrounds it,
and the rest. -/
def doc? (s : List Char) : Option (List Char × Bool × List Char) :=
  if startsDoc s then
    match s with
    | '/' :: '/' :: c :: r => some ((takeLine r).1, c == '!', (takeLine r).2)
    | '/' :: '*' :: c :: r =>
      (closeComment 0 (c :: r)).map fun rest =>
        (r.take (r.length - rest.length - 2), c == '!', rest)
    | _ => none
  else none

/-- Whether each carriage return stands before a line feed. -/
def carriagesPaired : List Char → Bool
  | [] => true
  | '\r' :: '\n' :: r => carriagesPaired r
  | c :: r => c != '\r' && carriagesPaired r

/-- The attribute that a piece of documentation stands for. -/
def ofDoc (content : List Char) (inner : Bool) : List Lexeme :=
  let single (c : Char) : Lexeme := token (.punct c false)
  (single '#' :: if inner then [single '!'] else []) ++
    [opening .bracket, token (.word ⟨false, "doc", by decide, by decide⟩), single '=',
     token (.literal ⟨.string, commentLiteral content⟩), closing .bracket]

/-- What stands at the head of a text that starts with no trivia, and the rest. -/
def take? (s : List Char) : Option (List Lexeme × List Char) :=
  match doc? s with
  | some (content, inner, r) =>
    if carriagesPaired content then some (ofDoc content inner, r) else none
  | none =>
    match s with
    | [] => none
    | c :: r =>
      match ofDelimiter? c with
      | some d => some ([d], r)
      | none => (token? s).map fun (t, r) => ([token t], r)

/-- All lexemes of a text; none if some part of it is no token. The number of characters bounds the
number of steps. -/
def ofText? (s : List Char) : Option (List Lexeme) :=
  go s.length s
where
  go : Nat → List Char → Option (List Lexeme)
    | fuel, s =>
      match skipTrivia s, fuel with
      | [], _ => some []
      | _, 0 => none
      | s, fuel + 1 =>
        match take? s with
        | some (ls, r) => (go fuel r).map (ls ++ ·)
        | none => none

end Lexeme

namespace TokenTree

/-- The trees of lexemes whose delimiters match. `outer` holds the open groups from the inside out,
each with its trees so far in reverse; `here` holds those of the innermost group. -/
def assemble (outer : List (Delimiter × List TokenTree)) (here : List TokenTree) :
    List Lexeme → Option (List TokenTree)
  | [] => if outer.isEmpty then some here.reverse else none
  | .token t :: r => assemble outer (leaf t :: here) r
  | .opening d :: r => assemble ((d, here) :: outer) [] r
  | .closing d :: r =>
    match outer with
    | (d', before) :: outer =>
      if d = d' then assemble outer (group d here.reverse :: before) r else none
    | [] => none

/-- The token trees of a text, after a byte order mark. -/
def ofText? (s : List Char) : Option (List TokenTree) :=
  (Lexeme.ofText? (Ident.dropMark s)).bind (assemble [] [])

end TokenTree

end SanitizeGen
