import SanitizeGen.Source.Reader.Item
import SanitizeGen.Token.Lexer

/-!
# Reading sources

`Rules.nested n` is the grammar up to `n` calls deep. A call that goes `n` deep has taken trees from
the list or gone into a group at least every fourth time, so that `Rules.sufficient` is deep enough
for any given trees. The readers that other modules use are stated here.
-/

namespace SanitizeGen

open Text Token

namespace Rules

/-- The rules in terms of one another, one call deeper than `g`. -/
def deepen (g : Rules) : Rules where
  type := g.typeRule
  segment := g.pathSegment false
  unary := g.unaryRule
  binary := g.binaryRule
  leading := g.leadingRule
  pattern := g.patternRule
  statements := g.statementsRule
  item := g.itemRule
  imports := g.importsRule

/-- The rules up to `n` calls deep. -/
def nested : Nat → Rules
  | 0 => none
  | n + 1 => (nested n).deepen

/-- Rules deep enough for the trees `ts`. -/
def sufficient (ts : Tokens) : Rules :=
  nested (4 * TokenTree.sizeAll ts + 8)

end Rules

/-- The one struct, enum or union that the trees are. -/
def DataItem.ofTokens? (ts : Tokens) : Option DataItem :=
  Reader.readAll? (Rules.sufficient ts).dataItem ts

/-- The one struct, enum or union that a text is. -/
def DataItem.ofText? (s : List Char) : Option DataItem :=
  (TokenTree.ofText? s).bind DataItem.ofTokens?

/-- The one attribute content that the trees are. -/
def Meta.ofTokens? (ts : Tokens) : Option Meta :=
  Reader.readAll? (Rules.sufficient ts).attrContent ts

/-- The attribute contents that the trees are, with commas between them and perhaps one at the
end. -/
def Meta.listOfTokens? (ts : Tokens) : Option (List Meta) :=
  (Reader.readAll? (Reader.separated List.isEmpty (Rules.sufficient ts).attrContent
    (Reader.op ",")) ts).map (·.map (·.1))

/-- A list holds more tokens than the lists inside it. -/
theorem Meta.size_lt_of_mem_listOfTokens? {ts : Tokens} {ms : List Meta} {m : Meta}
    (h : Meta.listOfTokens? ts = some ms) (hm : m ∈ ms) : m.size < TokenTree.sizeAll ts + 2 := by
  obtain ⟨found, hfound, rfl⟩ := Option.map_eq_some_iff.1 h
  obtain ⟨x, hx, rfl⟩ := List.mem_map.1 hm
  have hrun : ∃ r, (Reader.separated List.isEmpty (Rules.sufficient ts).attrContent
      (Reader.op ",")).run ts = some (found, r) := by
    unfold Reader.readAll? at hfound
    split at hfound
    · rename_i a hrun
      exact ⟨[], Option.some.inj hfound ▸ hrun⟩
    · cases hfound
  obtain ⟨r, hrun⟩ := hrun
  obtain ⟨s, r', hs, hx⟩ := Reader.exists_run_of_separated hrun hx
  have := (Rules.sufficient ts).size_le_of_attrContent hx
  have := TokenTree.sizeAll_le_of_suffix hs
  omega

/-- The last names of the paths that the trees are, with commas between them and perhaps one at the
end. -/
def Tokens.pathNames? (ts : Tokens) : Option (List Ident) :=
  (Reader.readAll? (Reader.separated List.isEmpty ((Rules.sufficient ts).path false)
    (Reader.op ",")) ts).map
      (·.filterMap fun ((_, segments), _) => segments.getLast?.map Segment.name)

namespace SourceFile

/-- The text without a first line that tells how to run it. A line that starts an attribute is
none. -/
def dropShebang (s : List Char) : List Char :=
  match s with
  | '#' :: '!' :: r =>
    if (skipTrivia r).head? == some '[' then s else s.dropWhile (· != '\n')
  | _ => s

/-- The source file that a text is. -/
def ofText? (s : List Char) : Option SourceFile :=
  (TokenTree.ofText? (dropShebang (Ident.dropMark s))).bind fun ts =>
    Reader.readAll? (Rules.sufficient ts).file ts

end SourceFile

end SanitizeGen
