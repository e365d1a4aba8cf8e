import DoubleDispatch.Yaml.Cursor
import DoubleDispatch.Yaml.Node

/-!
# Plain scalars and collections in brackets

A plain scalar ends at a mark of the structure around it: a colon before a blank, a comment, the
end of its line or lines, and between brackets also a comma or a bracket.
-/

namespace DoubleDispatch.Yaml

/-! ### Plain scalars -/

/-- Whether a character is a comma or a bracket. -/
def isFlowMark (c : Char) : Bool :=
  c = ',' || c = '[' || c = ']' || c = '\x7b' || c = '\x7d'

/-- Whether a plain scalar can start with a text. -/
def startsPlain (inside : Bool) : List Char → Bool
  | [] => false
  | c :: s =>
    if c = '-' then !Cursor.isBreakAhead s
    else if c = '?' ∨ c = ':' then !inside && !Cursor.isBreakAhead s
    else !isFlowMark c && !Cursor.isBreakAhead [c] &&
      !"#&*!|>%@`\"'".toList.contains c

/-- Where a plain scalar stands. -/
structure PlainScope where
  /-- Whether it stands between brackets. -/
  inside : Bool
  /-- The least column of its further lines; none if it has to end on its first line. -/
  furtherLines? : Option Nat
deriving Repr, Inhabited

/-- What was read of a plain scalar: its characters so far, reversed, the text behind the last of
them, and the blanks and line breaks since. -/
structure PlainState where
  characters : List Char
  behind : List Char
  blanks : List Char
  breaks : Nat
  column : Nat
deriving Repr, Inhabited

namespace PlainState

/-- The scalar and the text behind it. -/
def result (state : PlainState) : String × List Char :=
  (String.ofList state.characters.reverse, state.behind)

/-- One more character of the scalar, behind what stands for the blanks before it. -/
def add (state : PlainState) (c : Char) (behind : List Char) : PlainState :=
  let gap := if state.breaks = 0 then state.blanks else (foldBreaks state.breaks).reverse
  ⟨c :: (gap ++ state.characters), behind, [], 0, state.column + 1⟩

end PlainState

/-- Reads on in a plain scalar. Between brackets, a colon right before a comma or a bracket is an
error. -/
def plainRest? (scope : PlainScope) (state : PlainState) :
    List Char → Option (String × List Char)
  | [] => some state.result
  | c :: s =>
    if c = '\n' then
      if scope.furtherLines?.isNone then some state.result
      else plainRest? scope { state with blanks := [], breaks := state.breaks + 1, column := 0 } s
    else if isSpace c then
      plainRest? scope { state with blanks := c :: state.blanks, column := state.column + 1 } s
    else if state.breaks > 0 ∧ ¬scope.inside ∧ state.column < scope.furtherLines?.getD 0 then
      some state.result
    else if c = '#' ∧ (state.breaks > 0 ∨ !state.blanks.isEmpty) then some state.result
    else if c = ':' ∧ Cursor.isBreakAhead s then some state.result
    else if c = ':' ∧ scope.inside ∧ s.head?.any (fun d ↦ isFlowMark d || d = '?') then none
    else if scope.inside && isFlowMark c then some state.result
    else plainRest? scope (state.add c s) s

/-- Reads a plain scalar. -/
def plain? (scope : PlainScope) (s : List Char) : Option (String × List Char) :=
  if startsPlain scope.inside s then plainRest? scope ⟨[], s, [], 0, 0⟩ s else none

/-! ### Between brackets -/

/-- The text of a node that can be a key. -/
def Node.key? : Node → Option String
  | plain s | quoted s => some s
  | _ => none

/-- A tag or an anchor, and what follows it. -/
def property (s : List Char) : String × List Char :=
  let name := s.takeWhile fun c ↦ !Cursor.isBreakAhead [c] && !isFlowMark c
  (String.ofList name, s.drop name.length)

/-- A scalar in quotes, and what follows it. -/
def quotedScalar? : List Char → Option (String × List Char)
  | '"' :: s => (doubleQuoted [] [] s).map fun (text, s) ↦ (String.ofList text, s)
  | '\'' :: s => (singleQuoted [] s).map fun (text, s) ↦ (String.ofList text, s)
  | _ => none

mutual

/-- Reads a node between brackets. The number bounds the depth of the search. -/
def flowNode? : Nat → List Char → Option (Node × List Char)
  | 0, _ => none
  | depth + 1, s =>
    match s with
    | '[' :: s => flowList? depth [] (Cursor.skipInside s)
    | '\x7b' :: s => flowTable? depth [] (Cursor.skipInside s)
    | '!' :: _ => do
      let (tag, s) := property s
      let (node, s) ← flowValue? depth (Cursor.skipInside s)
      return (.tagged tag node, s)
    | '&' :: _ => flowValue? depth (Cursor.skipInside (property s).2)
    | s =>
      match quotedScalar? s with
      | some (text, s) => some (.quoted text, s)
      | none => (plain? ⟨true, some 0⟩ s).map fun (text, s) ↦ (.plain text, s)

/-- Reads a node that may be left out. -/
def flowValue? : Nat → List Char → Option (Node × List Char)
  | 0, _ => none
  | depth + 1, s =>
    if s.head?.any (fun c ↦ c = ',' || c = ']' || c = '\x7d') then some (.plain "", s)
    else flowNode? depth s

/-- Reads what stands behind a key: a colon and a node, or nothing. -/
def flowPair? : Nat → List Char → Option (Option Node × List Char)
  | 0, _ => none
  | depth + 1, s =>
    match Cursor.skipInside s with
    | ':' :: s => do
      let (node, s) ← flowValue? depth (Cursor.skipInside s)
      return (some node, Cursor.skipInside s)
    | s => some (none, s)

/-- Reads on in a list, whose nodes so far are reversed. -/
def flowList? : Nat → List Node → List Char → Option (Node × List Char)
  | 0, _, _ => none
  | depth + 1, nodes, s =>
    if s.head? = some ']' then some (.list nodes.reverse, s.tail)
    else do
      let (node, s) ← flowNode? depth s
      let (value?, s) ← flowPair? depth s
      let node ← match value? with
        | some value => node.key?.map fun key ↦ Node.table [(key, value)]
        | none => some node
      match s with
      | ',' :: s => flowList? depth (node :: nodes) (Cursor.skipInside s)
      | ']' :: s => some (.list (node :: nodes).reverse, s)
      | _ => none

/-- Reads on in a table, whose fields so far are reversed. -/
def flowTable? : Nat → List (String × Node) → List Char → Option (Node × List Char)
  | 0, _, _ => none
  | depth + 1, fields, s =>
    if s.head? = some '\x7d' then some (.table fields.reverse, s.tail)
    else do
      let (node, s) ← flowNode? depth s
      let key ← node.key?
      let (value?, s) ← flowPair? depth s
      let fields := (key, value?.getD (.plain "")) :: fields
      match s with
      | ',' :: s => flowTable? depth fields (Cursor.skipInside s)
      | '\x7d' :: s => some (.table fields.reverse, s)
      | _ => none

end

/-- Reads a collection in brackets. Every step of the search goes over a character, but for two at
each of them. -/
def flowCollection? (s : List Char) : Option (Node × List Char) :=
  flowNode? (3 * (s.length + 1)) s

end DoubleDispatch.Yaml
