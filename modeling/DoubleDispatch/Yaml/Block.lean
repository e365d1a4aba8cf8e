import DoubleDispatch.Yaml.Flow
import DoubleDispatch.Yaml.Literal

/-!
# Collections of YAML by indentation

The entries of a list and the fields of a table stand in one column. What belongs to them stands
further to the right, but for a list that belongs to a field, which may stand in the field's column.
-/

namespace DoubleDispatch.Yaml

/-- Whether a text starts with the dash of a list entry. -/
def isEntry : List Char → Bool
  | '-' :: s => Cursor.isBreakAhead s
  | _ => false

/-- Reads the key of a field and its colon. Both stand on one line. -/
def fieldKey? (s : List Char) : Option (String × List Char) := do
  let (key, behind) ← match quotedScalar? s with
    | some (key, behind) =>
      if (s.take (s.length - behind.length)).contains '\n' then none else some (key, behind)
    | none => plain? ⟨false, none⟩ s
  match behind.dropWhile isSpace with
  | ':' :: s => if Cursor.isBreakAhead s then some (key, s) else none
  | _ => none

mutual

/-- Reads the node at a cursor, which stands in the column `least` or further right. A table or a
list with dashes can not start on the line of the field that it belongs to. The number bounds the
depth of the search. -/
def blockNode? : Nat → Nat → Bool → Cursor → Option (Node × Cursor)
  | 0, _, _, _ => none
  | depth + 1, least, sameLine, c =>
    match c.rest with
    | [] => some (.plain "", c)
    | '|' :: _ | '>' :: _ =>
      (blockScalar? least c.rest).map fun (text, c) ↦ (.quoted text, c)
    | '[' :: _ | '\x7b' :: _ => do
      let (node, s) ← flowCollection? c.rest
      return (node, ← Cursor.finishLine? s)
    | '!' :: _ => do
      let (tag, s) := property c.rest
      let (node, c) ← blockValue? depth least true (c.column + tag.length) s
      return (.tagged tag node, c)
    | '&' :: _ =>
      let (anchor, s) := property c.rest
      blockValue? depth least true (c.column + anchor.length) s
    | s =>
      if isEntry s then
        if sameLine then none else blockList? depth c.column [] c
      else if (fieldKey? s).isSome then
        if sameLine then none else blockTable? depth c.column [] c
      else do
        let (node, s) ← match quotedScalar? s with
          | some (text, s) => some (Node.quoted text, s)
          | none => (plain? ⟨false, some least⟩ s).map fun (text, s) ↦ (Node.plain text, s)
        return (node, ← Cursor.finishLine? s)

/-- Reads the node behind a mark, on its line or on the next ones. If nothing stands far enough to
the right, the node is empty. -/
def blockValue? : Nat → Nat → Bool → Nat → List Char → Option (Node × Cursor)
  | 0, _, _, _, _ => none
  | depth + 1, least, sameLine, column, s =>
    match Cursor.skip false column s false with
    | (c, crossed) =>
      if crossed && c.column < least then some (.plain "", c)
      else blockNode? depth least (sameLine && !crossed) c

/-- Reads on in a list in a column. -/
def blockList? : Nat → Nat → List Node → Cursor → Option (Node × Cursor)
  | 0, _, _, _ => none
  | depth + 1, column, nodes, c =>
    if c.column = column ∧ isEntry c.rest then
      let s := c.rest.tail
      if (s.dropWhile (· = ' ')).head? = some '\t' then none
      else do
        let (node, c) ← blockValue? depth (column + 1) false (column + 1) s
        blockList? depth column (node :: nodes) c
    else some (.list nodes.reverse, c)

/-- Reads on in a table in a column. -/
def blockTable? : Nat → Nat → List (String × Node) → Cursor → Option (Node × Cursor)
  | 0, _, _, _ => none
  | depth + 1, column, fields, c =>
    if c.rest.isEmpty ∨ c.column < column then some (.table fields.reverse, c)
    else if c.column > column then none
    else do
      let (key, s) ← fieldKey? c.rest
      let ahead := (Cursor.skip false 0 s false).1
      let (node, c) ←
        if ahead.column = column ∧ isEntry ahead.rest ∧ (Cursor.skip false 0 s false).2 then
          blockList? depth column [] ahead
        else blockValue? depth (column + 1) true (column + 1) s
      blockTable? depth column ((key, node) :: fields) c

end

/-- Reads the node of a document, which starts behind its mark or behind a line break. Every step
of the search goes over a character, but for two at each. -/
def documentNode? (s : List Char) : Option Node := do
  let (node, c) ← blockValue? (4 * (s.length + 1)) 0 true 0 s
  if c.rest.isEmpty then some node else none

end DoubleDispatch.Yaml
