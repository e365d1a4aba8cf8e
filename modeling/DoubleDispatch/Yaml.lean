import DoubleDispatch.Text.Split
import DoubleDispatch.Yaml.Block

/-!
# YAML documents

A file holds one document, which may stand between a line `---` and a line `...`. The document is a
table, or nothing at all, which stands for a table without fields. Aliases, directives and keys
that are marked with `?` are not read.

The program is run with this reader of a part of YAML; what is proved of runs holds for any other
one too.
-/

namespace DoubleDispatch.Yaml

/-- Whether a character may stand in a document. -/
def isPrintable (c : Char) : Bool :=
  let n := c.toNat
  n = 0x9 || n = 0xa || n = 0xd || (0x20 ≤ n && n ≤ 0x7e) || n = 0x85 || (0xa0 ≤ n && n < 0xfffe) ||
    0x10000 ≤ n

/-- The text with every line break written as a line feed. -/
def unifyBreaks : List Char → List Char
  | [] => []
  | '\r' :: '\n' :: s => '\n' :: unifyBreaks s
  | c :: s => (if c = '\r' ∨ c = '\u0085' then '\n' else c) :: unifyBreaks s

/-- What follows a mark of three equal characters at the start of a line. -/
def afterMark? (c : Char) (line : List Char) : Option (List Char) :=
  if [c, c, c].isPrefixOf line ∧ Cursor.isBreakAhead (line.drop 3) then some (line.drop 3) else none

/-- Whether a line says nothing. -/
def isIdle (line : List Char) : Bool :=
  (line.dropWhile (· = ' ')).head?.all (· = '#')

/-- The lines of the document that starts with the given lines; none if another one follows. -/
def body? (lines : List (List Char)) : Option (List (List Char)) :=
  let own := lines.takeWhile fun line ↦
    (afterMark? '-' line).isNone && (afterMark? '.' line).isNone
  match lines.drop own.length with
  | [] => some own
  | mark :: later =>
    match afterMark? '.' mark with
    | some behind => if isIdle behind && later.all isIdle then some own else none
    | none => none

/-- The text of the only document of a file. It starts on the line of its mark, or behind a line
break. -/
def document? (text : List Char) : Option (List Char) :=
  let lines := (Text.split '\n' text).dropWhile isIdle
  match lines.head?.bind (afterMark? '-') with
  | some behind =>
    (body? lines.tail).map fun own ↦ ['\n'].intercalate (([' ', ' ', ' '] ++ behind) :: own)
  | none => (body? lines).map fun own ↦ ['\n'].intercalate ([] :: own)

/-- Reads a file: the table that it holds. -/
def read? (file : String) : Option LayerValue := do
  let text := match file.toList with
    | '\ufeff' :: s => s
    | s => s
  if !text.all isPrintable then none
  else
    match ← documentNode? (← document? (unifyBreaks text)) with
    | .plain "" => some (.table [])
    | node =>
      match ← node.value? with
      | .table fields => some (.table fields)
      | _ => none

end DoubleDispatch.Yaml
