import DoubleDispatch.Text.Split
import DoubleDispatch.Yaml.Cursor

/-!
# Block scalars of YAML

A block scalar is made of the indented lines behind its header, as they are or folded. The header
says how deep they are indented, if their first line does not, and what becomes of the line breaks
at the end.
-/

namespace DoubleDispatch.Yaml

/-- What becomes of the line breaks at the end of a block scalar. -/
inductive Chomping where
  | strip
  | clip
  | keep
deriving DecidableEq, Repr, Inhabited

/-- The header of a block scalar. -/
structure BlockHeader where
  folded : Bool
  indent? : Option Nat
  chomping : Chomping
deriving Repr, Inhabited

namespace BlockHeader

/-- The header with a mark of how line breaks at the end are treated, or of the indentation. -/
def mark? (header : BlockHeader) (c : Char) : Option BlockHeader :=
  if c = '-' ∧ header.chomping = .clip then some { header with chomping := .strip }
  else if c = '+' ∧ header.chomping = .clip then some { header with chomping := .keep }
  else if c.isDigit ∧ c ≠ '0' ∧ header.indent? = none then
    some { header with indent? := some (c.toNat - '0'.toNat) }
  else none

/-- Reads a header. What follows its marks on the line may only be a comment. -/
def read? (s : List Char) : Option (BlockHeader × List Char) :=
  match s with
  | c :: s => do
    let marks := s.takeWhile fun c ↦ !Cursor.isBreakAhead [c]
    let header ← marks.foldlM mark? ⟨c = '>', none, .clip⟩
    let s := (s.drop marks.length).dropWhile isSpace
    match s with
    | [] => some (header, [])
    | '\n' :: s => some (header, s)
    | '#' :: s => some (header, (s.dropWhile (· ≠ '\n')).tail)
    | _ => none
  | [] => none

end BlockHeader

/-- The number of spaces at the start of a line. -/
def indentation (line : List Char) : Nat := (line.takeWhile (· = ' ')).length

/-- Whether a line has nothing but spaces. -/
def isEmptyLine (line : List Char) : Bool := line.all (· = ' ')

/-- What stands between two lines of a block scalar with `empty` empty lines between them. Where
neither line starts with a blank, folding takes one line break away. -/
def blockBreak (folded : Bool) (before after : List Char) (empty : Nat) : List Char :=
  if folded ∧ ¬before.head?.any isSpace ∧ ¬after.head?.any isSpace then foldBreaks (empty + 1)
  else List.replicate (empty + 1) '\n'

/-- Joins the lines of a block scalar. The numbers count empty lines. -/
def joinBlock (header : BlockHeader) (before : List Char) (empty : Nat) :
    List (List Char) → List Char
  | [] =>
    match header.chomping with
    | .strip => []
    | .clip => ['\n']
    | .keep => List.replicate (empty + 1) '\n'
  | line :: lines =>
    if line.isEmpty then joinBlock header before (empty + 1) lines
    else blockBreak header.folded before line empty ++ line ++ joinBlock header line 0 lines

/-- The text that the lines of a block scalar make. -/
def blockText (header : BlockHeader) (lines : List (List Char)) : List Char :=
  let empty := (lines.takeWhile (·.isEmpty)).length
  match lines.drop empty with
  | [] => if header.chomping = .keep then List.replicate empty '\n' else []
  | line :: lines => List.replicate empty '\n' ++ line ++ joinBlock header line 0 lines

/-- The depth of the lines of a block scalar: what its header says, or that of its first line with
text, but no less than the least column. -/
def BlockHeader.depth (header : BlockHeader) (least : Nat) (lines : List (List Char)) : Nat :=
  match header.indent? with
  | some n => least - 1 + n
  | none => max 1 (max least (((lines.find? (!isEmptyLine ·)).map indentation).getD 0))

/-- Reads a block scalar whose lines are indented to at least a column. The last line of a text
that does not end with a line break has none that could be kept. -/
def blockScalar? (least : Nat) (s : List Char) : Option (String × Cursor) := do
  let (header, s) ← BlockHeader.read? s
  let lines := Text.split '\n' s
  let depth := header.depth least lines
  let own := lines.takeWhile fun line ↦ isEmptyLine line || depth ≤ indentation line
  let text :=
    if own.length < lines.length then blockText header (own.map (·.drop depth))
    else if own.getLast? = some [] then blockText header (own.dropLast.map (·.drop depth))
    else blockText { header with chomping := .strip } (own.map (·.drop depth))
  let rest := ['\n'].intercalate (lines.drop own.length)
  return (String.ofList text, (Cursor.skip false 0 rest true).1)

end DoubleDispatch.Yaml
