import DoubleDispatch.Text.Slice

/-!
# Locations

A location names a place in a file as people do: by line and column, both counted from one, where
columns count characters and not bytes.
-/

namespace DoubleDispatch

/-- A line and a column of a named file. -/
structure Location where
  path : String
  line : Nat
  column : Nat
deriving DecidableEq, Repr, Inhabited

namespace Location

/-- The location that follows a text: one line more than it has line breaks, and one column more
than it has characters after the last of them. -/
def after (path : String) (before : List Char) : Location where
  path := path
  line := before.count '\n' + 1
  column := (before.reverse.takeWhile (· != '\n')).length + 1

/-- The location of a byte offset. -/
def ofOffset (path : String) (source : String) (offset : Nat) : Location :=
  after path (Text.takeBytes offset source.toList)

/-- A location as `path:line:column`. -/
def display (l : Location) : String := s!"{l.path}:{l.line}:{l.column}"

end Location

end DoubleDispatch
