import DoubleDispatch.FileTree

/-!
# Where a path leads

A path is followed step by step from the root or from the working directory. Every step starts at
a directory: through a file there is no way on, and a link is replaced by its target.
-/

namespace DoubleDispatch

/-- Where a path leads. -/
inductive Resolution where
  | file (place : Place) (text? : Option String)
  | directory (place : Place)
  /-- Nothing stands there, but a file could: the directory for it exists. -/
  | vacant (place : Place)
  /-- A directory on the way does not exist. -/
  | missing
  /-- The way goes through a file, through too many links, or to a name that no file can have. -/
  | blocked
deriving DecidableEq, Repr, Inhabited

namespace FileTree

/-- The number of links that are followed on one way. -/
def linkLimit : Nat := 40

/-- Whether a file can have a name: it is not too long and holds no zero character. -/
def mayBeName (name : String) : Bool := name.utf8ByteSize ≤ 255 && !name.toList.contains '\x00'

/-- Follows the parts of a path from a directory. -/
def resolveFrom (t : FileTree) (links : Nat) (d : Place) : List String → Resolution
  | [] => .directory d
  | part :: parts =>
    if part = "" ∨ part = "." then resolveFrom t links d parts
    else if part = ".." then resolveFrom t links d.dropLast parts
    else
      match t.get? (d ++ [part]) with
      | none =>
        if !mayBeName part then .blocked
        else if parts.isEmpty then .vacant (d ++ [part])
        else .missing
      | some .directory => resolveFrom t links (d ++ [part]) parts
      | some (.file text?) => if parts.isEmpty then .file (d ++ [part]) text? else .blocked
      | some (.link target) =>
        match links with
        | 0 => .blocked
        | links + 1 =>
          resolveFrom t links (if target.isAbsolute then [] else d) (target.segments ++ parts)
termination_by parts => (links, parts.length)

/-- The directory that a path starts from. -/
def start (t : FileTree) (p : Path) : Place := if p.isAbsolute then [] else t.current

/-- Where a path leads. The empty path leads nowhere. -/
def resolve (t : FileTree) (p : Path) : Resolution :=
  if p.text = "" then .missing else t.resolveFrom linkLimit (t.start p) p.segments

/-- Whether a path leads to a file. -/
def isFile (t : FileTree) (p : Path) : Bool := t.resolve p matches .file ..

/-- Whether a path leads to a directory. -/
def isDirectory (t : FileTree) (p : Path) : Bool := t.resolve p matches .directory _

/-- The place of the file or directory that a path leads to. -/
def place? (t : FileTree) (p : Path) : Option Place :=
  match t.resolve p with
  | .file place _ | .directory place => some place
  | _ => none

/-- The text of the file that a path leads to. -/
def read? (t : FileTree) (p : Path) : Option String :=
  match t.resolve p with
  | .file _ text? => text?
  | _ => none

/-- Where a name in a directory leads. -/
def resolveChild (t : FileTree) (d : Place) (name : String) : Resolution :=
  t.resolveFrom linkLimit d [name]

end FileTree

end DoubleDispatch
