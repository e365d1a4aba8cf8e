import DoubleDispatch.Text.Lowercase

/-!
# Names for artifacts

The names taken in one pass. Two names are the same if their lower case is, since generated files
may land where letter case does not count. Who claims a name offers bases from the most to the
least preferred and gets the first that is free; if none is, the last one is numbered, from two on.
-/

namespace DoubleDispatch

/-- The names taken so far, in lower case and latest first, for files with one extension. -/
structure ArtifactNames where
  extension : String
  taken : List String
deriving DecidableEq, Repr, Inhabited

namespace ArtifactNames

/-- No name is taken. -/
def empty (extension : String) : ArtifactNames := ⟨extension, []⟩

/-- The name of the file with the given base. -/
def fileName (names : ArtifactNames) (base : String) : String :=
  base ++ ".g." ++ names.extension

/-- What a base is compared by. -/
def key (names : ArtifactNames) (base : String) : String := Text.toLowercase (names.fileName base)

/-- Whether nobody has taken the name. -/
def isFree (names : ArtifactNames) (base : String) : Bool := !names.taken.contains (names.key base)

/-- The names with one more taken. -/
def take (names : ArtifactNames) (base : String) : ArtifactNames :=
  { names with taken := names.key base :: names.taken }

/-- Takes a name if it is free, and says whether it was. -/
def reserve (names : ArtifactNames) (base : String) : Bool × ArtifactNames :=
  if names.isFree base then (true, names.take base) else (false, names)

/-- The base with a number behind it. -/
def numbered (base : String) (n : Nat) : String := base ++ "." ++ toString n

/-- The numbers that are tried: one more than there are names taken, so that one is free. -/
def numbers (names : ArtifactNames) : List Nat := List.range' 2 (names.taken.length + 1)

/-- The base that a claimant with the given candidates gets. -/
def choose (names : ArtifactNames) (candidates : List String) : String :=
  match candidates.find? names.isFree with
  | some base => base
  | none =>
    let last := candidates.getLast?.getD "artifact"
    let number := (names.numbers.find? fun n ↦ names.isFree (numbered last n)).getD 2
    numbered last number

/-- Takes a name for a claimant and gives the name of the file. -/
def claim (names : ArtifactNames) (candidates : List String) : String × ArtifactNames :=
  let base := names.choose candidates
  (names.fileName base, names.take base)

end ArtifactNames

end DoubleDispatch
