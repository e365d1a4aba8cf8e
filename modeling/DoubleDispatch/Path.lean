import DoubleDispatch.Text.Split

/-!
# Paths

A path is a text of names between slashes. What it leads to depends on the files that there are;
here stands what can be said of the text alone: the steps that count when two paths are compared,
the order of paths, and the two suffixes of a file name that tell what the file holds.
-/

namespace DoubleDispatch

/-- A path as it was typed. -/
structure Path where
  text : String
deriving DecidableEq, Repr, Inhabited

/-- A step of a path. -/
inductive PathStep where
  /-- The start of an absolute path. -/
  | root
  /-- A `.` at the start of a path. -/
  | current
  /-- A `..`, which leads to the parent. -/
  | parent
  | name (name : String)
deriving DecidableEq, Repr, Inhabited

namespace PathStep

/-- The step that a part between slashes stands for. Empty parts and `.` lead nowhere. -/
def ofSegment? (segment : String) : Option PathStep :=
  if segment = "" ∨ segment = "." then none
  else if segment = ".." then some parent
  else some (name segment)

/-- The part between slashes that a step stands for. -/
def segment : PathStep → String
  | root => ""
  | current => "."
  | parent => ".."
  | name n => n

/-- The place of a step among the kinds of steps. -/
def rank : PathStep → Nat
  | root => 0
  | current => 1
  | parent => 2
  | name _ => 3

/-- The order of steps: by kind, names as texts. -/
def compare (a b : PathStep) : Ordering :=
  (Ord.compare a.rank b.rank).then (Ord.compare a.segment b.segment)

end PathStep

namespace Path

/-- The parts between the slashes, in order. -/
def segments (p : Path) : List String := (Text.split '/' p.text.toList).map String.ofList

/-- Whether a path starts at the root. -/
def isAbsolute (p : Path) : Bool := p.text.toList.head? == some '/'

/-- The steps of a path. Repeated slashes, slashes at the end, and a `.` that is not at the start
make no step. -/
def steps (p : Path) : List PathStep :=
  let inner := p.segments.filterMap PathStep.ofSegment?
  if p.isAbsolute then .root :: inner
  else if p.segments.head? = some "." then .current :: inner
  else inner

/-- The path with the given steps. -/
def ofSteps (steps : List PathStep) : Path :=
  match steps with
  | [.root] => ⟨"/"⟩
  | steps => ⟨"/".intercalate (steps.map PathStep.segment)⟩

/-- The path of a name in the directory that a path leads to. -/
def child (p : Path) (name : String) : Path :=
  if p.text = "" ∨ p.text.toList.getLast? = some '/' then ⟨p.text ++ name⟩
  else ⟨p.text ++ "/" ++ name⟩

/-- The path below `p` that goes through the given names. -/
def descend (p : Path) (names : List String) : Path := names.foldl child p

/-- A path and the paths to its parents, nearest first. Those of a relative path end with the empty
path, those of an absolute path with the root. -/
def lineage (p : Path) : List Path :=
  let steps := p.steps
  let shortest := if p.isAbsolute then 1 else 0
  p :: ((List.range steps.length).filter (shortest ≤ ·)).reverse.map fun n ↦ ofSteps (steps.take n)

/-- Whether one path comes before another or is equal to it, step by step. -/
def le (p q : Path) : Bool := (List.compareLex PathStep.compare p.steps q.steps).isLE

/-- Whether two paths have the same steps. -/
def sameSteps (p q : Path) : Bool := p.steps == q.steps

/-- The steps of a path behind those of another one, or all its steps if it does not start with
those. -/
def stepsBehind (p root : Path) : List PathStep :=
  (root.steps.isPrefixOf? p.steps).getD p.steps

/-- The last name of a path, if it ends with one. -/
def name? (p : Path) : Option String :=
  match p.steps.getLast? with
  | some (.name n) => some n
  | _ => none

end Path

/-! ### File names -/

namespace FileName

/-- A file name without its extension, and the extension: what follows the last dot. A dot at the
very start of a name introduces no extension. -/
def splitExtension (name : List Char) : List Char × Option (List Char) :=
  let suffix := name.reverse.takeWhile (· ≠ '.')
  match name.reverse.drop suffix.length with
  | _ :: c :: before => ((c :: before).reverse, some suffix.reverse)
  | _ => (name, none)

/-- A file name without its extension. -/
def stem (name : List Char) : List Char := (splitExtension name).1

/-- The extension of a file name. -/
def extension? (name : List Char) : Option (List Char) := (splitExtension name).2

/-- Whether a file name has the given extension, however its ASCII letters are capitalised. -/
def hasExtension (extension : String) (name : List Char) : Bool :=
  (extension? name).any fun e ↦ e.map Char.toLower == extension.toList.map Char.toLower

end FileName

end DoubleDispatch
