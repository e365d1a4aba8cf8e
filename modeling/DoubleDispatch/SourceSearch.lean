import DoubleDispatch.FileTree.Resolution
import DoubleDispatch.Toolkit

/-!
# The search for sources

Sources are found in the files and directories that are named. A directory is searched with all that
is below it, but for the directories that builds write to, and for the output directory. Generated
files are told by their names, and are no sources wherever they are.
-/

namespace DoubleDispatch

/-- Why the search for sources fails. -/
inductive SearchError where
  | badPattern (pattern message : String)
  | missingPath (path : Path)
deriving DecidableEq, Repr, Inhabited

/-- The wording of an error. -/
def SearchError.message : SearchError → String
  | badPattern pattern message => "invalid exclude pattern '" ++ pattern ++ "': " ++ message
  | missingPath path => "path does not exist: " ++ path.text

namespace SourceSearch

/-- Whether a file with the given name is a source: its extension says so, and what stands before
does not end with the mark of generated files. -/
def isSourceName (name : List Char) : Bool :=
  FileName.hasExtension "cs" name && !FileName.hasExtension "g" (FileName.stem name)

/-- The names of directories that are not searched. -/
def skippedNames : List String := ["bin", "obj", ".git", "target", "node_modules"]

/-- Whether the last name of a path is that of a source. -/
def isSource (p : Path) : Bool := p.name?.any fun name ↦ isSourceName name.toList

/-- Whether one of the patterns matches a path or its last name. -/
def isExcluded (patterns : List (String → Bool)) (p : Path) : Bool :=
  patterns.any fun accepts ↦ accepts p.text || p.name?.any accepts

/-- Whether a path goes through a directory that is not searched, on its way from `root`. -/
def isSkipped (root p : Path) : Bool :=
  (p.stepsBehind root).any fun step ↦
    match step with
    | .name name => skippedNames.contains name
    | _ => false

/-- Whether a path below `root` is one that is looked for. -/
def isWanted (patterns : List (String → Bool)) (root p : Path) : Bool :=
  isSource p && !isSkipped root p && !isExcluded patterns p

/-- Whether a path leads to something that is not in the output directory. -/
def isOutside (t : FileTree) (output? : Option Place) (p : Path) : Bool :=
  !output?.any fun output ↦ (t.place? p).any (output.isPrefixOf ·)

variable (tools : Toolkit)

/-- Reads patterns; the first that is none decides. -/
def readPatterns (patterns : List String) : Except SearchError (List (String → Bool)) :=
  patterns.mapM fun pattern ↦
    match tools.pattern pattern with
    | .ok accepts => .ok accepts
    | .error message => .error (.badPattern pattern message)

/-- The sources that a path names. -/
def sourcesOf (t : FileTree) (patterns : List (String → Bool)) (output? : Option Place) (p : Path) :
    Except SearchError (List Path) :=
  match t.resolve p with
  | .file .. => .ok (if isSource p && !isExcluded patterns p then [p] else [])
  | .directory _ =>
    .ok ((tools.entries t p).filter fun q ↦
      t.isFile q && isWanted patterns p q && isOutside t output? q)
  | _ => .error (.missingPath p)

/-- The list without paths that have the same steps as the path before them. -/
def dropRepeated : List Path → List Path
  | [] => []
  | [p] => [p]
  | p :: q :: ps =>
    if p.sameSteps q then dropRepeated (p :: ps) else p :: dropRepeated (q :: ps)
termination_by ps => ps.length

/-- All sources that the paths name, each once, in the order of paths. -/
def find (t : FileTree) (paths : List Path) (exclude : List String) (output : Path) :
    Except SearchError (List Path) := do
  let patterns ← readPatterns tools exclude
  let found ← paths.mapM (sourcesOf tools t patterns (t.place? output))
  return dropRepeated (found.flatten.mergeSort Path.le)

end SourceSearch

end DoubleDispatch
