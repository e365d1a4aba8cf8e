import DoubleDispatch.FileTree.Resolution

/-!
# Changing files

Directories are made with all their missing parents, files are written through links, and files
are removed by name from one directory. Two trees are compared by the edits that lead from one to
the other.
-/

namespace DoubleDispatch

/-- Why a directory is not made. -/
inductive MakeFault where
  /-- The directory that should hold it does not exist. -/
  | missing
  /-- Something stands there, nothing can stand there, or the way there goes through a file. -/
  | refused
deriving DecidableEq, Repr, Inhabited

namespace FileTree

/-- Makes one directory. Slashes at the end of the path do not count. -/
def makeDirectory (t : FileTree) (p : Path) : Except MakeFault FileTree :=
  let parts := (p.segments.reverse.dropWhile (· = "")).reverse
  match parts.getLast? with
  | none => .error .refused
  | some name =>
    match t.resolveFrom linkLimit (t.start p) parts.dropLast with
    | .directory d =>
      if name = "." ∨ name = ".." then .error .refused
      else if (t.get? (d ++ [name])).isSome || !mayBeName name then .error .refused
      else .ok (t.set (d ++ [name]) .directory)
    | .file .. | .blocked => .error .refused
    | .vacant _ | .missing => .error .missing

/-- Makes the first of the paths a directory. Each path is the parent of the one before, and is
made too if it is missing. The answer tells whether the first path leads to a directory then. -/
def makeLineage (t : FileTree) : List Path → FileTree × Bool
  | [] => (t, false)
  | p :: parents =>
    if p.text = "" then (t, true)
    else
      match t.makeDirectory p with
      | .ok made => (made, true)
      | .error .refused => (t, t.isDirectory p)
      | .error .missing =>
        match makeLineage t parents with
        | (t, false) => (t, false)
        | (t, true) =>
          match t.makeDirectory p with
          | .ok made => (made, true)
          | .error _ => (t, t.isDirectory p)

/-- Makes a directory with its missing parents. The empty path stands for the working directory,
which is there. -/
def makeDirectories (t : FileTree) (p : Path) : FileTree × Bool := t.makeLineage p.lineage

/-- Writes the file that a path leads to, or would lead to. -/
def write? (t : FileTree) (p : Path) (text : String) : Option FileTree :=
  match t.resolve p with
  | .file place _ | .vacant place => some (t.set place (.file (some text)))
  | _ => none

/-- Removes the files in the directory at a place whose names are chosen. Of a link to a file, the
link is removed. -/
def removeFiles (t : FileTree) (d : Place) (chosen : String → Bool) : FileTree :=
  let names := (t.children d).filter fun name ↦
    chosen name && (t.resolveChild d name matches .file ..)
  names.foldl (fun t name ↦ t.erase (d ++ [name])) t

end FileTree

/-! ### Differences -/

/-- A single change to what stands at a place. -/
inductive Edit where
  | makeDirectory (place : Place)
  | writeFile (place : Place) (text : String)
  | remove (place : Place)
deriving DecidableEq, Repr, Inhabited

namespace FileTree

/-- The edits that lead to a tree that a command left: removals first, then directories, parents
before what they hold, then files. -/
def edits (before after : FileTree) : List Edit :=
  let removed := before.entries.filterMap fun (p, _) ↦
    if (after.get? p).isNone then some (.remove p) else none
  let changed := after.entries.filter fun (p, e) ↦ before.get? p != some e
  let directories := changed.filterMap fun (p, e) ↦
    match e with
    | .directory => some p
    | _ => none
  let files := changed.filterMap fun (p, e) ↦
    match e with
    | .file (some text) => some (.writeFile p text)
    | _ => none
  removed ++ (directories.mergeSort (·.length ≤ ·.length)).map .makeDirectory ++ files

end FileTree

end DoubleDispatch
