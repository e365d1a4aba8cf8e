import DoubleDispatch.Command
import DoubleDispatch.Toolkit.Standard

/-!
# The program

The outer layer of the command line. It takes a picture of the files that a run may look at, lets
`Command.run` work on the picture with the standard tools, and then does to the disk what the run
did to the picture.
-/

namespace DoubleDispatch.Main

/-! ### Places on the disk -/

/-- The path of a place on the disk. -/
def diskPath (p : Place) : String := "/" ++ "/".intercalate p

/-- The place that a path without links stands for. -/
def placeOf (path : String) : Place := (Path.segments ⟨path⟩).filter (· ≠ "")

/-- The place that a path on the disk leads to through all links, if there is anything. -/
def follow? (p : Place) : IO (Option Place) := do
  try return some (placeOf (← IO.FS.realPath (diskPath p)).toString)
  catch _ => return none

/-- The text of a file, if it is one in UTF-8. -/
def text? (p : Place) : IO (Option String) := do
  try return String.fromUTF8? (← IO.FS.readBinFile (diskPath p))
  catch _ => return none

/-! ### The picture -/

/-- How much of a directory the picture shows. -/
inductive Extent where
  | itself
  | names
  | everything
deriving DecidableEq

/-- How much the picture shows of a directory in a directory. -/
def Extent.inner : Extent → Extent
  | everything => everything
  | names | itself => itself

/-- The files as far as they are known, and the directories that are shown with everything. -/
structure Picture where
  tree : FileTree
  shown : List Place

/-- The picture with the directories that lead to a place. -/
def Picture.addWay (pic : Picture) (p : Place) : Picture :=
  (List.range p.length).foldl (fun pic n ↦
    if (pic.tree.get? (p.take n)).isSome then pic
    else { pic with tree := pic.tree.set (p.take n) .directory }) pic

/-- The picture with a link, if a name leads somewhere else than to its own place. -/
def Picture.addLink (pic : Picture) (name target : Place) : Picture :=
  let pic := pic.addWay name
  if name = target then pic
  else Picture.addWay { pic with tree := pic.tree.set name (.link ⟨diskPath target⟩) } target

/-- Adds what stands at a place. The text of a file is read if it was named or is a source. -/
partial def Picture.add (pic : Picture) (extent : Extent) (named : Bool) (p : Place) :
    IO Picture := do
  if pic.shown.contains p then return pic
  let path ← IO.FS.realPath (diskPath p)
  match (← path.metadata).type with
  | .file =>
    let read := named || SourceSearch.isSourceName (p.getLastD "").toList
    return { pic with tree := pic.tree.set p (.file (← if read then text? p else pure none)) }
  | .dir =>
    let pic := pic.addWay (p ++ ["."])
    if extent = .itself then return pic
    let mut pic := if extent = .everything then { pic with shown := p :: pic.shown } else pic
    for item in ← path.readDir do
      let name := p ++ [item.fileName]
      if let some target ← follow? name then
        pic ← (pic.addLink name target).add extent.inner false target
    return pic
  | _ => return pic

/-- Adds what a path leads to, and the way there. -/
def Picture.addPath (pic : Picture) (extent : Extent) (d : Place) : List String → IO Picture
  | [] => pic.add extent true d
  | part :: parts => do
    if part = "" ∨ part = "." then pic.addPath extent d parts
    else if part = ".." then pic.addPath extent d.dropLast parts
    else
      match ← follow? (d ++ [part]) with
      | some target => (pic.addLink (d ++ [part]) target).addPath extent target parts
      | none => return pic.addWay (d ++ [part])

/-- Adds what a path leads to. -/
def Picture.addTyped (pic : Picture) (extent : Extent) (p : Path) : IO Picture :=
  pic.addPath extent (pic.tree.start p) p.segments

/-- Adds all that a run may look at. -/
def Picture.addAll (pic : Picture) (environment : List (String × String)) (i : Invocation) :
    IO Picture := do
  let pic ← match i.config? with
    | some path => pic.addTyped .itself path
    | none => pure pic
  match Configuration.load .standard pic.tree environment i.config? i.verbosity with
  | .error _ => return pic
  | .ok c =>
    match i.task? with
    | some (.generate options output? _ _) =>
      let pic ← options.paths.foldlM (·.addTyped .everything ·) pic
      pic.addTyped .names (output?.getD c.outputDirectory)
    | some (.scan options _) =>
      let pic ← options.paths.foldlM (·.addTyped .everything ·) pic
      pic.addTyped .itself c.outputDirectory
    | _ => return pic

/-! ### Effects -/

/-- Does an edit on the disk. -/
def perform : Edit → IO Unit
  | .makeDirectory p => IO.FS.createDir (diskPath p)
  | .writeFile p text => IO.FS.writeFile (diskPath p) text
  | .remove p => IO.FS.removeFile (diskPath p)

/-- The names and values of the environment. -/
def environment : IO (List (String × String)) := do
  let text := (← text? ["proc", "self", "environ"]).getD ""
  return (Text.split '\x00' text.toList).filterMap fun assignment ↦
    (Text.splitOnce? ['='] assignment).map fun (name, value) ↦
      (String.ofList name, String.ofList value)

/-- What is said about the end of a run, if it did not succeed. -/
def complaint? : Ending → Option String
  | .success => none
  | .failure e => some ("Error: " ++ e.message)
  | .misuse message => some ("error: " ++ message)
  | .aborted location => some (location.display ++ ": base entry ends before it starts")

end DoubleDispatch.Main

open DoubleDispatch DoubleDispatch.Main in
/-- Runs the program with the given arguments. -/
def main (arguments : List String) : IO UInt32 := do
  let environment ← environment
  let current := placeOf (← IO.currentDir).toString
  let start := Picture.addWay ⟨⟨[], current⟩, []⟩ (current ++ ["."])
  let pic ← match Toolkit.standard.request arguments with
    | .run i => start.addAll environment i
    | _ => pure start
  let (answer, after) := Command.run .standard arguments environment pic.tree
  (pic.tree.edits after).forM perform
  IO.print answer.output
  if let some complaint := complaint? answer.ending then IO.eprintln complaint
  return answer.ending.code.toUInt32
