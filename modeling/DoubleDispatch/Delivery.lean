import DoubleDispatch.Artifact
import DoubleDispatch.FileTree.Change

/-!
# The delivery of artifacts

Artifacts are written into one directory, which is made if it is missing. Before that, files that
were generated earlier can be removed from it; they are told by the ends of their names.
-/

namespace DoubleDispatch

/-- Why a delivery fails. What was done before stays done. -/
inductive DeliveryError where
  | noDirectory (path : Path)
  | unlistable (path : Path)
  | unwritable (path : Path)
deriving DecidableEq, Repr, Inhabited

/-- The wording of an error. -/
def DeliveryError.message : DeliveryError → String
  | noDirectory path => "failed to create " ++ path.text
  | unlistable path => "failed to list " ++ path.text
  | unwritable path => "failed to write " ++ path.text

namespace Delivery

/-- How the names of generated files end. -/
def suffix (extension : String) : String := ".g." ++ extension

/-- Whether a file was generated for an extension, by its name. -/
def isGeneratedName (extension name : String) : Bool :=
  (suffix extension).toList.isSuffixOf name.toList

/-- The tree without the generated files of a directory. -/
def clean (t : FileTree) (directory : Path) (extension : String) :
    Except DeliveryError FileTree :=
  match t.resolve directory with
  | .directory d => .ok (t.removeFiles d (isGeneratedName extension))
  | _ => .error (.unlistable directory)

/-- Writes artifacts in order, up to the first that cannot be written. -/
def writeAll (t : FileTree) (directory : Path) :
    List Artifact → FileTree × Option DeliveryError
  | [] => (t, none)
  | a :: artifacts =>
    let path := directory.child a.name
    match t.write? path a.text with
    | some t => writeAll t directory artifacts
    | none => (t, some (.unwritable path))

/-- Delivers artifacts into a directory; generated files are removed first if `cleaning`. -/
def deliver (t : FileTree) (directory : Path) (extension : String) (cleaning : Bool)
    (artifacts : List Artifact) : FileTree × Option DeliveryError :=
  match t.makeDirectories directory with
  | (t, false) => (t, some (.noDirectory directory))
  | (t, true) =>
    if cleaning then
      match clean t directory extension with
      | .ok t => writeAll t directory artifacts
      | .error e => (t, some e)
    else writeAll t directory artifacts

end Delivery

end DoubleDispatch
