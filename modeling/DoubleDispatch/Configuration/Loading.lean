import DoubleDispatch.FileTree.Resolution
import DoubleDispatch.Toolkit

/-!
# Loading a configuration

The settings of a run come from the defaults, a YAML file, the environment and the command line,
each laid over those before it.
-/

namespace DoubleDispatch.Configuration

/-- How the names of variables that set something start. -/
def mark : String := "VISITORGEN__"

/-- What stands between the names of a table and of a field in the name of a variable. -/
def separator : String := "__"

variable (tools : Toolkit)

/-- A layer with that of a file on top, if one is named; a path that leads to no file is an
error. -/
def overlaidFile (t : FileTree) (layer : tools.Layer) :
    Option Path → Except ConfigurationError tools.Layer
  | none => .ok layer
  | some path =>
    if t.isFile path then
      match t.read? path with
      | some text => .ok (tools.merge layer (tools.yaml text))
      | none => .error .unreadable
    else .error (.missingFile path)

/-- The configuration of a run. -/
def load (t : FileTree) (environment : List (String × String)) (file : Option Path)
    (verbosity : Nat) : Except ConfigurationError Configuration := do
  let layer ← overlaidFile tools t (tools.layerOf {}) file
  match tools.configuration? (tools.merge layer (tools.environment mark separator environment)) with
  | none => .error .unreadable
  | some c =>
    match c.generator.validate with
    | .error e => .error (.invalid e)
    | .ok () => return c.withVerbosity verbosity

end DoubleDispatch.Configuration
