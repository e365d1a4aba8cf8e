import DoubleDispatch.Json
import DoubleDispatch.Path
import DoubleDispatch.Settings

/-!
# Configuration

The settings of a run with their defaults, how the command line shows them, and why there may be
none.
-/

namespace DoubleDispatch

/-- The format of log lines. -/
inductive LogFormat where
  | text
  | json
deriving DecidableEq, Repr, Inhabited

/-- The word for a format. -/
def LogFormat.word : LogFormat → String
  | text => "text"
  | json => "json"

/-- The format that a word stands for. -/
def LogFormat.ofWord? : String → Option LogFormat
  | "text" => some text
  | "json" => some json
  | _ => none

/-- What is logged, and how. -/
structure LogSettings where
  level : String := "warn"
  format : LogFormat := .text
deriving DecidableEq, Repr, Inhabited

/-- The settings of a run. -/
structure Configuration where
  generator : Settings := {}
  logging : LogSettings := {}
  /-- The directory that artifacts are written to. -/
  outputDirectory : Path := ⟨"generated"⟩
  /-- The patterns of paths that are no sources. -/
  exclude : List String := []
deriving DecidableEq, Repr, Inhabited

namespace Configuration

/-- The fields of a configuration with their values, as the command line shows them. -/
def toJson (c : Configuration) : JsonValue :=
  .object [
    ("generator", .object [
      ("matching", .text c.generator.matching.word),
      ("parallel", .bool c.generator.parallel),
      ("extension", .text c.generator.extension)]),
    ("logging", .object [
      ("level", .text c.logging.level),
      ("format", .text c.logging.format.word)]),
    ("output_dir", .text c.outputDirectory.text),
    ("exclude", .texts c.exclude)]

/-- The level that the number of times that more was asked for stands for. -/
def levelOfVerbosity? : Nat → Option String
  | 0 => none
  | 1 => some "info"
  | 2 => some "debug"
  | _ => some "trace"

/-- The configuration with the level that was asked for, if one was. -/
def withVerbosity (c : Configuration) (verbosity : Nat) : Configuration :=
  match levelOfVerbosity? verbosity with
  | some level => { c with logging := { c.logging with level } }
  | none => c

end Configuration

/-! ### Errors -/

/-- Why there is no configuration. -/
inductive ConfigurationError where
  | missingFile (path : Path)
  /-- The layers cannot be read, or give no configuration. -/
  | unreadable
  | invalid (e : SettingsError)
deriving DecidableEq, Repr, Inhabited

/-- The wording of an error. -/
def ConfigurationError.message : ConfigurationError → String
  | missingFile path => "config file does not exist: " ++ path.text
  | unreadable => "failed to load visitorgen configuration"
  | invalid e => "invalid generator configuration\n\nCaused by:\n    " ++ e.message

end DoubleDispatch
