import DoubleDispatch.Configuration
import DoubleDispatch.Configuration.Environment
import DoubleDispatch.Yaml

/-!
# A reader of settings

What the layers of settings say together has to be a configuration: every field is known, and every
value is of the type of its field. A layer that cannot be read is none, and makes any layer that it
is merged into none.

The program is run with this reader; what is proved of runs holds for any other one too.
-/

namespace DoubleDispatch

/-! ### From values to settings -/

namespace LayerValue

/-- The truth value that a value is. -/
def bool? : LayerValue → Option Bool
  | bool b => some b
  | _ => none

/-- The text that a value is. -/
def text? : LayerValue → Option String
  | text s => some s
  | _ => none

/-- The texts that a list holds, if it holds nothing else. -/
def texts? : LayerValue → Option (List String)
  | list values => values.mapM text?
  | _ => none

/-- The word for one of several choices: a text, or the first key of a table that says nothing
more. -/
def word? : LayerValue → Option String
  | text s => some s
  | table fields =>
    match fields.mergeSort (·.1 ≤ ·.1) with
    | (word, null) :: _ => some word
    | _ => none
  | _ => none

/-- The fields that a value sets: those of a table, or those that the values of a list stand for in
the order of the given names. -/
def fields? (names : List String) : LayerValue → Option (List (String × LayerValue))
  | table fields => some fields
  | list values => some (names.zip values)
  | _ => none

end LayerValue

/-- Settings with one field set; none if there is no such field or the value has another type. -/
def Settings.set? (s : Settings) : String × LayerValue → Option Settings
  | ("matching", v) => (v.word?.bind Matching.ofWord?).map ({ s with matching := · })
  | ("parallel", v) => v.bool?.map ({ s with parallel := · })
  | ("extension", v) => v.text?.map ({ s with extension := · })
  | _ => none

/-- Log settings with one field set; none if there is no such field or the value has another
type. -/
def LogSettings.set? (s : LogSettings) : String × LayerValue → Option LogSettings
  | ("level", v) => v.text?.map ({ s with level := · })
  | ("format", v) => (v.word?.bind LogFormat.ofWord?).map ({ s with format := · })
  | _ => none

/-- The settings that a value gives, defaults for what it does not set. -/
def Settings.ofValue? (v : LayerValue) : Option Settings := do
  (← v.fields? ["matching", "parallel", "extension"]).foldlM Settings.set? {}

/-- The log settings that a value gives, defaults for what it does not set. -/
def LogSettings.ofValue? (v : LayerValue) : Option LogSettings := do
  (← v.fields? ["level", "format"]).foldlM LogSettings.set? {}

namespace Configuration

/-- A configuration with one field set; none if there is no such field or the value has another
type. -/
def set? (c : Configuration) : String × LayerValue → Option Configuration
  | ("generator", v) => (Settings.ofValue? v).map ({ c with generator := · })
  | ("logging", v) => (LogSettings.ofValue? v).map ({ c with logging := · })
  | ("output_dir", v) => v.text?.map fun text ↦ { c with outputDirectory := ⟨text⟩ }
  | ("exclude", v) => v.texts?.map ({ c with exclude := · })
  | _ => none

/-- The configuration that a value gives, defaults for what it does not set. -/
def ofValue? : LayerValue → Option Configuration
  | .table fields => fields.foldlM set? {}
  | _ => none

/-- The value in which every setting is as given. -/
def toValue (c : Configuration) : LayerValue :=
  .table [
    ("generator", .table [
      ("matching", .text c.generator.matching.word), ("parallel", .bool c.generator.parallel),
      ("extension", .text c.generator.extension)]),
    ("logging", .table [
      ("level", .text c.logging.level), ("format", .text c.logging.format.word)]),
    ("output_dir", .text c.outputDirectory.text),
    ("exclude", .list (c.exclude.map .text))]

end Configuration

/-- One layer laid over another; none if one of them is none. -/
def LayerValue.merge? (lower upper : Option LayerValue) : Option LayerValue := do
  return (← lower).overlay (← upper)

end DoubleDispatch
