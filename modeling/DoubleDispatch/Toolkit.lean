import DoubleDispatch.Configuration
import DoubleDispatch.FileTree
import DoubleDispatch.Invocation
import DoubleDispatch.Report

/-!
# The tools of a run

The program leaves some of its work to others: to read a command line, to read and merge layers of
settings, to match patterns, to list what is below a directory, and to write JSON and styled texts.
A run takes them as they are. What is said of runs holds for all tools, or for those that keep a
promise that is named where it is needed.
-/

namespace DoubleDispatch

/-- What a run leaves to others. -/
structure Toolkit where
  /-- What a command line, without the name of the program, comes to. -/
  request : List String → Request
  /-- What one or several sources of settings say, as far as it can be read. -/
  Layer : Type
  /-- The layer in which every setting is as given. -/
  layerOf : Configuration → Layer
  /-- The layer that the text of a YAML file stands for. -/
  yaml : String → Layer
  /-- The layer of the variables whose names start with a mark; a separator in the rest of a name
  leads into a table. -/
  environment (mark separator : String) : List (String × String) → Layer
  /-- The second layer laid over the first. -/
  merge : Layer → Layer → Layer
  /-- The configuration that a layer gives; none if it cannot be read, or says anything that no
  configuration says. -/
  configuration? : Layer → Option Configuration
  /-- The test that a pattern stands for, or what is wrong with the pattern. -/
  pattern : String → Except String (String → Bool)
  /-- The paths of a directory and of all that is below it, in any order. Links are followed, and
  what cannot be read is left out. -/
  entries : FileTree → Path → List Path
  /-- The indented text of a JSON value. -/
  json : JsonValue → String
  /-- A text that stands out. -/
  styled : Style → String → String

end DoubleDispatch
