import DoubleDispatch.CommandLine
import DoubleDispatch.Configuration.Layers
import DoubleDispatch.FileTree.Walk
import DoubleDispatch.Glob
import DoubleDispatch.Toolkit

/-!
# The standard tools

The tools that the program is run with. No text is made to stand out, as it is when the output is
not a terminal.
-/

namespace DoubleDispatch

/-- The test that a pattern stands for, or what is wrong with the pattern. -/
def Glob.test (pattern : String) : Except String (String → Bool) :=
  match read pattern with
  | .ok glob => .ok fun s ↦ glob.accepts s.toList
  | .error e => .error e.message

/-- The tools that the program is run with. -/
def Toolkit.standard : Toolkit where
  request := CommandLine.request
  Layer := Option LayerValue
  layerOf c := some c.toValue
  yaml := Yaml.read?
  environment mark separator entries := some (Environment.layer mark separator entries)
  merge := LayerValue.merge?
  configuration? layer := layer.bind Configuration.ofValue?
  pattern := Glob.test
  entries := FileTree.walk
  json := JsonValue.pretty
  styled _ text := text

end DoubleDispatch
