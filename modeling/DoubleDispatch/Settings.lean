import DoubleDispatch.Text.Blank
import DoubleDispatch.Text.Quoted

/-!
# Settings of the generator
-/

namespace DoubleDispatch

/-- How the entries of a base list are compared with a root. -/
inductive Matching where
  /-- The entry is a bare identifier equal to the name of the root. -/
  | syntactic
  /-- The semantic model says that the entry names the root. -/
  | semantic
deriving DecidableEq, Repr, Inhabited

/-- The word for a way of matching. -/
def Matching.word : Matching → String
  | syntactic => "syntactic"
  | semantic => "semantic"

/-- The way of matching that a word stands for. -/
def Matching.ofWord? : String → Option Matching
  | "syntactic" => some syntactic
  | "semantic" => some semantic
  | _ => none

/-- The settings of the generator. The extension is that of the artifacts, without its dot. -/
structure Settings where
  matching : Matching := .syntactic
  parallel : Bool := false
  extension : String := "cs"
deriving DecidableEq, Repr, Inhabited

/-- Why settings are refused. -/
inductive SettingsError where
  | invalidExtension (extension : String)
deriving DecidableEq, Repr, Inhabited

/-- The wording of the refusal. -/
def SettingsError.message : SettingsError → String
  | invalidExtension extension =>
    "invalid artifact extension " ++ Text.quote extension ++
      ": must be non-empty without dots, whitespace or path separators"

namespace Settings

/-- Whether a character may stand in an extension. -/
def mayStandInExtension (c : Char) : Bool :=
  c != '.' && c != '/' && c != '\\' && !Text.isBlank c

/-- Refuses an extension that would not make a plain file name. -/
def validate (settings : Settings) : Except SettingsError Unit :=
  let extension := settings.extension.toList
  if extension.isEmpty || !extension.all mayStandInExtension then
    .error (.invalidExtension settings.extension)
  else .ok ()

end Settings

end DoubleDispatch
