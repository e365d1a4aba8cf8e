import DoubleDispatch.Json
import DoubleDispatch.Pass

/-!
# Reports

What the command line shows of a pass: a summary or the roots as lines of text, or the report as
JSON. How a text is made to stand out is left to who shows it.
-/

namespace DoubleDispatch

/-- The word for an outcome. -/
def Outcome.word : Outcome → String
  | completed => "completed"
  | cancelled => "cancelled"

/-- The word for what came of a root. -/
def RootStatus.word : RootStatus → String
  | emitted => "emitted"
  | emptyHierarchy => "empty_hierarchy"

/-- How a text stands out on a terminal. -/
inductive Style where
  | bold
  | green
  | yellow
deriving DecidableEq, Repr, Inhabited

/-- Lines of text, each with a line break at its end. -/
def unlines (lines : List String) : String := String.join (lines.map (· ++ "\n"))

namespace RootReport

/-- The name of a root behind its namespace. -/
def qualifiedName (r : RootReport) : String :=
  match r.ns with
  | some ns => ns ++ "." ++ r.name
  | none => r.name

/-- The lines on a root in a list of roots. -/
def lines (styled : Style → String → String) (r : RootReport) : List String :=
  styled .bold r.qualifiedName ::
    ((if r.status = .emptyHierarchy then ["  " ++ styled .yellow "(no implementing types)"]
      else []) ++ r.implementingTypes.map ("  " ++ ·))

/-- The line on a root in a summary. -/
def summaryLine (styled : Style → String → String) (r : RootReport) : String :=
  match r.status with
  | .emitted => "  " ++ styled .green "ok" ++ " " ++ r.name ++ " (" ++
      toString r.implementingTypes.length ++ " types)"
  | .emptyHierarchy => "  " ++ styled .yellow "--" ++ " " ++ r.name ++
      " (no implementing types, skipped)"

/-- A root in a list of roots. -/
def toJson (r : RootReport) : JsonValue :=
  .object [("name", .text r.name), ("namespace", .ofText? r.ns),
    ("implementing_types", .texts r.implementingTypes), ("status", .text r.status.word),
    ("artifacts", .texts r.artifacts)]

/-- A root in the report on a pass, fields in alphabetical order. -/
def toSortedJson (r : RootReport) : JsonValue :=
  .object [("artifacts", .texts r.artifacts), ("implementing_types", .texts r.implementingTypes),
    ("name", .text r.name), ("namespace", .ofText? r.ns), ("status", .text r.status.word)]

end RootReport

namespace PassReport

/-- All roots with the types that implement them. -/
def rootLines (styled : Style → String → String) (report : PassReport) : List String :=
  if report.roots.isEmpty then ["No [VisitorNode] interfaces found."]
  else report.roots.flatMap (RootReport.lines styled)

/-- The summary of a pass that left a number of files in a directory. -/
def summaryLines (styled : Style → String → String) (report : PassReport) (written : Nat)
    (directory : String) : List String :=
  let rule := String.ofList (List.replicate 80 '=')
  [rule, "  " ++ styled .bold "VISITOR GENERATOR", rule] ++
    report.roots.map (RootReport.summaryLine styled) ++
    (if report.roots.isEmpty then ["  No [VisitorNode] interfaces found."] else []) ++
    ["", "  Files written: " ++ toString written ++ " -> " ++ directory]

/-- The report on a pass whose artifacts are in a directory, fields in alphabetical order. -/
def toJson (report : PassReport) (directory : String) : JsonValue :=
  .object [("output_dir", .text directory),
    ("report", .object [("artifacts_emitted", .texts report.artifacts),
      ("outcome", .text report.outcome.word),
      ("roots", .list (report.roots.map RootReport.toSortedJson))])]

end PassReport

end DoubleDispatch
