import DoubleDispatch.Configuration.Loading
import DoubleDispatch.Delivery
import DoubleDispatch.SourceSearch

/-!
# Commands

A run of the program as a function: arguments, the environment and a file tree give an answer and
the tree that the run leaves behind. All work on sources is done before the first file is
touched, so a run that fails until then leaves every file as it was.
-/

namespace DoubleDispatch

/-- Why a run fails. -/
inductive CommandError where
  | noTask
  | configuration (e : ConfigurationError)
  | search (e : SearchError)
  | unreadable (path : Path)
  | rejected (d : Diagnostic)
  | delivery (e : DeliveryError)
deriving DecidableEq, Repr, Inhabited

/-- The wording of an error. -/
def CommandError.message : CommandError → String
  | noTask => "no command given, see `visitorgen --help`"
  | configuration e => e.message
  | search e => e.message
  | unreadable path => "failed to read " ++ path.text
  | rejected d => d.message
  | delivery e => e.message

/-- How a run ends. -/
inductive Ending where
  | success
  | failure (e : CommandError)
  /-- The command line is refused. -/
  | misuse (message : String)
  /-- A base entry of a source would end before it starts, which stops the program. -/
  | aborted (location : Location)
deriving DecidableEq, Repr, Inhabited

/-- The exit code of a run. -/
def Ending.code : Ending → Nat
  | success => 0
  | failure _ => 1
  | misuse _ => 2
  | aborted _ => 101

/-- What a run prints, and how it ends. -/
structure Answer where
  output : String
  ending : Ending
deriving DecidableEq, Repr, Inhabited

namespace Command

/-- The answer of a run that has printed nothing. -/
def silent (ending : Ending) : Answer := ⟨"", ending⟩

/-! ### Sources -/

/-- The ending of a run that meets a source which cannot be parsed. -/
def sourceEnding : SourceError → Ending
  | .diagnostic d => .failure (.rejected d)
  | .backwardEntry location => .aborted location

/-- Reads and parses files in order; the first that fails decides. -/
def readSources (t : FileTree) : List Path → Except Ending (List SourceTree)
  | [] => .ok []
  | path :: paths =>
    match t.read? path with
    | none => .error (.failure (.unreadable path))
    | some text =>
      match SourceTree.parse path.text text with
      | .error e => .error (sourceEnding e)
      | .ok tree => return tree :: (← readSources t paths)

variable (tools : Toolkit)

/-- The compilation of the sources that were asked for, with the declaration of the marker as its
last tree. What is below the output directory is no source. -/
def compilation (t : FileTree) (c : Configuration) (options : SourceOptions) (output : Path) :
    Except Ending Compilation :=
  match SourceSearch.find tools t options.paths (c.exclude ++ options.exclude) output with
  | .error e => .error (.failure (.search e))
  | .ok paths => do
    let trees ← readSources t paths
    let marker := Marker.artifact c.generator.extension
    match SourceTree.parse marker.name marker.text with
    | .error e => throw (sourceEnding e)
    | .ok tree => return .ofTrees (trees ++ [tree])

/-- The settings of the generator with the options of a task on top. -/
def settings (c : Configuration) (options : SourceOptions) : Settings :=
  { c.generator with
    matching := if options.semantic then .semantic else c.generator.matching
    parallel := options.parallel || c.generator.parallel }

/-- A pass that nobody cancels, and the artifacts that are there at its end. -/
def pass (s : Settings) (c : Compilation) : PassReport × List Artifact :=
  let (report, history) := Pass.run s c .never (Pass.handOverMarker s [])
  (report, history.artifacts)

/-! ### Tasks -/

/-- Generates artifacts and delivers them. -/
def generate (t : FileTree) (c : Configuration) (options : SourceOptions) (output? : Option Path)
    (clean json : Bool) : Answer × FileTree :=
  let directory := output?.getD c.outputDirectory
  match compilation tools t c options directory with
  | .error ending => (silent ending, t)
  | .ok program =>
    let (report, artifacts) := pass (settings c options) program
    match Delivery.deliver t directory c.generator.extension clean artifacts with
    | (t, some e) => (silent (.failure (.delivery e)), t)
    | (t, none) =>
      let output :=
        if json then tools.json (report.toJson directory.text) ++ "\n"
        else unlines (report.summaryLines tools.styled artifacts.length directory.text)
      (⟨output, .success⟩, t)

/-- Reports roots and the types that implement them. -/
def scan (t : FileTree) (c : Configuration) (options : SourceOptions) (json : Bool) : Answer :=
  match compilation tools t c options c.outputDirectory with
  | .error ending => silent ending
  | .ok program =>
    let (report, _) := pass (settings c options) program
    let output :=
      if json then tools.json (.list (report.roots.map RootReport.toJson)) ++ "\n"
      else unlines (report.rootLines tools.styled)
    ⟨output, .success⟩

/-- Does what an invocation asks for. -/
def invoke (t : FileTree) (environment : List (String × String)) (i : Invocation) :
    Answer × FileTree :=
  match Configuration.load tools t environment i.config? i.verbosity with
  | .error e => (silent (.failure (.configuration e)), t)
  | .ok c =>
    if i.printConfig then (⟨tools.json c.toJson ++ "\n", .success⟩, t)
    else
      match i.task? with
      | none => (silent (.failure .noTask), t)
      | some (.generate options output? clean json) => generate tools t c options output? clean json
      | some (.scan options json) => (scan tools t c options json, t)
      | some .marker => (⟨Marker.source, .success⟩, t)

/-! ### Runs -/

/-- A run of the program. -/
def run (arguments : List String) (environment : List (String × String)) (t : FileTree) :
    Answer × FileTree :=
  match tools.request arguments with
  | .refusal message => (silent (.misuse message), t)
  | .display text => (⟨text, .success⟩, t)
  | .run i => invoke tools t environment i

end Command

end DoubleDispatch
