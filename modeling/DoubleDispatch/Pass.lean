import DoubleDispatch.Artifact.Names
import DoubleDispatch.Emission
import DoubleDispatch.Pass.Trace

/-!
# A pass of the generator

A pass finds the roots of a compilation, works out the hierarchy of each, and hands over the
artifacts root by root. It looks at its cancellation token before each tree that it searches and
before it hands over the artifacts of a root; from the moment it sees the token cancelled it hands
over nothing more. If roots are worked out in parallel, all of them are before the first artifact
is handed over.
-/

namespace DoubleDispatch

/-- What came of a root. -/
inductive RootStatus where
  | emitted
  /-- No type implements the root, and nothing is generated for it. -/
  | emptyHierarchy
deriving DecidableEq, Repr, Inhabited

/-- The report on one root. -/
structure RootReport where
  name : String
  ns : Option String
  implementingTypes : List String
  status : RootStatus
  artifacts : List String
deriving DecidableEq, Repr, Inhabited

/-- The report on a pass. The names of the artifacts are in the order they were handed over. -/
structure PassReport where
  outcome : Outcome
  roots : List RootReport
  artifacts : List String
deriving DecidableEq, Repr, Inhabited

namespace PassReport

/-- Whether the pass saw that it was cancelled. -/
def isCancelled (report : PassReport) : Bool := report.outcome == .cancelled

/-- The number of roots that nothing was generated for. -/
def skipped (report : PassReport) : Nat :=
  report.roots.countP (·.status == .emptyHierarchy)

end PassReport

/-- The report on the root of a hierarchy whose artifacts have the given names. -/
def Hierarchy.report (h : Hierarchy) (artifacts : List String) : RootReport where
  name := h.root.name
  ns := h.root.ns.name?
  implementingTypes := h.types.map (·.name)
  status := if h.types.isEmpty then .emptyHierarchy else .emitted
  artifacts := artifacts

namespace Pass

/-! ### Searches that may be cancelled -/

/-- Runs through the traces of the trees in order; false if the token stopped the search before one
of them. -/
def searchTrees (token : CancellationToken) : History → List (List Event) → Bool × History
  | h, [] => (true, h)
  | h, events :: later =>
    if token h then (false, h) else searchTrees token (h.after events) later

/-- Runs through the traces of the search for the types of a root; false if the token stopped it,
which is logged. -/
def walkTrees (token : CancellationToken) (root : SymbolId) :
    History → List (String × List Event) → Bool × History
  | h, [] => (true, h)
  | h, (path, events) :: later =>
    if token h then (false, h.after [.logged (.observedCancellation root path)])
    else walkTrees token root (h.after events) later

/-! ### Work on one root -/

/-- Works out the hierarchy of a root, unless the token stops it. -/
def workOut (settings : Settings) (c : Compilation) (token : CancellationToken) (h : History)
    (root : Participant) : Option Hierarchy × History :=
  match walkTrees token root.id h (c.walkTraces settings.matching root) with
  | (true, h) =>
    (some (c.hierarchy settings.matching root),
      h.after (c.hierarchyTrace settings.matching root))
  | (false, h) => (none, h)

/-- What a pass has done so far: the reports on its roots, the names of its artifacts, and the
names that are taken. -/
structure Progress where
  roots : List RootReport
  artifacts : List String
  names : ArtifactNames
deriving Repr, Inhabited

/-- Gives every text the name that it gets. -/
def nameAll (names : ArtifactNames) : List PendingArtifact → List Artifact × ArtifactNames
  | [] => ([], names)
  | pending :: later =>
    let (name, names) := names.claim pending.candidates
    let (artifacts, names) := nameAll names later
    (⟨name, pending.text⟩ :: artifacts, names)

/-- Hands over the artifacts of a hierarchy. -/
def handOver (progress : Progress) (h : History) (hierarchy : Hierarchy) : Progress × History :=
  let (artifacts, names) := nameAll progress.names hierarchy.pending
  let handed := artifacts.map (·.name)
  (⟨progress.roots ++ [hierarchy.report handed], progress.artifacts ++ handed, names⟩,
    h.after (artifacts.map .handed))

/-- Hands over the artifacts of a hierarchy that was worked out, unless the token is cancelled. -/
def commit (token : CancellationToken) (progress : Progress) (h : History)
    (work : Option Hierarchy) : Option (Progress × History) :=
  if token h then none else work.map (handOver progress h)

/-! ### All roots -/

/-- Works out and hands over one root after the other. -/
def runInTurn (settings : Settings) (c : Compilation) (token : CancellationToken) :
    Progress → History → List Participant → Outcome × Progress × History
  | progress, h, [] => (.completed, progress, h)
  | progress, h, root :: roots =>
    let (work, h) := workOut settings c token h root
    match commit token progress h work with
    | none => (.cancelled, progress, h)
    | some (progress, h) => runInTurn settings c token progress h roots

/-- Works out all roots. -/
def workOutAll (settings : Settings) (c : Compilation) (token : CancellationToken) :
    History → List Participant → List (Option Hierarchy) × History
  | h, [] => ([], h)
  | h, root :: roots =>
    let (work, h) := workOut settings c token h root
    let (works, h) := workOutAll settings c token h roots
    (work :: works, h)

/-- Hands over the roots that have been worked out. -/
def commitAll (token : CancellationToken) :
    Progress → History → List (Option Hierarchy) → Outcome × Progress × History
  | progress, h, [] => (.completed, progress, h)
  | progress, h, work :: works =>
    match commit token progress h work with
    | none => (.cancelled, progress, h)
    | some (progress, h) => commitAll token progress h works

/-- Works out and hands over the given roots. -/
def runRoots (settings : Settings) (c : Compilation) (token : CancellationToken)
    (progress : Progress) (h : History) (roots : List Participant) :
    Outcome × Progress × History :=
  if settings.parallel then
    let (works, h) := workOutAll settings c token h roots
    commitAll token progress h works
  else runInTurn settings c token progress h roots

/-- The names at the start of a pass: that of the marker is taken. -/
def initialNames (settings : Settings) : ArtifactNames :=
  ((ArtifactNames.empty settings.extension).reserve Marker.name).2

/-- The end of a pass that was not stopped during the search for roots. -/
def finish (outcome : Outcome) (progress : Progress) (h : History) : PassReport × History :=
  let report : PassReport := ⟨outcome, progress.roots, progress.artifacts⟩
  (report, h.after [.logged (.finishedPass outcome report.roots.length report.skipped
    report.artifacts.length)])

/-- One pass. The history that it is given and gives back holds all artifacts handed over. -/
def run (settings : Settings) (c : Compilation) (token : CancellationToken) (h : History) :
    PassReport × History :=
  match searchTrees token h c.scanTraces with
  | (false, h) => (⟨.cancelled, [], []⟩, h.after [.logged .cancelledDuringScan])
  | (true, h) =>
    let (outcome, progress, h) :=
      runRoots settings c token ⟨[], [], initialNames settings⟩ h c.roots
    finish outcome progress h

/-- Hands over the declaration of the marker, which depends on no compilation. -/
def handOverMarker (settings : Settings) (h : History) : History :=
  h.after [.handed (Marker.artifact settings.extension)]

end Pass

/-! ### Log entries of a compilation -/

/-- What is logged when the trees of a compilation are parsed and their table is built. -/
def Compilation.entryLog (trees : List SourceTree) : List LogEntry :=
  let table := DeclarationTable.ofTrees trees
  trees.map (fun tree ↦ .parsedTree tree.path tree.types.length) ++
    [.builtTable table.size table.entries.length table.globalUsings.length]

end DoubleDispatch
