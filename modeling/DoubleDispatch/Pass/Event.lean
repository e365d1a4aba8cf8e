import DoubleDispatch.Artifact
import DoubleDispatch.Binding.Model
import DoubleDispatch.Source.Location

/-!
# What happens in a pass

A pass asks a semantic model, hands over artifacts and writes log entries. The events of a pass, in
order, are its history; whether the pass has been cancelled is a question about its history.

The log of a pass is the list of its entries, each with its own fields. The span `generation_pass`
with the fields `trees` and `parallel`, in which a pass writes them, is context and no entry: a line
of a log that also names its span, or the time, is rendered outside of a pass.
-/

namespace DoubleDispatch

/-- A question to a semantic model about a declaration in a numbered tree. -/
inductive Question where
  | symbol (tree : Nat) (declaration : TypeDeclaration)
  | attributeType (tree : Nat) (declaration : TypeDeclaration) (written : Attribute)
  | baseType (tree : Nat) (declaration : TypeDeclaration) (base : BaseEntry)
deriving DecidableEq, Repr

/-- How a pass ended. -/
inductive Outcome where
  | completed
  /-- The pass has seen that it was cancelled. What had been handed over before stays. -/
  | cancelled
deriving DecidableEq, Repr, Inhabited

/-- How much a log entry matters, the most important first. -/
inductive LogLevel where
  | warn
  | info
  | debug
  | trace
deriving DecidableEq, Repr, Inhabited

namespace LogLevel

/-- The name of a level. -/
def name : LogLevel → String
  | warn => "WARN"
  | info => "INFO"
  | debug => "DEBUG"
  | trace => "TRACE"

/-- The place of a level in the order of importance. -/
def rank : LogLevel → Nat
  | warn => 0
  | info => 1
  | debug => 2
  | trace => 3

end LogLevel

/-- What a log entry reports: one event with its fields. What a subscriber writes around it, as the
span of the pass, does not belong to it. -/
inductive LogEntry where
  | parsedTree (path : String) (types : Nat)
  | builtTable (types declarations globalUsings : Nat)
  | fileLocalRoot (location : Location)
  | unknownRoot (name : String) (location : Location)
  | foundRoot (root : SymbolId) (location : Location)
  | mergedRoot (root : SymbolId) (location : Location)
  | cancelledDuringScan
  | observedCancellation (root : SymbolId) (path : String)
  | fileLocalType (root : SymbolId) (location : Location)
  | unknownType (name : String) (location : Location)
  | foundType (root type : SymbolId) (location : Location)
  | noTypes (root : SymbolId) (location : Location)
  | lessAccessibleType (root type : SymbolId) (location : Location)
  | emittedHierarchy (root : SymbolId) (types usings : Nat)
  | finishedPass (outcome : Outcome) (roots skipped artifacts : Nat)
deriving DecidableEq, Repr

namespace LogEntry

/-- How much an entry matters. -/
def level : LogEntry → LogLevel
  | parsedTree .. | unknownRoot .. | mergedRoot .. | unknownType .. => .trace
  | builtTable .. | foundRoot .. | observedCancellation .. | foundType ..
  | emittedHierarchy .. => .debug
  | cancelledDuringScan | finishedPass .. => .info
  | fileLocalRoot .. | fileLocalType .. | noTypes .. | lessAccessibleType .. => .warn

/-- The wording of an entry. -/
def message : LogEntry → String
  | parsedTree .. => "parsed syntax tree"
  | builtTable .. => "declaration table built"
  | fileLocalRoot .. => "skipping file-local marked interface"
  | unknownRoot .. => "skipping unresolvable root declaration"
  | foundRoot .. => "found marked root"
  | mergedRoot .. => "merged partial root fragment"
  | cancelledDuringScan => "generation pass cancelled during scan"
  | observedCancellation .. => "cancellation observed"
  | fileLocalType .. => "skipping file-local implementing type"
  | unknownType .. => "skipping unresolvable implementing type"
  | foundType .. => "found implementing type"
  | noTypes .. => "no implementing types found, skipping root"
  | lessAccessibleType .. =>
    "implementing type is less accessible than the public visitor contracts"
  | emittedHierarchy .. => "emitting hierarchy"
  | finishedPass .. => "generation pass finished"

/-- The word for an outcome in a log. -/
def outcomeWord : Outcome → String
  | .completed => "Completed"
  | .cancelled => "Cancelled"

/-- The named values of an entry, in order. -/
def fields : LogEntry → List (String × String)
  | parsedTree path types => [("path", path), ("types", toString types)]
  | builtTable types declarations globalUsings =>
    [("types", toString types), ("declarations", toString declarations),
      ("global_usings", toString globalUsings)]
  | fileLocalRoot location => [("location", location.display)]
  | unknownRoot name location | unknownType name location =>
    [("name", name), ("location", location.display)]
  | foundRoot root location | mergedRoot root location | fileLocalType root location
  | noTypes root location => [("root", root.text), ("location", location.display)]
  | cancelledDuringScan => []
  | observedCancellation root path => [("root", root.text), ("tree", path)]
  | foundType root type location | lessAccessibleType root type location =>
    [("root", root.text), ("ty", type.text), ("location", location.display)]
  | emittedHierarchy root types usings =>
    [("root", root.text), ("types", toString types), ("usings", toString usings)]
  | finishedPass outcome roots skipped artifacts =>
    [("outcome", outcomeWord outcome), ("roots", toString roots), ("skipped", toString skipped),
      ("artifacts", toString artifacts)]

/-- An entry as a line of a log without span and time. -/
def line (entry : LogEntry) : String :=
  String.join (entry.level.name :: " " :: entry.message ::
    entry.fields.map fun (name, value) ↦ " " ++ name ++ "=" ++ value)

end LogEntry

/-- One event of a pass. -/
inductive Event where
  | asked (question : Question)
  | handed (artifact : Artifact)
  | logged (entry : LogEntry)
deriving DecidableEq, Repr

/-- What has happened so far, the latest event first. -/
abbrev History := List Event

namespace History

/-- The history after further events, which are given in the order they happen. -/
def after (h : History) (events : List Event) : History := events.reverse ++ h

/-- The artifacts that were handed over, in order. -/
def artifacts (h : History) : List Artifact :=
  h.reverse.filterMap fun
    | .handed a => some a
    | _ => none

/-- The log entries, in order. -/
def log (h : History) : List LogEntry :=
  h.reverse.filterMap fun
    | .logged entry => some entry
    | _ => none

end History

/-- Says from the history whether a pass has been cancelled. -/
abbrev CancellationToken := History → Bool

namespace CancellationToken

/-- The token that nobody cancels. -/
def never : CancellationToken := fun _ ↦ false

/-- The token that was cancelled before anything happened. -/
def always : CancellationToken := fun _ ↦ true

/-- The token that is cancelled by the first event with a property. -/
def onEvent (p : Event → Bool) : CancellationToken := fun h ↦ h.any p

/-- The token that is cancelled when an artifact is handed over and at least `n` are then there. -/
def onArtifact (n : Nat) : CancellationToken := fun h ↦
  let count := h.artifacts.length
  0 < count && n ≤ count

/-- A cancelled token stays cancelled. -/
def Monotone (token : CancellationToken) : Prop :=
  ∀ event h, token h = true → token (event :: h) = true

end CancellationToken

end DoubleDispatch
