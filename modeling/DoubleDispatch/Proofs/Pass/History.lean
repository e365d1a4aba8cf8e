import DoubleDispatch.Pass

/-!
# The artifacts of a history

A history records questions, log entries and artifacts, but only the artifacts reach whoever asked
for the pass. `History.artifacts_after` says what further events add to them, and the `quiet`
lemmas say that nothing is handed over while trees are searched: the traces behind a discovery
consist of questions and log entries alone.
-/

namespace DoubleDispatch

/-- The artifact that an event hands over. -/
def Event.artifact? : Event → Option Artifact
  | .handed a => some a
  | _ => none

@[simp] theorem Event.artifact?_handed (a : Artifact) : (Event.handed a).artifact? = some a := rfl

@[simp] theorem Event.artifact?_asked (q : Question) : (Event.asked q).artifact? = none := rfl

@[simp] theorem Event.artifact?_logged (e : LogEntry) : (Event.logged e).artifact? = none := rfl

namespace History

/-- The artifacts of a history are those of its events, the earliest first. -/
theorem artifacts_eq (h : History) : h.artifacts = h.reverse.filterMap Event.artifact? := by
  rw [artifacts]
  congr 1

@[simp] theorem artifacts_nil : artifacts [] = [] := rfl

/-- One further event adds the artifact that it hands over, if it does. -/
@[simp] theorem artifacts_cons (e : Event) (h : History) :
    artifacts (e :: h) = h.artifacts ++ e.artifact?.toList := by
  rw [artifacts_eq, artifacts_eq, List.reverse_cons, List.filterMap_append]
  cases h' : e.artifact? <;> simp [h']

/-- Further events add the artifacts that they hand over, in order. -/
@[simp] theorem artifacts_after (h : History) (events : List Event) :
    (h.after events).artifacts = h.artifacts ++ events.filterMap Event.artifact? := by
  rw [artifacts_eq, artifacts_eq, after, List.reverse_append, List.reverse_reverse,
    List.filterMap_append]

/-- Writing a log entry adds no artifact. -/
@[simp] theorem artifacts_after_logged (h : History) (entry : LogEntry) :
    (h.after [.logged entry]).artifacts = h.artifacts := by
  rw [artifacts_after]
  exact List.append_nil _

end History

/-! ### Quiet events -/

/-- Events of which none hands over an artifact. -/
def Quiet (events : List Event) : Prop := ∀ e ∈ events, e.artifact? = none

namespace Quiet

@[simp] theorem nil : Quiet [] := by simp [Quiet]

@[simp] theorem cons_iff {e : Event} {events : List Event} :
    Quiet (e :: events) ↔ e.artifact? = none ∧ Quiet events := by
  simp [Quiet]

/-- Two runs of events are quiet together exactly if each is. -/
@[simp] theorem append_iff {first later : List Event} :
    Quiet (first ++ later) ↔ Quiet first ∧ Quiet later := by
  simp only [Quiet, List.mem_append, or_imp, forall_and]

/-- Quiet events hand over nothing. -/
theorem filterMap_eq {events : List Event} (h : Quiet events) :
    events.filterMap Event.artifact? = [] :=
  List.filterMap_eq_nil_iff.2 h

/-- Events are quiet if those for each of some things are. -/
theorem flatMap {α : Type} {as : List α} {f : α → List Event} (h : ∀ a ∈ as, Quiet (f a)) :
    Quiet (as.flatMap f) := by
  intro e he
  obtain ⟨a, ha, he⟩ := List.mem_flatMap.1 he
  exact h a ha e he

end Quiet

/-- **Quiet events leave the artifacts as they are.** -/
theorem History.artifacts_after_of_quiet (h : History) {events : List Event}
    (hq : Quiet events) : (h.after events).artifacts = h.artifacts := by
  rw [History.artifacts_after, hq.filterMap_eq, List.append_nil]

/-! ### Searching is quiet -/

namespace Site

variable (m : SemanticModel) (s : Site)

/-- To find out who may see a type, its symbol is asked for at most. -/
@[simp] theorem quiet_accessibilityQuestion : Quiet s.accessibilityQuestion := by
  rw [accessibilityQuestion]
  split <;> simp [symbolQuestion]

/-- To find the marker, attributes are asked for. -/
@[simp] theorem quiet_markerQuestions : Quiet (s.markerQuestions m) := by
  simp [Quiet, markerQuestions]

/-- A declaration that is marked is reported in the log only. -/
@[simp] theorem quiet_rootTrace (seen : List SymbolId) : Quiet (s.rootTrace m seen) := by
  rw [rootTrace]
  split <;> simp [symbolQuestion]

/-- Looking at one declaration for a root hands over nothing. -/
@[simp] theorem quiet_scanTrace (seen : List SymbolId) : Quiet (s.scanTrace m seen) := by
  rw [scanTrace]
  split
  · split <;> simp
  · simp

/-- To find whether a declaration is derived from a root, its bases are asked for. -/
@[simp] theorem quiet_rootQuestions (matching : Matching) (root : Participant) :
    Quiet (s.rootQuestions matching m root) := by
  cases matching <;> simp [Quiet, rootQuestions]

/-- Looking at one declaration for a type of a root hands over nothing. -/
@[simp] theorem quiet_walkTrace (matching : Matching) (root : Participant) :
    Quiet (s.walkTrace matching m root) := by
  rw [walkTrace]
  split
  · split <;> simp
  · simp

/-- A type that is found is reported in the log only. -/
@[simp] theorem quiet_typeTrace (root : Participant) (seen : List SymbolId) :
    Quiet (s.typeTrace m root seen) := by
  rw [typeTrace]
  split
  · simp [symbolQuestion]
  · split <;> simp [symbolQuestion]

end Site

/-- Scanning the declarations of one tree is quiet, by induction on them, whichever roots have been
seen. -/
theorem quiet_scanSites (m : SemanticModel) (seen : List SymbolId) (sites : List Site) :
    Quiet (scanSites m seen sites).1 := by
  induction sites generalizing seen with
  | nil => exact Quiet.nil
  | cons s sites ih => exact Quiet.append_iff.2 ⟨s.quiet_scanTrace m seen, ih _⟩

/-- Scanning each of some trees is quiet. -/
theorem quiet_of_mem_scanTrees {m : SemanticModel} {seen : List SymbolId}
    {trees : List (SourceTree × Nat)} {events : List Event}
    (h : events ∈ scanTrees m seen trees) : Quiet events := by
  induction trees generalizing seen with
  | nil => exact absurd h List.not_mem_nil
  | cons t trees ih =>
    rcases List.mem_cons.1 h with rfl | h
    · exact quiet_scanSites _ _ _
    · exact ih h

/-- Finding the types of a root is quiet, by induction on the declarations that name it. -/
theorem quiet_resolveTrace (m : SemanticModel) (root : Participant) (seen : List SymbolId)
    (sites : List Site) : Quiet (resolveTrace m root seen sites) := by
  induction sites generalizing seen with
  | nil => exact Quiet.nil
  | cons s sites ih => exact Quiet.append_iff.2 ⟨s.quiet_typeTrace m root seen, ih _⟩

namespace Compilation

variable (c : Compilation)

/-- **The scan for roots is quiet** in every tree. -/
theorem quiet_of_mem_scanTraces {events : List Event} (h : events ∈ c.scanTraces) :
    Quiet events :=
  quiet_of_mem_scanTrees h

/-- The search for the types of a root is quiet in every tree. -/
theorem quiet_of_mem_walkTraces {matching : Matching} {root : Participant}
    {trace : String × List Event} (h : trace ∈ c.walkTraces matching root) : Quiet trace.2 := by
  obtain ⟨⟨tree, number⟩, -, rfl⟩ := List.mem_map.1 h
  exact Quiet.flatMap fun s _ ↦ s.quiet_walkTrace c.model matching root

/-- **Before its artifacts are handed over**, all that is done for a root is quiet. -/
theorem quiet_hierarchyTrace (matching : Matching) (root : Participant) :
    Quiet (c.hierarchyTrace matching root) := by
  rw [hierarchyTrace]
  refine Quiet.append_iff.2 ⟨Quiet.append_iff.2 ⟨quiet_resolveTrace _ _ _ _, ?_⟩, ?_⟩
  · split
    · exact Quiet.flatMap fun s _ ↦ s.quiet_accessibilityQuestion
    · exact Quiet.nil
  · split
    · simp
    · refine Quiet.append_iff.2 ⟨?_, by simp⟩
      simp [Quiet]

end Compilation

end DoubleDispatch
