import DoubleDispatch.Proofs.Parsing.Characters
import DoubleDispatch.Proofs.Pass.Interleaving
import Mathlib.Data.List.Forall2
import Mathlib.Order.Nat

/-!
# Where a cancelled pass is cut

A pass that is cancelled has handed over some of its roots as a whole and the others not at all.
What a root contributes, its report and its artifacts, is fixed before the pass starts: `pieces`
and `reports` list it for all roots in order, and every end of a pass is a `CutAt` some number of
them. The number depends on the token and, in a parallel pass, on the order in which the workers
act; the contributions do not.

Two properties of the code carry the proof. A root is committed in one go, after a single look at
the token, so that an artifact that cancels the pass cannot cut its own root in two. And the work
on a root gives its hierarchy or nothing, whatever the other workers do meanwhile, so that a
cancelled worker can only end the sequence of committed roots and never change it.

No law about the token is needed: the statements hold for every predicate of the history, and so in
particular for tokens that stay cancelled.
-/

namespace DoubleDispatch

namespace Pass

/-! ### What the roots contribute -/

/-- Names do not change texts. -/
theorem map_text_nameAll (names : ArtifactNames) (pending : List PendingArtifact) :
    (nameAll names pending).1.map (·.text) = pending.map (·.text) := by
  induction pending generalizing names with
  | nil => rfl
  | cons first later ih =>
    have hlater := ih (names.claim first.candidates).2
    rw [nameAll, List.map_cons, List.map_cons, hlater]

/-- The artifacts of hierarchies that are handed over one after the other, one group for each. -/
def groups (names : ArtifactNames) : List Hierarchy → List (List Artifact)
  | [] => []
  | hierarchy :: later =>
    (nameAll names hierarchy.pending).1 :: groups (nameAll names hierarchy.pending).2 later

/-- The reports on hierarchies that are handed over one after the other. -/
def reportsOf (names : ArtifactNames) (hierarchies : List Hierarchy) : List RootReport :=
  List.zipWith (fun hierarchy group ↦ hierarchy.report (group.map (·.name))) hierarchies
    (groups names hierarchies)

/-- The hierarchies of all roots. -/
def hierarchies (settings : Settings) (c : Compilation) : List Hierarchy :=
  c.roots.map (c.hierarchy settings.matching)

/-- The artifacts of all roots, one group for each. -/
def pieces (settings : Settings) (c : Compilation) : List (List Artifact) :=
  groups (initialNames settings) (hierarchies settings c)

/-- The reports on all roots. -/
def reports (settings : Settings) (c : Compilation) : List RootReport :=
  reportsOf (initialNames settings) (hierarchies settings c)

@[simp] theorem length_groups (names : ArtifactNames) (hierarchies : List Hierarchy) :
    (groups names hierarchies).length = hierarchies.length := by
  induction hierarchies generalizing names with
  | nil => rfl
  | cons hierarchy later ih => rw [groups, List.length_cons, ih, List.length_cons]

/-- The artifacts of the first hierarchies are the first groups. -/
theorem groups_take (names : ArtifactNames) (hierarchies : List Hierarchy) (n : Nat) :
    groups names (hierarchies.take n) = (groups names hierarchies).take n := by
  induction hierarchies generalizing names n with
  | nil => simp [groups]
  | cons hierarchy later ih =>
    cases n with
    | zero => rfl
    | succ n => rw [List.take_succ_cons, groups, groups, List.take_succ_cons, ih]

/-- The reports of the first hierarchies are the first reports. -/
theorem reportsOf_take (names : ArtifactNames) (hierarchies : List Hierarchy) (n : Nat) :
    reportsOf names (hierarchies.take n) = (reportsOf names hierarchies).take n := by
  rw [reportsOf, reportsOf, groups_take, List.take_zipWith]

theorem reportsOf_cons (names : ArtifactNames) (hierarchy : Hierarchy) (later : List Hierarchy) :
    reportsOf names (hierarchy :: later) =
      hierarchy.report ((nameAll names hierarchy.pending).1.map (·.name)) ::
        reportsOf (nameAll names hierarchy.pending).2 later := rfl

/-- The artifacts that a report names are those of its group. -/
theorem map_artifacts_reportsOf (names : ArtifactNames) (hierarchies : List Hierarchy) :
    (reportsOf names hierarchies).map (·.artifacts) =
      (groups names hierarchies).map (·.map (·.name)) := by
  induction hierarchies generalizing names with
  | nil => rfl
  | cons hierarchy later ih => rw [reportsOf_cons, groups, List.map_cons, List.map_cons, ih]; rfl

@[simp] theorem length_pieces (settings : Settings) (c : Compilation) :
    (pieces settings c).length = c.roots.length := by
  simp [pieces, hierarchies]

@[simp] theorem length_reports (settings : Settings) (c : Compilation) :
    (reports settings c).length = c.roots.length := by
  simp [reports, reportsOf, hierarchies]

/-! ### Handing over -/

/-- From the first progress and history, exactly the given hierarchies have been handed over. -/
structure Handed (before : Progress) (h : History) (hierarchies : List Hierarchy)
    (behind : Progress) (h' : History) : Prop where
  roots_eq : behind.roots = before.roots ++ reportsOf before.names hierarchies
  artifacts_eq :
    behind.artifacts = before.artifacts ++ (groups before.names hierarchies).flatten.map (·.name)
  history_eq : h'.artifacts = h.artifacts ++ (groups before.names hierarchies).flatten

namespace Handed

theorem nil (progress : Progress) {h h' : History} (heq : h'.artifacts = h.artifacts) :
    Handed progress h [] progress h' where
  roots_eq := by simp [reportsOf]
  artifacts_eq := by simp [groups]
  history_eq := by simp [groups, heq]

/-- **One root more.** Events before it that hand over nothing do not matter. -/
theorem cons {before behind : Progress} {h h₁ h' : History} {hierarchy : Hierarchy}
    {later : List Hierarchy} (heq : h₁.artifacts = h.artifacts)
    (hl : Handed (handOver before h₁ hierarchy).1 (handOver before h₁ hierarchy).2 later
      behind h') :
    Handed before h (hierarchy :: later) behind h' where
  roots_eq := by
    rw [hl.roots_eq, reportsOf_cons]
    simp [handOver]
  artifacts_eq := by
    rw [hl.artifacts_eq]
    simp [handOver, groups]
  history_eq := by
    have hfilter (as : List Artifact) :
        (as.map Event.handed).filterMap Event.artifact? = as := by
      rw [List.filterMap_map]
      exact List.filterMap_some
    rw [hl.history_eq]
    simp [handOver, groups, hfilter, heq]

end Handed

section Commits

variable {settings : Settings} {c : Compilation} {token : CancellationToken}

/-- Committing a root fails, or the root was worked out and is handed over as a whole. -/
theorem commit_eq_some {progress behind : Progress} {h h' : History} {work : Option Hierarchy}
    (hc : commit token progress h work = some (behind, h')) :
    ∃ hierarchy, work = some hierarchy ∧ handOver progress h hierarchy = (behind, h') := by
  rw [commit] at hc
  split at hc
  · cases hc
  · exact Option.map_eq_some_iff.1 hc

/-- Searching the trees hands nothing over, however the search ends. -/
theorem artifacts_searchTrees (token : CancellationToken) (h : History) {traces : List (List Event)}
    (hq : ∀ events ∈ traces, Quiet events) :
    (searchTrees token h traces).2.artifacts = h.artifacts := by
  induction traces generalizing h with
  | nil => rfl
  | cons events traces ih =>
    rw [searchTrees]
    split
    · rfl
    · rw [ih _ fun e he ↦ hq e (List.mem_cons_of_mem _ he)]
      exact h.artifacts_after_of_quiet (hq _ List.mem_cons_self)

/-- Walking the trees for a root hands nothing over, however the walk ends. -/
theorem artifacts_walkTrees (token : CancellationToken) (root : SymbolId) (h : History)
    {traces : List (String × List Event)} (hq : ∀ trace ∈ traces, Quiet trace.2) :
    (walkTrees token root h traces).2.artifacts = h.artifacts := by
  induction traces generalizing h with
  | nil => rfl
  | cons trace traces ih =>
    rw [walkTrees]
    split
    · simp
    · rw [ih _ fun e he ↦ hq e (List.mem_cons_of_mem _ he)]
      exact h.artifacts_after_of_quiet (hq _ List.mem_cons_self)

/-- Work on a root gives its hierarchy or nothing, and hands over nothing. -/
theorem workOut_spec (settings : Settings) (c : Compilation) (token : CancellationToken)
    (h : History) (root : Participant) :
    ((workOut settings c token h root).1 = none ∨
        (workOut settings c token h root).1 = some (c.hierarchy settings.matching root)) ∧
      (workOut settings c token h root).2.artifacts = h.artifacts := by
  have hwalk : (walkTrees token root.id h (c.walkTraces settings.matching root)).2.artifacts =
      h.artifacts := artifacts_walkTrees token root.id h fun _ ↦ c.quiet_of_mem_walkTraces
  rw [workOut]
  split
  next h₁ heq =>
    rw [heq] at hwalk
    refine ⟨.inr rfl, ?_⟩
    rw [History.artifacts_after_of_quiet _ (c.quiet_hierarchyTrace _ root)]
    exact hwalk
  next h₁ heq =>
    rw [heq] at hwalk
    exact ⟨.inl rfl, hwalk⟩

/-- **A pass that takes its roots in turn** hands over the first of them, and all of them if it
completes. -/
theorem runInTurn_spec {roots : List Participant} {before behind : Progress} {h h' : History}
    {outcome : Outcome}
    (hr : runInTurn settings c token before h roots = (outcome, behind, h')) :
    ∃ n ≤ roots.length,
      Handed before h ((roots.map (c.hierarchy settings.matching)).take n) behind h' ∧
        (outcome = .completed ↔ n = roots.length) := by
  induction roots generalizing before h with
  | nil =>
    cases hr
    exact ⟨0, le_rfl, .nil _ rfl, by simp⟩
  | cons root roots ih =>
    obtain ⟨hwork, hquiet⟩ := workOut_spec settings c token h root
    simp only [runInTurn] at hr
    split at hr
    · cases hr
      exact ⟨0, Nat.zero_le _, .nil _ hquiet, by simp⟩
    next progress h₁ hc =>
      -- What was committed was worked out, and then it is the hierarchy of the root.
      obtain ⟨hierarchy, hsome, hover⟩ := commit_eq_some hc
      obtain ⟨n, hn, hhanded, hiff⟩ := ih hr
      have hroot : hierarchy = c.hierarchy settings.matching root := by
        rcases hwork with hnone | hwork
        · rw [hnone] at hsome; cases hsome
        · rw [hwork] at hsome; exact (Option.some.inj hsome).symm
      subst hroot
      refine ⟨n + 1, Nat.succ_le_succ hn, ?_, by rw [hiff, List.length_cons]; omega⟩
      rw [List.map_cons, List.take_succ_cons]
      exact .cons hquiet (by rwa [hover])

/-- **Committing what workers gave back** hands over the first roots, and all of them if it
completes. -/
theorem commitAll_spec {roots : List Participant} {works : List (Option Hierarchy)}
    {before behind : Progress} {h h' : History} {outcome : Outcome}
    (hw : List.Forall₂ (fun root work ↦
      work = none ∨ work = some (c.hierarchy settings.matching root)) roots works)
    (hr : commitAll token before h works = (outcome, behind, h')) :
    ∃ n ≤ roots.length,
      Handed before h ((roots.map (c.hierarchy settings.matching)).take n) behind h' ∧
        (outcome = .completed ↔ n = roots.length) := by
  induction hw generalizing before h with
  | nil =>
    cases hr
    exact ⟨0, le_rfl, .nil _ rfl, by simp⟩
  | @cons root work roots works hwork _ ih =>
    simp only [commitAll] at hr
    split at hr
    · cases hr
      exact ⟨0, Nat.zero_le _, .nil _ rfl, by simp⟩
    next progress h₁ hc =>
      obtain ⟨hierarchy, rfl, hover⟩ := commit_eq_some hc
      obtain ⟨n, hn, hhanded, hiff⟩ := ih hr
      obtain rfl : hierarchy = c.hierarchy settings.matching root := by simpa using hwork
      refine ⟨n + 1, Nat.succ_le_succ hn, ?_, by rw [hiff, List.length_cons]; omega⟩
      rw [List.map_cons, List.take_succ_cons]
      exact .cons rfl (by rwa [hover])

/-- Each worker gives the hierarchy of its root or nothing. -/
theorem WorkedOut.forall₂ {h h' : History} {roots : List Participant}
    {works : List (Option Hierarchy)} (hw : WorkedOut settings c token h roots works h') :
    List.Forall₂ (fun root work ↦
      work = none ∨ work = some (c.hierarchy settings.matching root)) roots works := by
  obtain ⟨pool, hrun, -, rfl⟩ := hw
  rw [← hrun.map_root_of_start, List.forall₂_map_left_iff, List.forall₂_map_right_iff,
    List.forall₂_same]
  intro w _
  rw [Worker.result]
  split <;> simp

/-- Working out the hierarchies hands nothing over. -/
theorem WorkedOut.artifacts_eq {h h' : History} {roots : List Participant}
    {works : List (Option Hierarchy)} (hw : WorkedOut settings c token h roots works h') :
    h'.artifacts = h.artifacts := by
  obtain ⟨pool, hrun, -, -⟩ := hw
  exact hrun.artifacts_eq Worker.isQuiet_of_mem_start

end Commits

/-! ### The cut -/

/-- A pass that ended with the given report and history was cut behind `n` roots. -/
structure CutAt (settings : Settings) (c : Compilation) (h : History) (n : Nat)
    (report : PassReport) (h' : History) : Prop where
  le_length : n ≤ c.roots.length
  roots_eq : report.roots = (reports settings c).take n
  artifacts_eq : report.artifacts = ((pieces settings c).take n).flatten.map (·.name)
  history_eq : h'.artifacts = h.artifacts ++ ((pieces settings c).take n).flatten
  eq_length_of_completed : report.outcome = .completed → n = c.roots.length

section Ends

variable {settings : Settings} {c : Compilation} {token : CancellationToken} {h h' : History}
  {report : PassReport}

/-- What was handed over from the start of a pass, as a cut of its report. -/
theorem Handed.cutAt {h₁ : History} {progress : Progress} {outcome : Outcome} {n : Nat}
    (hh : Handed ⟨[], [], initialNames settings⟩ h₁ ((hierarchies settings c).take n) progress h')
    (heq : h₁.artifacts = h.artifacts) (hn : n ≤ c.roots.length)
    (ho : outcome = .completed ↔ n = c.roots.length) :
    CutAt settings c h n (finish outcome progress h').1 (finish outcome progress h').2 where
  le_length := hn
  roots_eq := by
    have hroots := hh.roots_eq
    rwa [List.nil_append, reportsOf_take] at hroots
  artifacts_eq := by
    have hartifacts := hh.artifacts_eq
    rwa [List.nil_append, groups_take] at hartifacts
  history_eq := by
    have hhistory := hh.history_eq
    rw [groups_take, heq] at hhistory
    exact (h'.artifacts_after_logged _).trans hhistory
  eq_length_of_completed := ho.1

/-- **Every end of a pass is a cut between roots.** -/
theorem MayEnd.exists_cutAt (hm : MayEnd settings c token h report h') :
    ∃ n, CutAt settings c h n report h' := by
  have hsearch := artifacts_searchTrees token h fun _ ↦ c.quiet_of_mem_scanTraces
  cases hm with
  | @stoppedSearch h₁ search =>
    rw [search] at hsearch
    refine ⟨0, Nat.zero_le _, rfl, rfl, ?_, fun ho ↦ by cases ho⟩
    rw [History.artifacts_after_logged, hsearch, List.take_zero, List.flatten_nil, List.append_nil]
  | inTurn mode search commits =>
    rw [search] at hsearch
    obtain ⟨n, hn, hh, ho⟩ := runInTurn_spec commits
    exact ⟨n, hh.cutAt hsearch hn ho⟩
  | inParallel mode search work commits =>
    rw [search] at hsearch
    obtain ⟨n, hn, hh, ho⟩ := commitAll_spec work.forall₂ commits
    exact ⟨n, hh.cutAt (work.artifacts_eq.trans hsearch) hn ho⟩

/-- Without cancellation the search goes through all trees. -/
theorem searchTrees_never (h : History) (traces : List (List Event)) :
    (searchTrees .never h traces).1 = true := by
  induction traces generalizing h with
  | nil => rfl
  | cons events traces ih => exact ih _

/-- Without cancellation the walk goes through all trees. -/
theorem walkTrees_never (root : SymbolId) (h : History) (traces : List (String × List Event)) :
    (walkTrees .never root h traces).1 = true := by
  induction traces generalizing h with
  | nil => rfl
  | cons trace traces ih => exact ih _

/-- Without cancellation a pass in turn completes. -/
theorem runInTurn_never (progress : Progress) (h : History) (roots : List Participant) :
    (runInTurn settings c .never progress h roots).1 = .completed := by
  induction roots generalizing progress h with
  | nil => rfl
  | cons root roots ih =>
    have hwork : (workOut settings c .never h root).1 =
        some (c.hierarchy settings.matching root) := by
      have hwalk := walkTrees_never root.id h (c.walkTraces settings.matching root)
      rw [workOut]
      split
      next => rfl
      next heq => rw [heq] at hwalk; cases hwalk
    simp only [runInTurn, hwork]
    exact ih _ _

/-- Without cancellation all that was worked out is handed over. -/
theorem commitAll_never (progress : Progress) (h : History) {works : List (Option Hierarchy)}
    (hw : ∀ work ∈ works, work ≠ none) :
    (commitAll .never progress h works).1 = .completed := by
  induction works generalizing progress h with
  | nil => rfl
  | cons work works ih =>
    obtain ⟨hierarchy, rfl⟩ := Option.ne_none_iff_exists'.1 (hw work List.mem_cons_self)
    exact ih _ _ fun work hmem ↦ hw work (List.mem_cons_of_mem _ hmem)

theorem WorkedOut.ne_none_of_never {roots : List Participant} {works : List (Option Hierarchy)}
    (hw : WorkedOut settings c .never h roots works h') : ∀ work ∈ works, work ≠ none := by
  obtain ⟨pool, hrun, -, rfl⟩ := hw
  have hstopped := hrun.stopped_eq_false_of_never fun w hmem ↦ by
    obtain ⟨root, -, rfl⟩ := List.mem_map.1 hmem
    rfl
  intro work hmem
  obtain ⟨w, hw, rfl⟩ := List.mem_map.1 hmem
  simp [Worker.result, hstopped w hw]

/-- A pass that nobody cancels completes. -/
theorem MayEnd.outcome_of_never (hm : MayEnd settings c .never h report h') :
    report.outcome = .completed := by
  have hsearch := searchTrees_never h c.scanTraces
  cases hm with
  | stoppedSearch search => rw [search] at hsearch; cases hsearch
  | inTurn mode search commits =>
    exact (congrArg Prod.fst commits).symm.trans (runInTurn_never _ _ _)
  | inParallel mode search work commits =>
    exact (congrArg Prod.fst commits).symm.trans (commitAll_never _ _ work.ne_none_of_never)

/-- Without cancellation every end of a pass reports all roots. -/
theorem MayEnd.roots_eq_of_never (hm : MayEnd settings c .never h report h') :
    report.roots = reports settings c := by
  obtain ⟨n, hn⟩ := hm.exists_cutAt
  rw [hn.roots_eq, hn.eq_length_of_completed hm.outcome_of_never]
  exact List.take_of_length_le (length_reports settings c).le

/-- **Cancellation cuts a pass only between roots.** Compare any end of a pass with any end of the
same pass never cancelled. Each root of the latter has its group of artifacts; the former reports a
prefix of the roots and has handed over exactly the groups of these, in order. It has stopped short
only if it says so. -/
theorem cut_between_roots {full : PassReport} {hfull : History}
    (cut : MayEnd settings c token h report h')
    (uncut : MayEnd settings c .never h full hfull) :
    ∃ (groups : List (List Artifact)) (n : Nat),
      groups.map (·.map (·.name)) = full.roots.map (·.artifacts) ∧
      hfull.artifacts = h.artifacts ++ groups.flatten ∧
      report.roots = full.roots.take n ∧
      h'.artifacts = h.artifacts ++ (groups.take n).flatten ∧
      (report.outcome = .completed → report.roots = full.roots) ∧
      (report.roots ≠ full.roots → report.outcome = .cancelled) := by
  obtain ⟨n, hn⟩ := cut.exists_cutAt
  -- The other pass was cut as well, but behind its last root.
  obtain ⟨m, hm⟩ := uncut.exists_cutAt
  have hroots : full.roots = reports settings c := by
    rw [hm.roots_eq, hm.eq_length_of_completed uncut.outcome_of_never]
    exact List.take_of_length_le (length_reports settings c).le
  have hhistory : hfull.artifacts = h.artifacts ++ (pieces settings c).flatten := by
    rw [hm.history_eq, hm.eq_length_of_completed uncut.outcome_of_never,
      List.take_of_length_le (length_pieces settings c).le]
  have hall : report.outcome = .completed → report.roots = full.roots := by
    intro ho
    rw [hroots, hn.roots_eq, hn.eq_length_of_completed ho]
    exact List.take_of_length_le (length_reports settings c).le
  refine ⟨pieces settings c, n, ?_, hhistory, ?_, hn.history_eq, hall, ?_⟩
  · rw [hroots]
    exact (map_artifacts_reportsOf _ _).symm
  · rw [hroots, hn.roots_eq]
  · intro hne
    cases ho : report.outcome with
    | completed => exact absurd (hall ho) hne
    | cancelled => rfl

end Ends

/-! ### A pass with two roots -/

/-- A file that declares the marker. -/
def markerSample : String × String :=
  ("Marker.cs", "namespace VisitorGenerator; class VisitorNodeAttribute;")

/-- Two roots with one type each. -/
def sample : List (String × String) :=
  [markerSample,
   ("Roots.cs",
    "using VisitorGenerator; [VisitorNode] interface IShape; [VisitorNode] interface IColor;"),
   ("Types.cs", "public class Circle : IShape; public struct Red : IColor;")]

/-- The first artifact cancels the pass, and still the whole first root is handed over. -/
theorem cut_between_roots_sample :
    ∃ trees, parseAll sample = .ok trees ∧
      let c := Compilation.ofTrees trees
      ∃ (groups : List (List Artifact)) (n : Nat),
        groups.map (·.map (·.name)) =
          [["Circle.g.cs", "IShapeVisitor.g.cs"], ["Red.g.cs", "IColorVisitor.g.cs"]] ∧
        (run { parallel := true } c (.onArtifact 1) []).1.roots =
          (run { parallel := true } c .never []).1.roots.take n ∧
        (run { parallel := true } c (.onArtifact 1) []).2.artifacts = (groups.take n).flatten ∧
        (run { parallel := true } c (.onArtifact 1) []).1.outcome = .cancelled := by
  obtain ⟨trees, htrees, hnames, hcut⟩ : ∃ trees, parseAll sample = .ok trees ∧
      let c := Compilation.ofTrees trees
      (run { parallel := true } c .never []).1.roots.map (·.artifacts) =
        [["Circle.g.cs", "IShapeVisitor.g.cs"], ["Red.g.cs", "IColorVisitor.g.cs"]] ∧
      (run { parallel := true } c (.onArtifact 1) []).1.roots ≠
        (run { parallel := true } c .never []).1.roots :=
    exists_parseAll sample [(_, _), (_, _), (_, _)] rfl (by decide +kernel)
  obtain ⟨groups, n, hgroups, -, hroots, hartifacts, -, hcancelled⟩ := cut_between_roots
    (mayEnd_run { parallel := true } (.ofTrees trees) (.onArtifact 1) [])
    (mayEnd_run { parallel := true } (.ofTrees trees) .never [])
  refine ⟨trees, htrees, groups, n, hgroups.trans hnames, hroots, ?_, hcancelled hcut⟩
  exact hartifacts.trans (List.nil_append _)

end Pass

end DoubleDispatch
