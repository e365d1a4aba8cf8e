import DoubleDispatch.Proofs.Pass.Cut
import Mathlib.Data.List.Perm.Basic

/-!
# Parallel and sequential passes

A sequential pass works out and hands over one root after the other, a parallel pass works out all
roots before it hands over the first. As long as nobody but the receiver of the artifacts cancels
the pass, the two cannot be told apart: they end with the same report and the same artifacts, and if
nobody cancels at all also with the same log up to its order.

The proof compares the two at the points where a root is committed. Between two of these points
nothing is handed over, so the token stays as it is (`CancellationToken.IsOpenFrom`), and work that
starts while it is open ends with a hierarchy, in whatever order the workers act.
-/

namespace DoubleDispatch

/-! ### Tokens that only the receiver of the artifacts cancels -/

namespace CancellationToken

variable {token : CancellationToken} {h h' : History}

/-- Nobody but the receiver of the artifacts cancels a pass that starts with this history. -/
inductive IsByReceiver (token : CancellationToken) (h : History) : Prop
  | never (hnever : ∀ h', token h' = false) : IsByReceiver token h
  /-- The token is cancelled before the pass, and a cancelled token stays so. -/
  | before (hcancelled : token h = true) (hmonotone : token.Monotone) : IsByReceiver token h
  /-- The artifacts that have been handed over decide. -/
  | receiver (hartifacts : ∀ h₁ h₂ : History, h₁.artifacts = h₂.artifacts → token h₁ = token h₂) :
    IsByReceiver token h

/-- What has been cancelled stays so in every later history. -/
theorem Monotone.of_suffix (hmonotone : token.Monotone) (hsuffix : h <:+ h')
    (hcancelled : token h = true) : token h' = true := by
  obtain ⟨events, rfl⟩ := hsuffix
  induction events with
  | nil => exact hcancelled
  | cons e events ih => exact hmonotone e _ ih

/-- From the start of the pass on only the artifacts matter. -/
theorem IsByReceiver.eq_of_artifacts (ht : token.IsByReceiver h) {h₁ h₂ : History}
    (hs₁ : h <:+ h₁) (hs₂ : h <:+ h₂) (heq : h₁.artifacts = h₂.artifacts) :
    token h₁ = token h₂ := by
  cases ht with
  | never hnever => rw [hnever, hnever]
  | before hcancelled hmonotone =>
    rw [hmonotone.of_suffix hs₁ hcancelled, hmonotone.of_suffix hs₂ hcancelled]
  | receiver hartifacts => exact hartifacts h₁ h₂ heq

/-- The token is not cancelled, and nobody cancels it before the next artifact. -/
def IsOpenFrom (token : CancellationToken) (h : History) : Prop :=
  ∀ h' : History, h <:+ h' → h'.artifacts = h.artifacts → token h' = false

/-- As long as nothing is handed over, an open token stays open. -/
theorem IsOpenFrom.of_suffix (hopen : token.IsOpenFrom h) (hsuffix : h <:+ h')
    (heq : h'.artifacts = h.artifacts) : token.IsOpenFrom h' :=
  fun h'' hsuffix' heq' ↦ hopen h'' (hsuffix.trans hsuffix') (heq'.trans heq)

/-- An open token is not cancelled. -/
theorem IsOpenFrom.eq_false (hopen : token.IsOpenFrom h) : token h = false :=
  hopen h List.suffix_rfl rfl

/-- If the token is open at some time of the pass, it is until the next artifact. -/
theorem IsByReceiver.isOpenFrom (ht : token.IsByReceiver h) (hsuffix : h <:+ h')
    (hopen : token h' = false) : token.IsOpenFrom h' := by
  intro h'' hsuffix' heq
  rw [ht.eq_of_artifacts (hsuffix.trans hsuffix') hsuffix heq, hopen]

end CancellationToken

theorem History.suffix_after (h : History) (events : List Event) : h <:+ h.after events :=
  List.suffix_append _ _

/-- Quiet events leave a token open. -/
theorem CancellationToken.IsOpenFrom.after {token : CancellationToken} {h : History}
    (hopen : token.IsOpenFrom h) {events : List Event} (hq : Quiet events) :
    token.IsOpenFrom (h.after events) :=
  hopen.of_suffix (h.suffix_after events) (h.artifacts_after_of_quiet hq)

/-! ### Work while the token is open -/

namespace PoolRun

variable {token : CancellationToken} {pool pool' : List Worker} {h h' : History}

/-- The workers of a pool only add to the history. -/
theorem suffix (run : PoolRun token (pool, h) (pool', h')) : h <:+ h' :=
  (run.keeps (I := fun g ↦ h <:+ g) (J := fun _ ↦ True)
    (fun step hsuffix _ ↦ ⟨hsuffix.trans step.suffix, trivial⟩) List.suffix_rfl
    fun _ _ ↦ trivial).1

/-- An open token stops none of the workers, because these hand over nothing. -/
theorem stopped_eq_false_of_isOpenFrom (run : PoolRun token (pool, h) (pool', h'))
    (hopen : token.IsOpenFrom h) (hq : ∀ w ∈ pool, w.IsQuiet)
    (hs : ∀ w ∈ pool, w.stopped = false) : ∀ w ∈ pool', w.stopped = false := by
  obtain ⟨-, hworkers⟩ := run.keeps (I := token.IsOpenFrom)
    (J := fun w ↦ w.IsQuiet ∧ w.stopped = false)
    (fun step hopen ⟨hq, hs⟩ ↦ ⟨hopen.of_suffix step.suffix (step.artifacts_eq hq),
      step.isQuiet hq, step.stopped_eq_false hopen.eq_false hs⟩)
    hopen fun w hw ↦ ⟨hq w hw, hs w hw⟩
  exact fun w hw ↦ (hworkers w hw).2

end PoolRun

namespace Pass

variable {settings : Settings} {c : Compilation} {token : CancellationToken} {h : History}

/-- The roots as they are worked out when nothing stops the work. -/
def allWorkedOut (settings : Settings) (c : Compilation) (roots : List Participant) :
    List (Option Hierarchy) :=
  roots.map fun root ↦ some (c.hierarchy settings.matching root)

/-- Workers that start while the token is open all give their hierarchies. -/
theorem WorkedOut.eq_of_isOpenFrom {roots : List Participant} {works : List (Option Hierarchy)}
    {h' : History} (hw : WorkedOut settings c token h roots works h')
    (hopen : token.IsOpenFrom h) : works = allWorkedOut settings c roots := by
  obtain ⟨pool, hrun, -, rfl⟩ := hw
  have hstopped := hrun.stopped_eq_false_of_isOpenFrom hopen Worker.isQuiet_of_mem_start
    (List.forall_mem_map.2 fun _ _ ↦ rfl)
  rw [← hrun.map_root_of_start, allWorkedOut, List.map_map]
  refine List.map_congr_left fun w hw ↦ ?_
  simp [Worker.result, hstopped w hw]

theorem WorkedOut.suffix {roots : List Participant} {works : List (Option Hierarchy)}
    {h' : History} (hw : WorkedOut settings c token h roots works h') : h <:+ h' := by
  obtain ⟨pool, hrun, -, -⟩ := hw
  exact hrun.suffix

theorem suffix_searchTrees (token : CancellationToken) (h : History) (traces : List (List Event)) :
    h <:+ (searchTrees token h traces).2 := by
  induction traces generalizing h with
  | nil => exact List.suffix_rfl
  | cons events traces ih =>
    rw [searchTrees]
    split
    · exact List.suffix_rfl
    · exact (h.suffix_after events).trans (ih _)

theorem suffix_walkTrees (token : CancellationToken) (root : SymbolId) (h : History)
    (traces : List (String × List Event)) : h <:+ (walkTrees token root h traces).2 := by
  induction traces generalizing h with
  | nil => exact List.suffix_rfl
  | cons trace traces ih =>
    rw [walkTrees]
    split
    · exact h.suffix_after _
    · exact (h.suffix_after trace.2).trans (ih _)

/-- Working out a root only adds to the history. -/
theorem suffix_workOut (root : Participant) : h <:+ (workOut settings c token h root).2 := by
  have hwalk := suffix_walkTrees token root.id h (c.walkTraces settings.matching root)
  rw [workOut]
  split
  next h₁ heq =>
    rw [heq] at hwalk
    exact hwalk.trans (h₁.suffix_after _)
  next h₁ heq =>
    rw [heq] at hwalk
    exact hwalk

/-- While the token is open, all trees are walked. -/
theorem walkTrees_of_isOpenFrom (root : SymbolId) {traces : List (String × List Event)}
    (hopen : token.IsOpenFrom h) (hq : ∀ trace ∈ traces, Quiet trace.2) :
    (walkTrees token root h traces).1 = true := by
  induction traces generalizing h with
  | nil => rfl
  | cons trace traces ih =>
    obtain ⟨hfirst, hlater⟩ := List.forall_mem_cons.1 hq
    rw [walkTrees, if_neg (by rw [hopen.eq_false]; exact Bool.noConfusion)]
    exact ih (hopen.after hfirst) hlater

/-- While the token is open, a root is worked out to its hierarchy. -/
theorem workOut_of_isOpenFrom (root : Participant) (hopen : token.IsOpenFrom h) :
    (workOut settings c token h root).1 = some (c.hierarchy settings.matching root) := by
  have hquiet : ∀ trace ∈ c.walkTraces settings.matching root, Quiet trace.2 :=
    fun _ ↦ c.quiet_of_mem_walkTraces
  have hwalk := walkTrees_of_isOpenFrom root.id hopen hquiet
  rw [workOut]
  split
  next => rfl
  next heq => rw [heq] at hwalk; cases hwalk

/-! ### Handing over root by root -/

theorem suffix_handOver (progress : Progress) (h : History) (hierarchy : Hierarchy) :
    h <:+ (handOver progress h hierarchy).2 := h.suffix_after _

/-- Handing over gives the same progress and adds the same artifacts after any history. -/
theorem handOver_congr (progress : Progress) {h₁ h₂ : History} (hierarchy : Hierarchy)
    (heq : h₁.artifacts = h₂.artifacts) :
    (handOver progress h₁ hierarchy).1 = (handOver progress h₂ hierarchy).1 ∧
      (handOver progress h₁ hierarchy).2.artifacts =
        (handOver progress h₂ hierarchy).2.artifacts := by
  refine ⟨rfl, ?_⟩
  rw [handOver, handOver, History.artifacts_after, History.artifacts_after, heq]

/-- **Working out in turn is committing what is worked out**: at every root the token says the same,
since the work between two commits hands over nothing. -/
theorem runInTurn_eq_commitAll (settings : Settings) (c : Compilation) (ht : token.IsByReceiver h)
    (roots : List Participant) (progress : Progress) {h₁ h₂ : History} (hs₁ : h <:+ h₁)
    (hs₂ : h <:+ h₂) (heq : h₁.artifacts = h₂.artifacts) :
    let turn := runInTurn settings c token progress h₁ roots
    let all := commitAll token progress h₂ (allWorkedOut settings c roots)
    turn.1 = all.1 ∧ turn.2.1 = all.2.1 ∧ turn.2.2.artifacts = all.2.2.artifacts := by
  induction roots generalizing progress h₁ h₂ with
  | nil => exact ⟨rfl, rfl, heq⟩
  | cons root roots ih =>
    have hquiet := (workOut_spec settings c token h₁ root).2
    have hsuffix : h <:+ (workOut settings c token h₁ root).2 := hs₁.trans (suffix_workOut root)
    have hsame : (workOut settings c token h₁ root).2.artifacts = h₂.artifacts := hquiet.trans heq
    have htoken : token (workOut settings c token h₁ root).2 = token h₂ :=
      ht.eq_of_artifacts hsuffix hs₂ hsame
    have hall : allWorkedOut settings c (root :: roots) =
        some (c.hierarchy settings.matching root) :: allWorkedOut settings c roots := rfl
    rw [hall]
    simp only [runInTurn, commitAll, commit, htoken]
    cases hopen : token h₂ with
    | true => exact ⟨rfl, rfl, hsame⟩
    | false =>
      -- The token was open during the work as well, so there is a hierarchy to hand over.
      have hstart : token h₁ = false := by rw [ht.eq_of_artifacts hs₁ hs₂ heq, hopen]
      have hwork : (workOut settings c token h₁ root).1 =
          some (c.hierarchy settings.matching root) :=
        workOut_of_isOpenFrom root (ht.isOpenFrom hs₁ hstart)
      rw [hwork]
      obtain ⟨hprogress, hartifacts⟩ :=
        handOver_congr progress (c.hierarchy settings.matching root) hsame
      have hih := ih (handOver progress h₂ (c.hierarchy settings.matching root)).1
        (hsuffix.trans (suffix_handOver progress _ _)) (hs₂.trans (suffix_handOver progress _ _))
        hartifacts
      rw [← hprogress] at hih
      exact hih

/-! ### What a pass records that nobody cancels -/

/-- The events of the work on a root that is not stopped. -/
def workTrace (settings : Settings) (c : Compilation) (root : Participant) : List Event :=
  (c.walkTraces settings.matching root).flatMap (·.2) ++ c.hierarchyTrace settings.matching root

end Pass

/-- The event that an action records. -/
def Action.event? : Action → Option Event
  | look _ => none
  | record e => some e

/-- The events that a worker is still to record. -/
def Worker.due (w : Worker) : List Event := w.todo.filterMap Action.event?

/-- A worker that starts has all the events of its root before it. -/
theorem Worker.due_start (settings : Settings) (c : Compilation) (root : Participant) :
    (start c settings.matching root).due = Pass.workTrace settings c root := by
  have hrecords (events : List Event) : (events.map Action.record).filterMap Action.event? =
      events := by
    rw [List.filterMap_map]
    exact List.filterMap_some
  have hwalk (traces : List (String × List Event)) :
      (Action.ofWalk traces).filterMap Action.event? = traces.flatMap (·.2) := by
    rw [Action.ofWalk, List.filterMap_flatMap]
    exact List.flatMap_congr fun trace _ ↦ hrecords trace.2
  show (Action.ofWalk _ ++ _).filterMap Action.event? = _
  rw [List.filterMap_append, hwalk, hrecords]
  rfl

/-- What is recorded and what is due stay the same together. -/
theorem Worker.Step.perm_due {s t : Worker × History} (step : Worker.Step .never s t) :
    (t.2 ++ t.1.due).Perm (s.2 ++ s.1.due) := by
  cases step with
  | @record root e todo stopped h =>
    show (e :: (h ++ todo.filterMap Action.event?)).Perm
      (h ++ e :: todo.filterMap Action.event?)
    exact List.perm_middle.symm
  | proceed => exact .refl _
  | stop cancelled => cases cancelled

/-- **However workers take turns**, what has happened and what is due are together the same events.
-/
theorem PoolRun.perm_due {pool pool' : List Worker} {h h' : History}
    (run : PoolRun .never (pool, h) (pool', h')) :
    (h' ++ pool'.flatMap Worker.due).Perm (h ++ pool.flatMap Worker.due) := by
  have key : ∀ s t, PoolRun .never s t →
      (t.2 ++ t.1.flatMap Worker.due).Perm (s.2 ++ s.1.flatMap Worker.due) := by
    intro s t run
    induction run with
    | refl => exact .refl _
    | tail _ step ih =>
      refine List.Perm.trans ?_ ih
      obtain @⟨first, later, w, w', h, h', step⟩ := step
      have hstep := step.perm_due
      rw [List.perm_iff_count] at hstep ⊢
      intro e
      have hcount := hstep e
      simp only [List.flatMap_append, List.flatMap_cons, List.count_append] at hcount ⊢
      omega
  exact key _ _ run

namespace Pass

variable {settings : Settings} {c : Compilation}

/-- Workers that nobody stops have together recorded the events of all roots. -/
theorem WorkedOut.perm_of_never {roots : List Participant} {works : List (Option Hierarchy)}
    {h h' : History} (hw : WorkedOut settings c .never h roots works h') :
    h'.Perm (h ++ roots.flatMap (workTrace settings c)) := by
  obtain ⟨pool, hrun, hdone, -⟩ := hw
  have hdue : pool.flatMap Worker.due = [] := by
    rw [List.flatMap_eq_nil_iff]
    intro w hmem
    rw [Worker.due, hdone w hmem]
    rfl
  have hstart : (roots.map (Worker.start c settings.matching)).flatMap Worker.due =
      roots.flatMap (workTrace settings c) := by
    rw [List.flatMap_map]
    exact List.flatMap_congr fun root _ ↦ Worker.due_start settings c root
  have hperm := hrun.perm_due
  rwa [hdue, List.append_nil, hstart] at hperm

/-- Without cancellation all traces are added in order. -/
theorem walkTrees_never_eq (root : SymbolId) (h : History) (traces : List (String × List Event)) :
    walkTrees .never root h traces = (true, h.after (traces.flatMap (·.2))) := by
  induction traces generalizing h with
  | nil => rfl
  | cons trace traces ih =>
    show walkTrees .never root (h.after trace.2) traces = _
    rw [ih, List.flatMap_cons]
    simp [History.after]

/-- Without cancellation all that is done for a root is added. -/
theorem workOut_never_eq (h : History) (root : Participant) :
    workOut settings c .never h root =
      (some (c.hierarchy settings.matching root), h.after (workTrace settings c root)) := by
  rw [workOut, walkTrees_never_eq, workTrace]
  simp [History.after]

/-- A pass in turn records the events of each root before it hands over its artifacts, and a
parallel pass those of all roots before the first artifact. -/
theorem perm_runInTurn_commitAll (settings : Settings) (c : Compilation)
    (roots : List Participant) (progress : Progress) {h₁ h₂ : History}
    (hperm : h₂.Perm (h₁ ++ roots.flatMap (workTrace settings c))) :
    (commitAll .never progress h₂ (allWorkedOut settings c roots)).2.2.Perm
      (runInTurn settings c .never progress h₁ roots).2.2 := by
  induction roots generalizing progress h₁ h₂ with
  | nil => simpa [runInTurn, commitAll, allWorkedOut] using hperm
  | cons root roots ih =>
    have hall : allWorkedOut settings c (root :: roots) =
        some (c.hierarchy settings.matching root) :: allWorkedOut settings c roots := rfl
    rw [hall]
    simp only [runInTurn, commitAll, commit, workOut_never_eq]
    refine ih _ ?_
    rw [List.perm_iff_count] at hperm ⊢
    intro e
    have hcount := hperm e
    simp only [History.after, List.flatMap_cons, List.count_append,
      List.count_reverse] at hcount ⊢
    omega

theorem log_perm {h h' : History} (hperm : h.Perm h') : h.log.Perm h'.log :=
  ((List.reverse_perm h).trans (hperm.trans (List.reverse_perm h').symm)).filterMap _

/-! ### The two passes -/

/-- Where there is nothing to scan there are no roots. -/
theorem roots_eq_nil_of_scanTraces (hc : c.scanTraces = []) : c.roots = [] := by
  rw [Compilation.scanTraces] at hc
  cases hn : c.numbered with
  | nil => simp [Compilation.roots, Compilation.sites, hn, firstOfEach]
  | cons first later =>
    obtain ⟨tree, number⟩ := first
    rw [hn, scanTrees] at hc
    cases hc

/-- A search that went through all trees has seen the token open before the first of them. -/
theorem eq_false_of_searchTrees {token : CancellationToken} {h h' : History}
    {traces : List (List Event)} (hs : searchTrees token h traces = (true, h'))
    (hne : traces ≠ []) : token h = false := by
  cases traces with
  | nil => exact absurd rfl hne
  | cons events traces =>
    rw [searchTrees] at hs
    split at hs
    · cases hs
    next hopen => exact by simpa using hopen

/-- Behind a search that was not stopped, the workers of a parallel pass give all hierarchies. -/
theorem WorkedOut.eq_of_searchTrees {token : CancellationToken} {h h₁ h₂ : History}
    {works : List (Option Hierarchy)} (ht : token.IsByReceiver h)
    (search : searchTrees token h c.scanTraces = (true, h₁))
    (work : WorkedOut settings c token h₁ c.roots works h₂) :
    works = allWorkedOut settings c c.roots := by
  by_cases hc : c.scanTraces = []
  · -- Nobody looked at the token, but there is nothing to work out either.
    rw [roots_eq_nil_of_scanTraces hc] at work ⊢
    exact (List.forall₂_nil_left_iff.1 work.forall₂)
  · have hsuffix := suffix_searchTrees token h c.scanTraces
    have hquiet := artifacts_searchTrees token h fun _ ↦ c.quiet_of_mem_scanTraces
    rw [search] at hsuffix hquiet
    have hopen : token.IsOpenFrom h :=
      ht.isOpenFrom List.suffix_rfl (eq_false_of_searchTrees search hc)
    exact work.eq_of_isOpenFrom (hopen.of_suffix hsuffix hquiet)

/-- Finishing a pass hands over nothing. -/
theorem artifacts_finish (outcome : Outcome) (progress : Progress) (h : History) :
    (finish outcome progress h).2.artifacts = h.artifacts := h.artifacts_after_logged _

/-- **Parallel equals sequential.** A parallel and a sequential pass over one compilation end with
the same report and the same artifacts if only the receiver of the artifacts cancels them, and with
the same log up to its order if nobody does. -/
theorem parallel_eq_inTurn (settings : Settings) {token : CancellationToken} {h h₁ h₂ : History}
    {report report' : PassReport} (ht : token.IsByReceiver h)
    (hparallel : MayEnd { settings with parallel := true } c token h report h₁)
    (hturn : MayEnd { settings with parallel := false } c token h report' h₂) :
    report = report' ∧ h₁.artifacts = h₂.artifacts ∧
      ((∀ h', token h' = false) → h₁.log.Perm h₂.log) := by
  cases hparallel with
  | inTurn mode => cases mode
  | stoppedSearch search =>
    cases hturn with
    | inParallel mode => cases mode
    | inTurn _ search' => rw [search] at search'; cases search'
    | stoppedSearch search' =>
      rw [search] at search'
      cases search'
      exact ⟨rfl, rfl, fun _ ↦ .refl _⟩
  | @inParallel h₃ h₄ h₅ works outcome progress _ search work commits =>
    cases hturn with
    | inParallel mode => cases mode
    | stoppedSearch search' => rw [search] at search'; cases search'
    | @inTurn h₆ h₇ outcome' progress' _ search' commits' =>
      obtain rfl : h₃ = h₆ := congrArg Prod.snd (search.symm.trans search')
      have hsuffix : h <:+ h₃ := by
        have hs := suffix_searchTrees token h c.scanTraces
        rwa [search] at hs
      obtain rfl := work.eq_of_searchTrees ht search
      have hcommits : commitAll token ⟨[], [], initialNames settings⟩ h₄
          (allWorkedOut { settings with parallel := false } c c.roots) =
            (outcome, progress, h₅) := commits
      obtain ⟨houtcome, hprogress, hartifacts⟩ :=
        runInTurn_eq_commitAll { settings with parallel := false } c ht c.roots
          ⟨[], [], initialNames settings⟩ hsuffix (hsuffix.trans work.suffix)
          work.artifacts_eq.symm
      rw [hcommits] at houtcome hprogress hartifacts
      rw [show initialNames { settings with parallel := false } = initialNames settings from rfl]
        at commits'
      rw [commits'] at houtcome hprogress hartifacts
      obtain rfl : outcome' = outcome := houtcome
      obtain rfl : progress' = progress := hprogress
      refine ⟨rfl, ?_, fun hnever ↦ ?_⟩
      · rw [artifacts_finish, artifacts_finish]
        exact hartifacts.symm
      · obtain rfl : token = .never := funext hnever
        have hperm := perm_runInTurn_commitAll { settings with parallel := false } c c.roots
          ⟨[], [], initialNames settings⟩ work.perm_of_never
        rw [hcommits, commits'] at hperm
        exact log_perm (hperm.cons _)

/-- The first artifact cancels the pass over the sample, and the first root is handed over either
way. -/
theorem parallel_eq_inTurn_sample :
    ∃ trees, parseAll sample = .ok trees ∧
      let c := Compilation.ofTrees trees
      (run { parallel := true } c (.onArtifact 1) []).1 = (run {} c (.onArtifact 1) []).1 ∧
        (run { parallel := true } c (.onArtifact 1) []).2.artifacts =
          (run {} c (.onArtifact 1) []).2.artifacts ∧
        (run {} c (.onArtifact 1) []).1.artifacts = ["Circle.g.cs", "IShapeVisitor.g.cs"] ∧
        (run { parallel := true } c .never []).2.log.Perm (run {} c .never []).2.log := by
  obtain ⟨trees, htrees, hnames⟩ : ∃ trees, parseAll sample = .ok trees ∧
      (run {} (.ofTrees trees) (.onArtifact 1) []).1.artifacts =
        ["Circle.g.cs", "IShapeVisitor.g.cs"] :=
    exists_parseAll sample [(_, _), (_, _), (_, _)] rfl (by decide +kernel)
  have hreceiver : CancellationToken.IsByReceiver (.onArtifact 1) [] :=
    .receiver fun h₁ h₂ heq ↦ by rw [CancellationToken.onArtifact, heq]; rfl
  obtain ⟨hreport, hartifacts, -⟩ := parallel_eq_inTurn {} hreceiver
    (mayEnd_run { parallel := true } (.ofTrees trees) (.onArtifact 1) []) (mayEnd_run {} _ _ [])
  obtain ⟨-, -, hlog⟩ := parallel_eq_inTurn {} (.never fun _ ↦ rfl)
    (mayEnd_run { parallel := true } (.ofTrees trees) .never []) (mayEnd_run {} _ .never [])
  exact ⟨trees, htrees, hreport, hartifacts, hnames, hlog fun _ ↦ rfl⟩

end Pass

end DoubleDispatch
