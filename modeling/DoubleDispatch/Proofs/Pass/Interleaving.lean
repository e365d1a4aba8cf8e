import DoubleDispatch.Proofs.Pass.History
import Mathlib.Logic.Relation

/-!
# Roots worked out in parallel

When the settings ask for it, the roots of a pass are worked out by several workers at once, and
nothing fixes the order in which these come to act. This module says what a pass may do under
**every** order: a pool of workers takes steps, each step is one action of one worker, and an
action either records an event or looks at the token. `Pass.MayEnd` collects the reports and
histories that a pass can end with; for settings that are not parallel there is exactly one.

`Pass.run` fixes one order, in which the workers act one after the other.
`mayEnd_run` says that it is among the orders considered here, so that whatever holds of every
possible end of a pass holds of `Pass.run`.

What a pool can do is bounded by three facts: the roots of the workers stay what they are
(`PoolRun.map_root_eq`), workers hand over nothing (`PoolRun.artifacts_eq`), and a token that nobody
cancels stops no worker (`PoolRun.stopped_eq_false_of_never`). Each is proved for one step of one
worker, and `PoolRun.keeps` carries what a step keeps along a run.
-/

namespace DoubleDispatch

open Relation (ReflTransGen)

/-- One action of a worker: it looks at the token before it searches a tree, or it records an
event. -/
inductive Action where
  | look (path : String)
  | record (e : Event)
deriving DecidableEq, Repr

/-- The actions that make up the search through the trees of a walk. -/
def Action.ofWalk (traces : List (String × List Event)) : List Action :=
  traces.flatMap fun (path, events) ↦ .look path :: events.map .record

/-- All actions of the work on a root that the token does not stop. -/
def Compilation.actions (c : Compilation) (matching : Matching) (root : Participant) :
    List Action :=
  Action.ofWalk (c.walkTraces matching root) ++ (c.hierarchyTrace matching root).map .record

/-- A worker with its root, the actions that are still to do, and whether the token stopped it. -/
structure Worker where
  root : Participant
  todo : List Action
  stopped : Bool
deriving DecidableEq, Repr

namespace Worker

/-- The worker that is about to work out a root. -/
def start (c : Compilation) (matching : Matching) (root : Participant) : Worker :=
  ⟨root, c.actions matching root, false⟩

/-- What a worker that is done gives back. -/
def result (c : Compilation) (matching : Matching) (w : Worker) : Option Hierarchy :=
  if w.stopped then none else some (c.hierarchy matching w.root)

/-- A worker takes its next action. One that sees the token cancelled logs this and is done. -/
inductive Step (token : CancellationToken) : Worker × History → Worker × History → Prop
  | record {root : Participant} {e : Event} {todo : List Action} {stopped : Bool} {h : History} :
    Step token (⟨root, .record e :: todo, stopped⟩, h) (⟨root, todo, stopped⟩, e :: h)
  | proceed {root : Participant} {path : String} {todo : List Action} {stopped : Bool}
      {h : History} (open_ : token h = false) :
    Step token (⟨root, .look path :: todo, stopped⟩, h) (⟨root, todo, stopped⟩, h)
  | stop {root : Participant} {path : String} {todo : List Action} {stopped : Bool}
      {h : History} (cancelled : token h = true) :
    Step token (⟨root, .look path :: todo, stopped⟩, h)
      (⟨root, [], true⟩, .logged (.observedCancellation root.id path) :: h)

/-- Whether no action that is still to do hands over an artifact. -/
def IsQuiet (w : Worker) : Prop := ∀ e, Action.record e ∈ w.todo → e.artifact? = none

end Worker

/-- One of the workers of a pool takes a step. -/
inductive PoolStep (token : CancellationToken) :
    List Worker × History → List Worker × History → Prop
  | mk {first later : List Worker} {w w' : Worker} {h h' : History}
      (step : Worker.Step token (w, h) (w', h')) :
    PoolStep token (first ++ w :: later, h) (first ++ w' :: later, h')

/-- A pool runs for any number of steps, in any order of its workers. -/
def PoolRun (token : CancellationToken) :
    List Worker × History → List Worker × History → Prop :=
  ReflTransGen (PoolStep token)

namespace Pass

/-- Workers on the given roots, started with one history, may give the results `works` and leave
the history `h'` when all of them are done. -/
def WorkedOut (settings : Settings) (c : Compilation) (token : CancellationToken) (h : History)
    (roots : List Participant) (works : List (Option Hierarchy)) (h' : History) : Prop :=
  ∃ pool, PoolRun token (roots.map (Worker.start c settings.matching), h) (pool, h') ∧
    (∀ w ∈ pool, w.todo = []) ∧ works = pool.map (Worker.result c settings.matching)

/-- The ends that a pass can come to. In a parallel pass the workers may act in any order; the
roots are committed when all of them are done. -/
inductive MayEnd (settings : Settings) (c : Compilation) (token : CancellationToken)
    (h : History) : PassReport → History → Prop
  | stoppedSearch {h₁ : History} (search : searchTrees token h c.scanTraces = (false, h₁)) :
    MayEnd settings c token h ⟨.cancelled, [], []⟩ (h₁.after [.logged .cancelledDuringScan])
  | inTurn {h₁ h₂ : History} {outcome : Outcome} {progress : Progress}
      (mode : settings.parallel = false)
      (search : searchTrees token h c.scanTraces = (true, h₁))
      (commits : runInTurn settings c token ⟨[], [], initialNames settings⟩ h₁ c.roots =
        (outcome, progress, h₂)) :
    MayEnd settings c token h (finish outcome progress h₂).1 (finish outcome progress h₂).2
  | inParallel {h₁ h₂ h₃ : History} {works : List (Option Hierarchy)} {outcome : Outcome}
      {progress : Progress} (mode : settings.parallel = true)
      (search : searchTrees token h c.scanTraces = (true, h₁))
      (work : WorkedOut settings c token h₁ c.roots works h₂)
      (commits : commitAll token ⟨[], [], initialNames settings⟩ h₂ works =
        (outcome, progress, h₃)) :
    MayEnd settings c token h (finish outcome progress h₃).1 (finish outcome progress h₃).2

end Pass

/-! ### What a pool can do -/

namespace Worker

variable {c : Compilation} {matching : Matching} {token : CancellationToken}

theorem Step.root_eq {s t : Worker × History} (step : Step token s t) : t.1.root = s.1.root := by
  cases step <;> rfl

theorem Step.isQuiet {s t : Worker × History} (step : Step token s t) (hq : s.1.IsQuiet) :
    t.1.IsQuiet := by
  cases step with
  | record => exact fun e he ↦ hq e (List.mem_cons_of_mem _ he)
  | proceed => exact fun e he ↦ hq e (List.mem_cons_of_mem _ he)
  | stop => exact fun e he ↦ absurd he List.not_mem_nil

theorem Step.artifacts_eq {s t : Worker × History} (step : Step token s t)
    (hq : s.1.IsQuiet) : t.2.artifacts = s.2.artifacts := by
  cases step with
  | @record root e todo stopped h => simp [hq e List.mem_cons_self]
  | proceed => rfl
  | stop => simp

theorem Step.suffix {s t : Worker × History} (step : Step token s t) : s.2 <:+ t.2 := by
  cases step with
  | record => exact List.suffix_cons _ _
  | proceed => exact List.suffix_rfl
  | stop => exact List.suffix_cons _ _

theorem Step.stopped_eq_false {s t : Worker × History} (step : Step token s t)
    (hopen : token s.2 = false) (hs : s.1.stopped = false) : t.1.stopped = false := by
  cases step with
  | record => exact hs
  | proceed => exact hs
  | stop cancelled => exact absurd cancelled (by rw [hopen]; exact Bool.noConfusion)

theorem isQuiet_start (root : Participant) : (start c matching root).IsQuiet := by
  intro e he
  rcases List.mem_append.1 he with he | he
  · obtain ⟨trace, ht, he⟩ := List.mem_flatMap.1 he
    rcases List.mem_cons.1 he with he | he
    · cases he
    · obtain ⟨e', he', heq⟩ := List.mem_map.1 he
      exact Action.record.inj heq ▸ c.quiet_of_mem_walkTraces ht _ he'
  · obtain ⟨e', he', heq⟩ := List.mem_map.1 he
    exact Action.record.inj heq ▸ c.quiet_hierarchyTrace matching root _ he'

theorem isQuiet_of_mem_start {roots : List Participant} :
    ∀ w ∈ roots.map (start c matching), w.IsQuiet :=
  List.forall_mem_map.2 fun root _ ↦ isQuiet_start root

end Worker

namespace PoolRun

variable {token : CancellationToken} {pool pool' : List Worker} {h h' : History}

/-- The workers keep their roots. -/
theorem map_root_eq (run : PoolRun token (pool, h) (pool', h')) :
    pool'.map (·.root) = pool.map (·.root) := by
  -- The induction needs both ends of the run as variables, and so does the next one.
  have key : ∀ s t, PoolRun token s t → t.1.map (·.root) = s.1.map (·.root) := by
    intro s t run
    induction run with
    | refl => rfl
    | tail _ step ih =>
      obtain ⟨step⟩ := step
      have hroot := step.root_eq
      rw [← ih]
      simpa using hroot
  exact key _ _ run

theorem map_root_of_start {c : Compilation} {matching : Matching} {roots : List Participant}
    (run : PoolRun token (roots.map (Worker.start c matching), h) (pool, h')) :
    pool.map (·.root) = roots := by
  rw [run.map_root_eq, List.map_map]
  exact List.map_id roots

/-- **What no step breaks holds at the end of a run**: a property of the history, and one of all
workers. -/
theorem keeps {I : History → Prop} {J : Worker → Prop}
    (hstep : ∀ {s t}, Worker.Step token s t → I s.2 → J s.1 → I t.2 ∧ J t.1)
    (run : PoolRun token (pool, h) (pool', h')) (hhistory : I h) (hworkers : ∀ w ∈ pool, J w) :
    I h' ∧ ∀ w ∈ pool', J w := by
  have key : ∀ s t, PoolRun token s t → I s.2 → (∀ w ∈ s.1, J w) → I t.2 ∧ ∀ w ∈ t.1, J w := by
    intro s t run hhistory hworkers
    induction run with
    | refl => exact ⟨hhistory, hworkers⟩
    | tail _ step ih =>
      obtain ⟨hhistory, hworkers⟩ := ih
      obtain ⟨step⟩ := step
      obtain ⟨hfirst, hlater⟩ := List.forall_mem_append.1 hworkers
      obtain ⟨hworker, hlater⟩ := List.forall_mem_cons.1 hlater
      obtain ⟨hhistory, hworker⟩ := hstep step hhistory hworker
      exact ⟨hhistory, List.forall_mem_append.2 ⟨hfirst, List.forall_mem_cons.2 ⟨hworker, hlater⟩⟩⟩
  exact key _ _ run hhistory hworkers

/-- Quiet workers hand over nothing. -/
theorem artifacts_eq (run : PoolRun token (pool, h) (pool', h'))
    (hq : ∀ w ∈ pool, w.IsQuiet) : h'.artifacts = h.artifacts :=
  (run.keeps (I := fun g ↦ g.artifacts = h.artifacts) (J := Worker.IsQuiet)
    (fun step heq hq ↦ ⟨(step.artifacts_eq hq).trans heq, step.isQuiet hq⟩) rfl hq).1

/-- A token that nobody cancels stops no worker. -/
theorem stopped_eq_false_of_never (run : PoolRun .never (pool, h) (pool', h'))
    (hs : ∀ w ∈ pool, w.stopped = false) : ∀ w ∈ pool', w.stopped = false :=
  (run.keeps (I := fun _ ↦ True) (J := fun w ↦ w.stopped = false)
    (fun step _ hs ↦ ⟨trivial, step.stopped_eq_false rfl hs⟩) trivial hs).2

end PoolRun

/-! ### Workers that act one after the other -/

namespace Worker

variable {token : CancellationToken}

/-- A worker records the events that come next. -/
theorem run_record (root : Participant) (events : List Event) (todo : List Action)
    (stopped : Bool) (h : History) :
    ReflTransGen (Step token) (⟨root, events.map .record ++ todo, stopped⟩, h)
      (⟨root, todo, stopped⟩, h.after events) := by
  induction events generalizing h with
  | nil => exact .refl
  | cons e events ih =>
    have hafter : h.after (e :: events) = History.after (e :: h) events := by
      simp [History.after]
    rw [hafter]
    exact .head .record (ih (e :: h))

/-- A walk that is not stopped leads to the actions behind it. -/
theorem run_walk {root : Participant} {traces : List (String × List Event)} {h h' : History}
    (walk : Pass.walkTrees token root.id h traces = (true, h')) (todo : List Action) :
    ReflTransGen (Step token) (⟨root, Action.ofWalk traces ++ todo, false⟩, h)
      (⟨root, todo, false⟩, h') := by
  induction traces generalizing h with
  | nil => cases walk; exact .refl
  | cons trace traces ih =>
    rw [Pass.walkTrees] at walk
    split at walk
    · cases walk
    next hopen =>
      simp only [Action.ofWalk, List.flatMap_cons, List.cons_append, List.append_assoc]
      exact .head (.proceed (by simpa using hopen)) ((run_record root _ _ _ h).trans (ih walk))

/-- A walk that is stopped leaves the worker with nothing to do. -/
theorem run_stoppedWalk {root : Participant} {traces : List (String × List Event)}
    {h h' : History} (walk : Pass.walkTrees token root.id h traces = (false, h'))
    (todo : List Action) :
    ReflTransGen (Step token) (⟨root, Action.ofWalk traces ++ todo, false⟩, h)
      (⟨root, [], true⟩, h') := by
  induction traces generalizing h with
  | nil => cases walk
  | cons trace traces ih =>
    rw [Pass.walkTrees] at walk
    simp only [Action.ofWalk, List.flatMap_cons, List.cons_append, List.append_assoc]
    split at walk
    next hcancelled =>
      cases walk
      exact .single (.stop hcancelled)
    next hopen =>
      exact .head (.proceed (by simpa using hopen)) ((run_record root _ _ _ h).trans (ih walk))

/-- A worker that acts alone works out its root. -/
theorem run_workOut (settings : Settings) (c : Compilation) (token : CancellationToken)
    (root : Participant) (h : History) :
    ∃ stopped, ReflTransGen (Step token) (start c settings.matching root, h)
        (⟨root, [], stopped⟩, (Pass.workOut settings c token h root).2) ∧
      (Pass.workOut settings c token h root).1 =
        result c settings.matching ⟨root, [], stopped⟩ := by
  rw [Pass.workOut]
  split
  next h₁ walk =>
    refine ⟨false, (run_walk walk _).trans ?_, rfl⟩
    simpa using run_record root (c.hierarchyTrace settings.matching root) [] false h₁
  next h₁ walk => exact ⟨true, run_stoppedWalk walk _, rfl⟩

end Worker

/-- What one worker does alone, it can do in a pool. -/
theorem PoolRun.ofWorker {token : CancellationToken} {s t : Worker × History}
    (run : ReflTransGen (Worker.Step token) s t) (first later : List Worker) :
    PoolRun token (first ++ s.1 :: later, s.2) (first ++ t.1 :: later, t.2) := by
  induction run with
  | refl => exact .refl
  | tail _ step ih => exact ih.tail (.mk step)

namespace Pass

variable {settings : Settings} {c : Compilation} {token : CancellationToken}

/-- A pool whose first workers are done lets the others act in turn. -/
theorem poolRun_workOutAll (roots : List Participant) (h : History) (first : List Worker) :
    ∃ pool, PoolRun token (first ++ roots.map (Worker.start c settings.matching), h)
        (first ++ pool, (workOutAll settings c token h roots).2) ∧
      (∀ w ∈ pool, w.todo = []) ∧
      (workOutAll settings c token h roots).1 =
        pool.map (Worker.result c settings.matching) := by
  induction roots generalizing h first with
  | nil => exact ⟨[], .refl, by simp, rfl⟩
  | cons root roots ih =>
    -- The first worker acts until it is done and joins those in front of the others.
    obtain ⟨stopped, hrun, hwork⟩ := Worker.run_workOut settings c token root h
    obtain ⟨pool, hpool, hdone, hworks⟩ :=
      ih (workOut settings c token h root).2 (first ++ [⟨root, [], stopped⟩])
    refine ⟨⟨root, [], stopped⟩ :: pool, ?_, ?_, ?_⟩
    · rw [List.append_assoc, List.append_assoc] at hpool
      exact (PoolRun.ofWorker hrun first _).trans hpool
    · intro w hw
      rcases List.mem_cons.1 hw with rfl | hw
      · rfl
      · exact hdone w hw
    · rw [List.map_cons, ← hwork, ← hworks]
      rfl

theorem workedOut_workOutAll (h : History) (roots : List Participant) :
    WorkedOut settings c token h roots (workOutAll settings c token h roots).1
      (workOutAll settings c token h roots).2 :=
  poolRun_workOutAll roots h []

/-- **`Pass.run` is one of the ends a pass can come to**, namely that of workers that act one after
the other. -/
theorem mayEnd_run (settings : Settings) (c : Compilation) (token : CancellationToken)
    (h : History) :
    MayEnd settings c token h (run settings c token h).1 (run settings c token h).2 := by
  rw [run]
  rcases hs : searchTrees token h c.scanTraces with ⟨_ | _, h₁⟩
  · exact .stoppedSearch hs
  · unfold runRoots
    cases hp : settings.parallel
    · exact .inTurn hp hs rfl
    · exact .inParallel hp hs (workedOut_workOutAll h₁ c.roots) rfl

end Pass

end DoubleDispatch
