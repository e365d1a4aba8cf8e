import DoubleDispatch.Proofs.Artifact.Names
import DoubleDispatch.Proofs.Pass.Cut

/-!
# What a pass reports and what it hands over

The report of a pass and the store that receives its artifacts agree: name by name, root by root,
and text by text. Since every end of a pass is a cut of the same contributions, it is enough to
look at these, and there one invariant decides: **the lower case of every name handed over so far
is taken, and no two of them agree** (`Fresh`). Claims keep it because a granted name was free, so
it holds within a root, across roots, and against the marker, whose name is taken from the start.
-/

namespace DoubleDispatch

/-- The lower case of the name of an artifact. -/
def Artifact.key (a : Artifact) : String := Text.toLowercase a.name

namespace Pass

/-! ### Names within a pass -/

/-- Artifacts that were named one after the other, from the first to the second state of the
names: their keys differ from each other and from those taken before, and are taken afterwards. -/
structure Fresh (before : ArtifactNames) (artifacts : List Artifact) (behind : ArtifactNames) :
    Prop where
  nodup : (artifacts.map (·.key)).Nodup
  notMem_taken : ∀ a ∈ artifacts, a.key ∉ before.taken
  mem_taken_iff : ∀ key, key ∈ behind.taken ↔ key ∈ before.taken ∨ key ∈ artifacts.map (·.key)

namespace Fresh

theorem nil (names : ArtifactNames) : Fresh names [] names where
  nodup := List.nodup_nil
  notMem_taken := by simp
  mem_taken_iff := by simp

/-- **One claim more.** -/
theorem claim (names : ArtifactNames) (candidates : List String) (text : String) :
    Fresh names [⟨(names.claim candidates).1, text⟩] (names.claim candidates).2 where
  nodup := List.nodup_singleton _
  notMem_taken := by
    intro a ha
    rw [List.mem_singleton.1 ha]
    exact names.toLowercase_claim_notMem candidates
  mem_taken_iff := by
    intro key
    rw [names.taken_claim, List.mem_cons, or_comm, List.map_singleton, List.mem_singleton]
    rfl

/-- Artifacts that are named in two batches are named as one batch. -/
theorem append {before middle behind : ArtifactNames} {first later : List Artifact}
    (hf : Fresh before first middle) (hl : Fresh middle later behind) :
    Fresh before (first ++ later) behind where
  nodup := by
    rw [List.map_append]
    refine hf.nodup.append hl.nodup ?_
    -- The first names are taken when the later ones are claimed.
    intro key hfirst hlater
    obtain ⟨a, ha, rfl⟩ := List.mem_map.1 hlater
    exact hl.notMem_taken a ha ((hf.mem_taken_iff _).2 (.inr hfirst))
  notMem_taken := by
    intro a ha hmem
    rcases List.mem_append.1 ha with ha | ha
    · exact hf.notMem_taken a ha hmem
    · exact hl.notMem_taken a ha ((hf.mem_taken_iff _).2 (.inl hmem))
  mem_taken_iff := by
    intro key
    rw [hl.mem_taken_iff, hf.mem_taken_iff, List.map_append, List.mem_append, or_assoc]

end Fresh

/-- The names given to pending artifacts are new, and differ from each other. -/
theorem fresh_nameAll (names : ArtifactNames) (pending : List PendingArtifact) :
    Fresh names (nameAll names pending).1 (nameAll names pending).2 := by
  induction pending generalizing names with
  | nil => exact .nil names
  | cons p pending ih => exact (Fresh.claim names p.candidates p.text).append (ih _)

/-- The names of whole groups are fresh too. -/
theorem exists_fresh_groups (names : ArtifactNames) (hierarchies : List Hierarchy) :
    ∃ behind, Fresh names (groups names hierarchies).flatten behind := by
  induction hierarchies generalizing names with
  | nil => exact ⟨names, .nil names⟩
  | cons hierarchy later ih =>
    obtain ⟨behind, hlater⟩ := ih (nameAll names hierarchy.pending).2
    exact ⟨behind, (fresh_nameAll names hierarchy.pending).append hlater⟩

theorem length_nameAll (names : ArtifactNames) (pending : List PendingArtifact) :
    (nameAll names pending).1.length = pending.length := by
  induction pending generalizing names with
  | nil => rfl
  | cons p pending ih =>
    simp only [nameAll, List.length_cons]
    rw [ih]

/-! ### Reports on roots -/

/-- The report on one root is consistent: it is empty exactly if no type implements the root, and
then there are no artifacts; otherwise there is one for each type and one for the root. -/
structure Consistent (r : RootReport) : Prop where
  status_iff : r.status = .emptyHierarchy ↔ r.implementingTypes = []
  artifacts_of_empty : r.implementingTypes = [] → r.artifacts = []
  length_artifacts : r.implementingTypes ≠ [] →
    r.artifacts.length = r.implementingTypes.length + 1

/-- The report of a hierarchy accounts for each artifact of it. -/
theorem consistent_report (names : ArtifactNames) (h : Hierarchy) :
    Consistent (h.report ((nameAll names h.pending).1.map (·.name))) := by
  rcases ht : h.types with - | ⟨p, ps⟩
  · have hpending : h.pending = [] := by simp [Hierarchy.pending, ht]
    constructor <;> simp [Hierarchy.report, ht, hpending, nameAll]
  · have hpending : h.pending.length = h.types.length + 1 := by simp [Hierarchy.pending, ht]
    constructor <;> simp [Hierarchy.report, ht, length_nameAll, hpending]

/-- Every report of a pass is consistent. -/
theorem consistent_of_mem_reportsOf {names : ArtifactNames} {hierarchies : List Hierarchy}
    {r : RootReport} (hr : r ∈ reportsOf names hierarchies) : Consistent r := by
  induction hierarchies generalizing names with
  | nil => exact absurd hr List.not_mem_nil
  | cons hierarchy later ih =>
    rw [reportsOf_cons] at hr
    rcases List.mem_cons.1 hr with rfl | hr
    · exact consistent_report names hierarchy
    · exact ih hr

/-! ### The store -/

/-- The store that receives the artifacts of a history. -/
def received (h : History) : ArtifactStore := h.artifacts.foldl ArtifactStore.add .empty

/-- The store holds the artifacts in the order in which they were handed over. -/
theorem artifacts_received (h : History) : (received h).artifacts = h.artifacts := by
  have key : ∀ (artifacts : List Artifact) (store : ArtifactStore),
      (artifacts.foldl ArtifactStore.add store).artifacts = store.artifacts ++ artifacts := by
    intro artifacts
    induction artifacts with
    | nil => simp
    | cons a artifacts ih => intro store; rw [List.foldl_cons, ih]; simp [ArtifactStore.add]
  exact key _ _

/-- A store of artifacts whose names all differ gives each of them back by its name. -/
theorem get?_eq_some_of_nodup {store : ArtifactStore} (hn : store.names.Nodup) {a : Artifact}
    (ha : a ∈ store.artifacts) : store.get? a.name = some a := by
  obtain ⟨artifacts⟩ := store
  show artifacts.find? (·.name = a.name) = some a
  induction artifacts with
  | nil => exact absurd ha List.not_mem_nil
  | cons b artifacts ih =>
    obtain ⟨hb, hn⟩ := List.nodup_cons.1 (show (b.name :: artifacts.map (·.name)).Nodup from hn)
    rcases List.mem_cons.1 ha with rfl | ha
    · simp
    · have hne : b.name ≠ a.name := fun heq ↦ hb (heq ▸ List.mem_map_of_mem ha)
      rw [List.find?_cons_of_neg (by simpa using hne)]
      exact ih hn ha

/-! ### Agreement -/

section Ends

variable {settings : Settings} {c : Compilation} {token : CancellationToken} {h h' : History}
  {report : PassReport}

/-- The names handed over by a pass and that of the marker differ, letter case not counting. -/
theorem nodup_keys (settings : Settings) (c : Compilation) (n : Nat) :
    (((Marker.artifact settings.extension) :: ((pieces settings c).take n).flatten).map
      (·.key)).Nodup := by
  obtain ⟨behind, hfresh⟩ :=
    exists_fresh_groups (initialNames settings) ((hierarchies settings c).take n)
  rw [groups_take] at hfresh
  refine List.nodup_cons.2 ⟨fun hmem ↦ ?_, hfresh.nodup⟩
  obtain ⟨a, ha, heq⟩ := List.mem_map.1 hmem
  -- The name of the marker was taken before the first root.
  refine hfresh.notMem_taken a ha ?_
  rw [initialNames, ArtifactNames.taken_reserve_empty, heq]
  exact List.mem_singleton.2 rfl

/-- **Report and store agree after every pass**, however it ends. Of the artifacts that the pass
handed over, the report gives the names in order, root by root; each root is consistently reported;
the names differ from each other and from that of the marker, letter case not counting; and once
the marker and the pass have been received, every reported name gives the artifact handed over
under it. -/
theorem report_agrees (hm : MayEnd settings c token h report h') :
    ∃ handed : List Artifact,
      h'.artifacts = h.artifacts ++ handed ∧
      report.artifacts = handed.map (·.name) ∧
      report.artifacts = report.roots.flatMap (·.artifacts) ∧
      (∀ r ∈ report.roots, Consistent r) ∧
      ((Marker.artifact settings.extension).name :: report.artifacts).Pairwise
        (fun first later ↦ Text.toLowercase first ≠ Text.toLowercase later) ∧
      (h = handOverMarker settings [] →
        ∀ a ∈ handed, (received h').get? a.name = some a) := by
  obtain ⟨n, hn⟩ := hm.exists_cutAt
  have hkeys := nodup_keys settings c n
  refine ⟨_, hn.history_eq, hn.artifacts_eq, ?_, ?_, ?_, ?_⟩
  · have hnames := map_artifacts_reportsOf (initialNames settings) ((hierarchies settings c).take n)
    rw [groups_take, reportsOf_take] at hnames
    rw [hn.artifacts_eq, hn.roots_eq, List.map_flatten, List.flatMap_def]
    exact congrArg List.flatten hnames.symm
  · intro r hr
    rw [hn.roots_eq] at hr
    exact consistent_of_mem_reportsOf (List.mem_of_mem_take hr)
  · rw [hn.artifacts_eq, ← List.map_cons, List.pairwise_map]
    exact List.pairwise_map.1 hkeys
  · rintro rfl a ha
    have hartifacts : (received h').artifacts =
        Marker.artifact settings.extension :: ((pieces settings c).take n).flatten := by
      rw [artifacts_received, hn.history_eq]
      rfl
    refine get?_eq_some_of_nodup ?_ (hartifacts ▸ List.mem_cons_of_mem _ ha)
    refine List.Nodup.of_map Text.toLowercase ?_
    rw [ArtifactStore.names, hartifacts, List.map_map]
    exact hkeys

end Ends

/-- The two roots of the sample, whose pass is cancelled too late to be cut. -/
theorem report_agrees_sample :
    ∃ trees, parseAll sample = .ok trees ∧ ∃ handed : List Artifact,
      handed.map (·.name) =
        ["Circle.g.cs", "IShapeVisitor.g.cs", "Red.g.cs", "IColorVisitor.g.cs"] ∧
      ∀ a ∈ handed,
        (received (run {} (.ofTrees trees) (.onArtifact 5) (handOverMarker {} [])).2).get? a.name =
          some a := by
  obtain ⟨trees, htrees, hartifacts⟩ : ∃ trees, parseAll sample = .ok trees ∧
      (run {} (.ofTrees trees) (.onArtifact 5) (handOverMarker {} [])).1.artifacts =
        ["Circle.g.cs", "IShapeVisitor.g.cs", "Red.g.cs", "IColorVisitor.g.cs"] :=
    exists_parseAll sample [(_, _), (_, _), (_, _)] rfl (by decide +kernel)
  obtain ⟨handed, -, hnames, -, -, -, hget⟩ :=
    report_agrees (mayEnd_run {} (.ofTrees trees) (.onArtifact 5) (handOverMarker {} []))
  exact ⟨trees, htrees, handed, hnames.symm.trans hartifacts, hget rfl⟩

end Pass

end DoubleDispatch
