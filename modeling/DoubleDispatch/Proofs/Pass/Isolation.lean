import DoubleDispatch.Proofs.Pass.Cut

/-!
# Roots do not depend on each other

The roots of a pass share nothing but the names of artifacts. Taking one of them out of the list
leaves the deliveries of the roots before it as they are, and those of the roots behind it as they
are but for the names (`Pass.roots_isolated`). A root that no type implements takes no names, so
without it nothing changes at all.

What the roots of a list deliver is a function of their hierarchies and of the names that are taken
(`Pass.deliveries`), whether they are worked out in turn or by workers that act in any order
(`Pass.MayEndOn.delivers`). So two lists are compared by induction on their common part, with two
states of the names.
-/

namespace DoubleDispatch

namespace Pass

/-! ### Deliveries -/

/-- What a pass does for one root: the report on it, and the artifacts that it hands over. -/
structure Delivery where
  report : RootReport
  artifacts : List Artifact

namespace Delivery

/-- The delivery is that of a root: it reports the root and the types that implement it, and lists
the names of the artifacts. -/
structure IsOf (c : Compilation) (matching : Matching) (root : Participant) (d : Delivery) :
    Prop where
  name_eq : d.report.name = root.name
  ns_eq : d.report.ns = root.ns.name?
  implementingTypes_eq : d.report.implementingTypes = (c.implementors matching root).map (·.name)
  artifacts_eq : d.report.artifacts = d.artifacts.map (·.name)

/-- The deliveries differ in the names of artifacts only. -/
structure SameButNames (d d' : Delivery) : Prop where
  report_eq : d'.report = { d.report with artifacts := d'.report.artifacts }
  texts_eq : d'.artifacts.map (·.text) = d.artifacts.map (·.text)

/-- What is delivered for a hierarchy with the given names taken. -/
def ofHierarchy (names : ArtifactNames) (hierarchy : Hierarchy) : Delivery :=
  let artifacts := (nameAll names hierarchy.pending).1
  ⟨hierarchy.report (artifacts.map (·.name)), artifacts⟩

/-- What is delivered for the hierarchy of a root is a delivery of that root. -/
theorem isOf_ofHierarchy (names : ArtifactNames) (c : Compilation) (matching : Matching)
    (root : Participant) : (ofHierarchy names (c.hierarchy matching root)).IsOf c matching root :=
  ⟨rfl, rfl, rfl, rfl⟩

/-- Names taken before change a delivery only in the names of its artifacts. -/
theorem sameButNames_ofHierarchy (names names' : ArtifactNames) (hierarchy : Hierarchy) :
    (ofHierarchy names hierarchy).SameButNames (ofHierarchy names' hierarchy) where
  report_eq := rfl
  texts_eq := (map_text_nameAll _ _).trans (map_text_nameAll _ _).symm

end Delivery

/-- What is delivered for hierarchies one after the other. -/
def deliveries (names : ArtifactNames) : List Hierarchy → List Delivery
  | [] => []
  | hierarchy :: later =>
    .ofHierarchy names hierarchy :: deliveries (nameAll names hierarchy.pending).2 later

/-- The names that are taken once artifacts of these hierarchies have been handed over. -/
def namesBehind (names : ArtifactNames) (hierarchies : List Hierarchy) : ArtifactNames :=
  hierarchies.foldl (fun names hierarchy ↦ (nameAll names hierarchy.pending).2) names

section

variable (names names' : ArtifactNames) (front later : List Hierarchy)

/-- The reports of the deliveries are the reports of the pass. -/
theorem map_report_deliveries :
    (deliveries names later).map (·.report) = reportsOf names later := by
  induction later generalizing names with
  | nil => rfl
  | cons hierarchy later ih => rw [deliveries, List.map_cons, ih, reportsOf_cons]; rfl

/-- The artifacts of the deliveries are the groups of the pass. -/
theorem map_artifacts_deliveries :
    (deliveries names later).map (·.artifacts) = groups names later := by
  induction later generalizing names with
  | nil => rfl
  | cons hierarchy later ih => rw [deliveries, List.map_cons, ih, groups]; rfl

/-- Roots behind others are delivered under the names those leave. -/
theorem deliveries_append : deliveries names (front ++ later) =
    deliveries names front ++ deliveries (namesBehind names front) later := by
  induction front generalizing names with
  | nil => rfl
  | cons hierarchy front ih => rw [List.cons_append, deliveries, ih]; rfl

/-- **Other names change nothing but names.** -/
theorem deliveries_sameButNames :
    List.Forall₂ Delivery.SameButNames (deliveries names later) (deliveries names' later) := by
  induction later generalizing names names' with
  | nil => exact .nil
  | cons hierarchy later ih => exact .cons (Delivery.sameButNames_ofHierarchy _ _ _) (ih _ _)

/-- There is one delivery for each root, in the order of the roots. -/
theorem deliveries_isOf (c : Compilation) (matching : Matching) (roots : List Participant) :
    List.Forall₂ (Delivery.IsOf c matching) roots
      (deliveries names (roots.map (c.hierarchy matching))) := by
  induction roots generalizing names with
  | nil => exact .nil
  | cons root roots ih => exact .cons (Delivery.isOf_ofHierarchy _ _ _ _) (ih _)

end

/-- For a hierarchy without types nothing is handed over, and no name is taken. -/
theorem nameAll_pending_of_nil (names : ArtifactNames) {hierarchy : Hierarchy}
    (h : hierarchy.types = []) : nameAll names hierarchy.pending = ([], names) := by
  rw [Hierarchy.pending, h]
  rfl

/-! ### Passes over given roots -/

/-- The ends that a pass can come to behind its search, with the given roots to work on. -/
inductive MayEndOn (settings : Settings) (c : Compilation) (token : CancellationToken)
    (h : History) (roots : List Participant) : PassReport → History → Prop
  | inTurn {h₁ : History} {outcome : Outcome} {progress : Progress}
      (mode : settings.parallel = false)
      (commits : runInTurn settings c token ⟨[], [], initialNames settings⟩ h roots =
        (outcome, progress, h₁)) :
    MayEndOn settings c token h roots (finish outcome progress h₁).1 (finish outcome progress h₁).2
  | inParallel {h₁ h₂ : History} {works : List (Option Hierarchy)} {outcome : Outcome}
      {progress : Progress} (mode : settings.parallel = true)
      (work : WorkedOut settings c token h roots works h₁)
      (commits : commitAll token ⟨[], [], initialNames settings⟩ h₁ works =
        (outcome, progress, h₂)) :
    MayEndOn settings c token h roots (finish outcome progress h₂).1 (finish outcome progress h₂).2

/-- The rest of a pass behind its search, over the given roots. -/
def runOn (settings : Settings) (c : Compilation) (token : CancellationToken) (h : History)
    (roots : List Participant) : PassReport × History :=
  let (outcome, progress, h) := runRoots settings c token ⟨[], [], initialNames settings⟩ h roots
  finish outcome progress h

/-- The pass in turn is one of the ways a pass may end. -/
theorem mayEndOn_runOn (settings : Settings) (c : Compilation) (token : CancellationToken)
    (h : History) (roots : List Participant) : MayEndOn settings c token h roots
      (runOn settings c token h roots).1 (runOn settings c token h roots).2 := by
  unfold runOn runRoots
  cases hp : settings.parallel
  · exact .inTurn hp rfl
  · exact .inParallel hp (workedOut_workOutAll h roots) rfl

/-- A pass has completed and made these deliveries in order. -/
structure Delivers (h : History) (delivered : List Delivery) (report : PassReport)
    (h' : History) : Prop where
  outcome_eq : report.outcome = .completed
  roots_eq : report.roots = delivered.map (·.report)
  artifacts_eq : report.artifacts = (delivered.flatMap (·.artifacts)).map (·.name)
  history_eq : h'.artifacts = h.artifacts ++ delivered.flatMap (·.artifacts)

section

variable {settings : Settings} {c : Compilation} {h h' : History} {report : PassReport}
  {roots : List Participant}

/-- Behind its search, a pass works on the roots of the compilation. -/
theorem MayEnd.mayEndOn (hm : MayEnd settings c .never h report h') :
    MayEndOn settings c .never (searchTrees .never h c.scanTraces).2 c.roots report h' := by
  have hsearch := searchTrees_never h c.scanTraces
  cases hm with
  | stoppedSearch search => rw [search] at hsearch; cases hsearch
  | inTurn mode search commits => rw [search]; exact .inTurn mode commits
  | inParallel mode search work commits => rw [search]; exact .inParallel mode work commits

/-- What was handed over from the start of a pass that completes. -/
theorem Handed.delivers {h₁ : History} {progress : Progress} {outcome : Outcome} {n : Nat}
    (hh : Handed ⟨[], [], initialNames settings⟩ h₁
      ((roots.map (c.hierarchy settings.matching)).take n) progress h')
    (heq : h₁.artifacts = h.artifacts) (ho : outcome = .completed) (hn : n = roots.length) :
    Delivers h (deliveries (initialNames settings) (roots.map (c.hierarchy settings.matching)))
      (finish outcome progress h').1 (finish outcome progress h').2 := by
  have hlength : (roots.map (c.hierarchy settings.matching)).length = n := by
    rw [List.length_map, hn]
  rw [List.take_of_length_le hlength.le] at hh
  constructor
  · exact ho
  · rw [map_report_deliveries]
    exact hh.roots_eq
  · rw [List.flatMap_def, map_artifacts_deliveries]
    exact hh.artifacts_eq
  · rw [List.flatMap_def, map_artifacts_deliveries, ← heq, ← hh.history_eq]
    exact h'.artifacts_after_logged _

/-- **A pass that nobody cancels delivers its roots**, all of them and in order. -/
theorem MayEndOn.delivers (hm : MayEndOn settings c .never h roots report h') :
    Delivers h (deliveries (initialNames settings) (roots.map (c.hierarchy settings.matching)))
      report h' := by
  cases hm with
  | @inTurn _ outcome _ mode commits =>
    obtain ⟨n, -, hh, hlength⟩ := runInTurn_spec commits
    have ho : outcome = .completed :=
      (congrArg Prod.fst commits).symm.trans (runInTurn_never _ _ _)
    exact hh.delivers rfl ho (hlength.1 ho)
  | @inParallel _ _ _ outcome _ mode work commits =>
    obtain ⟨n, -, hh, hlength⟩ := commitAll_spec work.forall₂ commits
    have ho : outcome = .completed :=
      (congrArg Prod.fst commits).symm.trans (commitAll_never _ _ work.ne_none_of_never)
    exact hh.delivers work.artifacts_eq ho (hlength.1 ho)

theorem Delivers.of_artifacts_eq {h₁ : History} {delivered : List Delivery}
    (hd : Delivers h₁ delivered report h') (heq : h₁.artifacts = h.artifacts) :
    Delivers h delivered report h' :=
  ⟨hd.outcome_eq, hd.roots_eq, hd.artifacts_eq, by rw [← heq]; exact hd.history_eq⟩

end

/-- **Roots are isolated from each other.** Take one root out of the list of a pass that nobody
cancels, and let the rest of the pass work on the others. The roots before it have the same
deliveries as in the whole pass, and those behind it the same but for the names of artifacts: the
same types and status in the report, and the same texts. If no type implements the root, the names
are the same too. -/
theorem roots_isolated {settings : Settings} {c : Compilation} {h h' h'' : History}
    {report report' : PassReport} {first later : List Participant} {root : Participant}
    (hroots : c.roots = first ++ root :: later) (hpass : MayEnd settings c .never h report h')
    (hwithout : MayEndOn settings c .never (searchTrees .never h c.scanTraces).2 (first ++ later)
      report' h'') :
    ∃ front own behind behind',
      Delivers h (front ++ own :: behind) report h' ∧ Delivers h (front ++ behind') report' h'' ∧
      List.Forall₂ (Delivery.IsOf c settings.matching) first front ∧
      own.IsOf c settings.matching root ∧
      List.Forall₂ (Delivery.IsOf c settings.matching) later behind ∧
      List.Forall₂ Delivery.SameButNames behind behind' ∧
      (c.implementors settings.matching root = [] → own.artifacts = [] ∧ behind' = behind) := by
  have hsearch : (searchTrees .never h c.scanTraces).2.artifacts = h.artifacts :=
    artifacts_searchTrees .never h fun _ ↦ c.quiet_of_mem_scanTraces
  have hwhole := hpass.mayEndOn.delivers.of_artifacts_eq hsearch
  have hothers := hwithout.delivers.of_artifacts_eq hsearch
  rw [hroots, List.map_append, List.map_cons, deliveries_append, deliveries] at hwhole
  rw [List.map_append, deliveries_append] at hothers
  refine ⟨_, _, _, _, hwhole, hothers, deliveries_isOf _ c _ first,
    Delivery.isOf_ofHierarchy _ c _ _, deliveries_isOf _ c _ later, deliveries_sameButNames _ _ _,
    fun hnone ↦ ?_⟩
  rw [Delivery.ofHierarchy, nameAll_pending_of_nil _ hnone]
  exact ⟨rfl, rfl⟩

/-- A type that implements two roots, and between them a root that no type implements. -/
def sharedSample : List (String × String) :=
  [markerSample,
   ("Shapes.cs",
    "using VisitorGenerator; [VisitorNode] interface IShape; [VisitorNode] interface INone;"),
   ("Colors.cs", "using VisitorGenerator; [VisitorNode] interface IColor;"),
   ("Circle.cs", "class Circle : IShape, IColor;")]

/-- Without the first root the last one gets the name that the first one takes. Without the root
that has no types the others are reported as before. -/
theorem roots_isolated_sharedSample :
    ∃ trees, parseAll sharedSample = .ok trees ∧
      let c := Compilation.ofTrees trees
      let whole := (run {} c .never []).1.roots
      let without n := (runOn {} c .never (searchTrees .never [] c.scanTraces).2
        (c.roots.eraseIdx n)).1.roots
      whole.map (fun r ↦ (r.name, r.artifacts)) =
        [("IShape", ["Circle.g.cs", "IShapeVisitor.g.cs"]), ("INone", []),
          ("IColor", ["Circle.IColor.g.cs", "IColorVisitor.g.cs"])] ∧
      (∃ own behind behind', whole = own :: behind.map (·.report) ∧
        without 0 = behind'.map (·.report) ∧ List.Forall₂ Delivery.SameButNames behind behind') ∧
      (without 0).map (·.artifacts) = [[], ["Circle.g.cs", "IColorVisitor.g.cs"]] ∧
      ∃ front own behind, whole = front ++ own :: behind ∧ front.length = 1 ∧
        without 1 = front ++ behind := by
  obtain ⟨trees, htrees, hlength, hsecond, hwhole, hwithout⟩ :
      ∃ trees, parseAll sharedSample = .ok trees ∧
        let c := Compilation.ofTrees trees
        c.roots.length = 3 ∧
          (∀ root ∈ c.roots[1]?, c.implementors .syntactic root = []) ∧
          (run {} c .never []).1.roots.map (fun r ↦ (r.name, r.artifacts)) =
            [("IShape", ["Circle.g.cs", "IShapeVisitor.g.cs"]), ("INone", []),
              ("IColor", ["Circle.IColor.g.cs", "IColorVisitor.g.cs"])] ∧
          (runOn {} c .never (searchTrees .never [] c.scanTraces).2
              (c.roots.eraseIdx 0)).1.roots.map (·.artifacts) =
            [[], ["Circle.g.cs", "IColorVisitor.g.cs"]] :=
    exists_parseAll sharedSample [(_, _), (_, _), (_, _), (_, _)] rfl (by decide +kernel)
  obtain ⟨shape, empty, color, hroots⟩ := List.length_eq_three.1 hlength
  have hall := mayEnd_run {} (.ofTrees trees) .never []
  refine ⟨trees, htrees, hwhole, ?_, hwithout, ?_⟩
  · have hsplit : (Compilation.ofTrees trees).roots = [] ++ shape :: [empty, color] := hroots
    obtain ⟨front, own, behind, behind', hwhole, hothers, hfront, -, -, hsame, -⟩ :=
      roots_isolated hsplit hall (mayEndOn_runOn {} (.ofTrees trees) .never _ _)
    cases hfront
    rw [hroots]
    exact ⟨own.report, behind, behind', hwhole.roots_eq, hothers.roots_eq, hsame⟩
  · have hsplit : (Compilation.ofTrees trees).roots = [shape] ++ empty :: [color] := hroots
    obtain ⟨front, own, behind, behind', hwhole, hothers, hfront, -, -, -, hnone⟩ :=
      roots_isolated hsplit hall (mayEndOn_runOn {} (.ofTrees trees) .never _ _)
    obtain ⟨-, rfl⟩ := hnone (hsecond empty (by rw [hroots]; rfl))
    rw [hroots]
    refine ⟨front.map (·.report), own.report, behind'.map (·.report), ?_, ?_, ?_⟩
    · rw [hwhole.roots_eq, List.map_append, List.map_cons]
    · rw [List.length_map, ← hfront.length_eq]
      rfl
    · rw [← List.map_append, ← hothers.roots_eq]
      rfl

end Pass

end DoubleDispatch
