import DoubleDispatch.Proofs.Binding.Spacing
import DoubleDispatch.Proofs.Hierarchy.Alike
import DoubleDispatch.Proofs.Parsing.SameTokens
import DoubleDispatch.Proofs.Pass.Parallel

/-!
# Sources laid out in another way

What a pass reports and hands over depends on the layout of the sources only by names that are kept
as they are written. If sources with the same tokens are read, and the same is read of these names,
then the hierarchies of the two programs differ only in locations, and passes over them end alike.
The same is read of names that differ in nothing but white space between their tokens
(`WrittenNames.spaced_implies_readAlike`).

Two passes are compared at the points where they commit a root, as long as only the receiver of the
artifacts cancels them: by then either has handed over the same, so that the token says the same.
-/

namespace DoubleDispatch

namespace Pass

variable {settings : Settings} {c c' : Compilation} {token : CancellationToken} {h h' : History}
  {report report' : PassReport}

/-! ### How a pass ends that only the receiver cancels -/

theorem length_scanTrees (m : SemanticModel) (seen : List SymbolId)
    (trees : List (SourceTree × Nat)) : (scanTrees m seen trees).length = trees.length := by
  induction trees generalizing seen with
  | nil => rfl
  | cons first later ih =>
    obtain ⟨tree, number⟩ := first
    rw [scanTrees, List.length_cons, List.length_cons, ih]

theorem scanTraces_eq_nil_iff : c.scanTraces = [] ↔ c.trees = [] := by
  rw [← List.length_eq_zero_iff, Compilation.scanTraces, length_scanTrees, Compilation.numbered,
    List.length_zipIdx, List.length_eq_zero_iff]

theorem searchTrees_of_isOpenFrom {traces : List (List Event)} (hopen : token.IsOpenFrom h)
    (hq : ∀ events ∈ traces, Quiet events) : (searchTrees token h traces).1 = true := by
  induction traces generalizing h with
  | nil => rfl
  | cons events traces ih =>
    obtain ⟨hfirst, hlater⟩ := List.forall_mem_cons.1 hq
    rw [searchTrees, if_neg (by rw [hopen.eq_false]; exact Bool.noConfusion)]
    exact ih (hopen.after hfirst) hlater

/-- The pass is cancelled before its first tree, or it commits what comes of its roots. -/
inductive Ends (settings : Settings) (c : Compilation) (token : CancellationToken) (h : History)
    (report : PassReport) (artifacts : List Artifact) : Prop
  | before (trees : c.trees ≠ []) (cancelled : token h = true)
    (reported : report = ⟨.cancelled, [], []⟩) (handed : artifacts = h.artifacts)
  | commits (start : c.trees = [] ∨ token h = false) {h₁ : History} (suffix : h <:+ h₁)
    (quiet : h₁.artifacts = h.artifacts) {outcome : Outcome} {progress : Progress} {h₂ : History}
    (all : commitAll token ⟨[], [], initialNames settings⟩ h₁
      ((hierarchies settings c).map some) = (outcome, progress, h₂))
    (reported : report = ⟨outcome, progress.roots, progress.artifacts⟩)
    (handed : artifacts = h₂.artifacts)

theorem map_some_hierarchies (settings : Settings) (c : Compilation) :
    (hierarchies settings c).map some = allWorkedOut settings c c.roots := by
  rw [hierarchies, allWorkedOut, List.map_map]
  rfl

theorem MayEnd.ends (ht : token.IsByReceiver h) (hm : MayEnd settings c token h report h') :
    Ends settings c token h report h'.artifacts := by
  have hquiet := artifacts_searchTrees token h fun _ ↦ c.quiet_of_mem_scanTraces
  have hsuffix := suffix_searchTrees token h c.scanTraces
  have hstart {h₁ : History} (search : searchTrees token h c.scanTraces = (true, h₁)) :
      c.trees = [] ∨ token h = false := by
    by_cases hnone : c.scanTraces = []
    · exact .inl (scanTraces_eq_nil_iff.1 hnone)
    · exact .inr (eq_false_of_searchTrees search hnone)
  cases hm with
  | stoppedSearch search =>
    rw [search] at hquiet
    have hcancelled : token h = true := by
      by_contra hopen
      have hall := searchTrees_of_isOpenFrom
        (ht.isOpenFrom List.suffix_rfl (Bool.eq_false_iff.2 hopen))
        fun _ ↦ c.quiet_of_mem_scanTraces
      rw [search] at hall
      cases hall
    refine .before (fun hnone ↦ ?_) hcancelled rfl
      ((History.artifacts_after_logged _ _).trans hquiet)
    rw [scanTraces_eq_nil_iff.2 hnone] at search
    cases search
  | @inTurn h₁ h₂ outcome progress mode search commits =>
    rw [search] at hquiet hsuffix
    obtain ⟨houtcome, hprogress, hartifacts⟩ := runInTurn_eq_commitAll settings c ht c.roots
      ⟨[], [], initialNames settings⟩ hsuffix hsuffix rfl
    rw [commits] at houtcome hprogress hartifacts
    rw [← map_some_hierarchies] at houtcome hprogress hartifacts
    refine .commits (hstart search) hsuffix hquiet rfl ?_ ?_
    · rw [← houtcome, ← hprogress]
      rfl
    · rw [artifacts_finish]
      exact hartifacts
  | @inParallel h₁ h₂ h₃ works outcome progress mode search work commits =>
    obtain rfl := work.eq_of_searchTrees ht search
    rw [search] at hquiet hsuffix
    rw [← map_some_hierarchies] at commits
    refine .commits (hstart search) (hsuffix.trans work.suffix) (work.artifacts_eq.trans hquiet)
      commits rfl ?_
    rw [artifacts_finish]

/-! ### Hierarchies that differ in locations -/

/-- Locations are not handed over. -/
theorem handOver_eq_of_withoutLocations {hierarchy hierarchy' : Hierarchy}
    (heq : hierarchy'.withoutLocations = hierarchy.withoutLocations) (progress : Progress)
    (h : History) : handOver progress h hierarchy' = handOver progress h hierarchy := by
  have hpending : hierarchy'.pending = hierarchy.pending := by
    rw [← hierarchy'.pending_withoutLocations, heq, hierarchy.pending_withoutLocations]
  have hreport (artifacts : List String) :
      hierarchy'.report artifacts = hierarchy.report artifacts := by
    rw [← hierarchy'.report_withoutLocations, heq, hierarchy.report_withoutLocations]
  simp only [handOver, hpending, hreport]

/-- **Committing hierarchies that differ only in locations** comes to the same. -/
theorem commitAll_alike (ht : token.IsByReceiver h) {hs hs' : List Hierarchy}
    (heq : hs'.map (·.withoutLocations) = hs.map (·.withoutLocations)) (progress : Progress)
    {h₁ h₂ : History} (hs₁ : h <:+ h₁) (hs₂ : h <:+ h₂) (hartifacts : h₂.artifacts = h₁.artifacts) :
    let all := commitAll token progress h₁ (hs.map some)
    let all' := commitAll token progress h₂ (hs'.map some)
    all'.1 = all.1 ∧ all'.2.1 = all.2.1 ∧ all'.2.2.artifacts = all.2.2.artifacts := by
  induction hs generalizing hs' progress h₁ h₂ with
  | nil =>
    obtain rfl := List.map_eq_nil_iff.1 heq
    exact ⟨rfl, rfl, hartifacts⟩
  | cons hierarchy hs ih =>
    obtain ⟨hierarchy', later, rfl, hfirst, hlater⟩ := List.map_eq_cons_iff.1 heq
    simp only [List.map_cons, commitAll, commit, ht.eq_of_artifacts hs₂ hs₁ hartifacts]
    cases token h₁ with
    | true => exact ⟨rfl, rfl, hartifacts⟩
    | false =>
      obtain ⟨-, hhanded⟩ := handOver_congr progress hierarchy hartifacts
      rw [Option.map_some, handOver_eq_of_withoutLocations hfirst]
      have hih := ih hlater (handOver progress h₁ hierarchy).1
        (hs₁.trans (suffix_handOver progress h₁ hierarchy))
        (hs₂.trans (suffix_handOver progress h₂ hierarchy)) hhanded
      exact hih

/-- Passes over compilations that correspond end alike. -/
theorem Ends.alike (ht : token.IsByReceiver h) (hc : c.Alike c')
    {artifacts artifacts' : List Artifact} (he : Ends settings c token h report artifacts)
    (he' : Ends settings c' token h report' artifacts') :
    report' = report ∧ artifacts' = artifacts := by
  have htrees : c'.trees = [] ↔ c.trees = [] := by
    rw [← List.length_eq_zero_iff, ← hc.trees.length_eq, List.length_eq_zero_iff]
  cases he with
  | before trees cancelled reported handed =>
    cases he' with
    | before _ _ reported' handed' =>
      exact ⟨reported'.trans reported.symm, handed'.trans handed.symm⟩
    | commits start =>
      rcases start with hnone | hopen
      · exact absurd (htrees.1 hnone) trees
      · rw [cancelled] at hopen; cases hopen
  | commits start suffix quiet all reported handed =>
    cases he' with
    | before trees cancelled =>
      rcases start with hnone | hopen
      · exact absurd (htrees.2 hnone) trees
      · rw [cancelled] at hopen; cases hopen
    | commits _ suffix' quiet' all' reported' handed' =>
      obtain ⟨houtcome, hprogress, hartifacts⟩ := commitAll_alike ht
        (hc.map_hierarchy_roots settings.matching) ⟨[], [], initialNames settings⟩ suffix suffix'
        (quiet'.trans quiet.symm)
      rw [← hierarchies, ← hierarchies, all, all'] at houtcome hprogress hartifacts
      dsimp only at houtcome hprogress hartifacts
      rw [reported', reported, houtcome, hprogress, handed', handed, hartifacts]
      exact ⟨rfl, rfl⟩

/-! ### Sources with the same tokens -/

theorem isReflexive_readAlike : WrittenNames.readAlike.IsReflexive where
  usingTarget _ := rfl
  attributeName _ := ⟨rfl, rfl⟩
  baseText _ := ⟨rfl, rfl⟩

/-- Programs whose trees match but for names of which the same is read correspond, and so they do
with further trees. -/
theorem alike_ofTrees {trees trees' : List SourceTree}
    (h : List.Forall₂ (fun tree tree' : SourceTree ↦ tree.file.Matches .readAlike tree'.file)
      trees trees') (before behind : List SourceTree) :
    (Compilation.ofTrees (before ++ trees ++ behind)).Alike
      (.ofTrees (before ++ trees' ++ behind)) := by
  have hself (others : List SourceTree) : List.Forall₂
      (fun tree tree' : SourceTree ↦ tree.file.Matches .readAlike tree'.file) others others :=
    List.forall₂_same.2 fun tree _ ↦ isReflexive_readAlike.file tree.file
  have hall := List.rel_append (List.rel_append (hself before) h) (hself behind)
  exact ⟨hall, (DeclarationTable.alike_ofTrees hall).agree⟩

/-- **Layout matters only where it shows in names that are kept as they are written, and in a gap
before a parenthesis.** Take two lists of sources that have, source by source, the same tokens. If
one is read, the other is read as well, unless one of its sources comes to a base entry that opens
with a parenthesis behind a gap. If both are read, their trees match but for names that are kept as
they are written. And if the same is read of these names, passes over both, with the marker and
whatever other trees are added in front of them and behind them, end with the same report and the
same artifacts, as long as only the receiver of the artifacts cancels them. -/
theorem ends_alike_of_sameTokens {sources sources' : List (String × String)}
    (hsame : List.Forall₂ (fun s s' ↦ SameTokens s.2 s'.2) sources sources')
    {trees : List SourceTree} (htrees : parseAll sources = .ok trees) :
    ((∃ trees', parseAll sources' = .ok trees') ↔ ∀ s ∈ sources', ¬SourceTree.ComesToGap s.2) ∧
    ∀ trees', parseAll sources' = .ok trees' →
      List.Forall₂ (fun tree tree' ↦ tree.file.Matches .free tree'.file) trees trees' ∧
      (List.Forall₂ (fun tree tree' ↦ tree.file.Matches .readAlike tree'.file) trees trees' →
        ∀ before behind settings token h report report' h₁ h₂,
          CancellationToken.IsByReceiver token h →
          MayEnd settings (.ofTrees (before ++ trees ++ behind)) token h report h₁ →
          MayEnd settings (.ofTrees (before ++ trees' ++ behind)) token h report' h₂ →
          report' = report ∧ h₂.artifacts = h₁.artifacts) := by
  refine ⟨⟨?_, exists_parseAll_of_sameTokens hsame htrees⟩, fun trees' htrees' ↦
    ⟨forall₂_matches_of_sameTokens hsame htrees htrees', ?_⟩⟩
  · rintro ⟨trees', htrees'⟩ s hs hgap
    exact not_comesToGap_of_parseAll htrees' s hs hgap
  · intro halike before behind settings token h report report' h₁ h₂ ht hm hm'
    exact (hm.ends ht).alike ht (alike_ofTrees halike before behind) (hm'.ends ht)

/-- A root without a gap in the name of its attribute. -/
def attributeSample : List (String × String) :=
  [markerSample, ("A.cs", "[VisitorGenerator.VisitorNode]interface I;")]

/-- The root with a gap in the name of its attribute. -/
def attributeGapSample : List (String × String) :=
  [markerSample, ("A.cs", "[VisitorGenerator .VisitorNode]interface I;")]

/-- The samples with and without a gap differ in nothing but the name of the attribute. -/
def attributeGap : WrittenNames where
  usingTarget n n' := n' = n
  attributeName n n' := n = "VisitorGenerator.VisitorNode" ∧ n' = "VisitorGenerator .VisitorNode"
  baseText n n' := n' = n

instance : DecidableRel attributeGap.usingTarget := fun n n' ↦ inferInstanceAs (Decidable (n' = n))

instance : DecidableRel attributeGap.attributeName := fun n n' ↦ inferInstanceAs
  (Decidable (n = "VisitorGenerator.VisitorNode" ∧ n' = "VisitorGenerator .VisitorNode"))

instance : DecidableRel attributeGap.baseText := fun n n' ↦ inferInstanceAs (Decidable (n' = n))

/-- The gap is white space, and it does not stand at the end of the name. -/
theorem attributeGap_implies_readAlike : attributeGap.Implies .readAlike where
  usingTarget _ _ h := h
  attributeName n n' h := by
    obtain ⟨rfl, rfl⟩ := h
    refine WrittenNames.spaced_implies_readAlike.attributeName _ _ ⟨[.identifier "VisitorGenerator",
      .dot, .identifier "VisitorNode"], .unqualified ⟨by decide, by decide⟩, ⟨?_, ?_⟩, ?_, ?_⟩
    · exact isSpaced_of_tokenize (by decide +kernel)
    · decide +kernel
    · exact isSpaced_of_tokenize (by decide +kernel)
    · decide +kernel
  baseText n n' h := by
    obtain rfl : n' = n := h
    exact ⟨rfl, rfl⟩

/-- A gap in the name of an attribute does not matter: the root is found with it and without it. -/
theorem ends_alike_of_sameTokens_sample :
    ∃ trees trees', parseAll attributeSample = .ok trees ∧
      parseAll attributeGapSample = .ok trees' ∧
      (run {} (.ofTrees trees) .never []).1.roots.length = 1 ∧
      (run {} (.ofTrees trees') .never []).1 = (run {} (.ofTrees trees) .never []).1 := by
  obtain ⟨trees, htrees, hfound, trees', htrees', hmatch⟩ :
      ∃ trees, parseAll attributeSample = .ok trees ∧
        (run {} (.ofTrees trees) .never []).1.roots.length = 1 ∧
        ∃ trees' ∈ (parseAll attributeGapSample).toOption,
          List.Forall₂ (fun tree tree' : SourceTree ↦ tree.file.Matches attributeGap tree'.file)
            trees trees' :=
    exists_parseAll attributeSample [(_, _), (_, _)] rfl (by decide +kernel)
  have hsame : List.Forall₂ (fun s s' : String × String ↦ SameTokens s.2 s'.2) attributeSample
      attributeGapSample :=
    .cons (.of_lexes (by decide +kernel)) (.cons (.of_kinds [.openBracket,
      .identifier "VisitorGenerator", .dot, .identifier "VisitorNode", .closeBracket,
      .identifier "interface", .identifier "I", .semicolon, .endOfFile] (by decide +kernel)
      (by decide +kernel)) .nil)
  obtain ⟨-, hends⟩ := ends_alike_of_sameTokens hsame htrees
  obtain ⟨-, hends⟩ := hends trees' (eq_ok_of_toOption htrees')
  obtain ⟨hreport, -⟩ := hends (hmatch.imp fun _ _ ↦ attributeGap_implies_readAlike.file)
    [] [] {} .never [] _ _ _ _ (.never fun _ ↦ rfl) (mayEnd_run _ _ _ _) (mayEnd_run _ _ _ _)
  rw [List.append_nil, List.append_nil] at hreport
  exact ⟨trees, trees', htrees, eq_ok_of_toOption htrees', hfound, hreport⟩

/-- A root behind a using directive without a gap in its target. -/
def targetSample : List (String × String) :=
  [markerSample, ("A.cs", "using global::VisitorGenerator;[VisitorNode]interface I;")]

/-- The root behind a using directive with a gap in its target. -/
def targetGapSample : List (String × String) :=
  [markerSample, ("A.cs", "using global ::VisitorGenerator;[VisitorNode]interface I;")]

/-- A gap in the target of a using directive does matter: the root is not found behind it. -/
theorem roots_targetSample :
    List.Forall₂ (fun s s' : String × String ↦ SameTokens s.2 s'.2) targetSample targetGapSample ∧
      ∃ trees trees', parseAll targetSample = .ok trees ∧
        parseAll targetGapSample = .ok trees' ∧
        (run {} (.ofTrees trees) .never []).1.roots.length = 1 ∧
        (run {} (.ofTrees trees') .never []).1.roots.length = 0 := by
  have hsame : List.Forall₂ (fun s s' : String × String ↦ SameTokens s.2 s'.2) targetSample
      targetGapSample :=
    .cons (.of_lexes (by decide +kernel)) (.cons (.of_kinds [.identifier "using",
      .identifier "global", .doubleColon, .identifier "VisitorGenerator", .semicolon, .openBracket,
      .identifier "VisitorNode", .closeBracket, .identifier "interface", .identifier "I",
      .semicolon, .endOfFile] (by decide +kernel) (by decide +kernel)) .nil)
  obtain ⟨trees, htrees, hone⟩ : ∃ trees, parseAll targetSample = .ok trees ∧
      (run {} (.ofTrees trees) .never []).1.roots.length = 1 :=
    exists_parseAll targetSample [(_, _), (_, _)] rfl (by decide +kernel)
  obtain ⟨trees', htrees', hnone⟩ : ∃ trees', parseAll targetGapSample = .ok trees' ∧
      (run {} (.ofTrees trees') .never []).1.roots.length = 0 :=
    exists_parseAll targetGapSample [(_, _), (_, _)] rfl (by decide +kernel)
  exact ⟨hsame, trees, trees', htrees, htrees', hone, hnone⟩

end Pass

end DoubleDispatch
