import DoubleDispatch.Proofs.Lists
import DoubleDispatch.Proofs.Toolkit
import DoubleDispatch.SourceSearch

/-!
# What the search for sources finds

A directory is searched for the files below it that are wanted, whatever the order in which they are
listed (`mem_sourcesOf_directory`). Of the paths with the same steps the search keeps the first one
(`mem_dropRepeated_iff`), and sorts what it keeps. So it comes to the same wherever the first of
each are the same (`find_congr`).
-/

namespace DoubleDispatch

namespace SourceSearch

variable {tools : Toolkit} {t t' : FileTree} {paths paths' : List Path} {exclude : List String}
  {output : Path} {found : List Path} {patterns : List (String → Bool)} {output? : Option Place}

/-! ### The first of the paths with the same steps -/

theorem mem_of_mem_dropRepeated {p : Path} (h : p ∈ dropRepeated paths) : p ∈ paths := by
  induction paths using dropRepeated.induct with
  | case1 => rwa [dropRepeated] at h
  | case2 => rwa [dropRepeated] at h
  | case3 first second later hsame ih =>
    rw [dropRepeated, if_pos hsame] at h
    exact List.mem_cons.2 ((List.mem_cons.1 (ih h)).imp id (List.mem_cons_of_mem _))
  | case4 first second later hdiffer ih =>
    rw [dropRepeated, if_neg hdiffer] at h
    exact List.mem_cons.2 ((List.mem_cons.1 h).imp id ih)

/-- In a list in order, each path with steps of its own comes before all later ones. -/
theorem pairwise_dropRepeated (h : paths.Pairwise (·.le · = true)) :
    (dropRepeated paths).Pairwise fun p q ↦ p.le q = true ∧ p.sameSteps q = false := by
  induction paths using dropRepeated.induct with
  | case1 => rw [dropRepeated]; exact .nil
  | case2 p => rw [dropRepeated]; exact List.pairwise_singleton _ p
  | case3 p q later hsame ih =>
    obtain ⟨hp, hlater⟩ := List.pairwise_cons.1 h
    rw [dropRepeated, if_pos hsame]
    exact ih (List.pairwise_cons.2
      ⟨fun r hr ↦ hp r (List.mem_cons_of_mem _ hr), (List.pairwise_cons.1 hlater).2⟩)
  | case4 p q later hdiffer ih =>
    obtain ⟨hp, hlater⟩ := List.pairwise_cons.1 h
    rw [dropRepeated, if_neg hdiffer]
    refine List.pairwise_cons.2 ⟨fun r hr ↦ ?_, ih hlater⟩
    have hr := mem_of_mem_dropRepeated hr
    refine ⟨hp r hr, Bool.eq_false_iff.2 fun hsame ↦ hdiffer ?_⟩
    have hqr : q.le r = true := (List.mem_cons.1 hr).elim
      (fun heq ↦ Path.le_of_sameSteps (heq ▸ q.sameSteps_self))
      ((List.pairwise_cons.1 hlater).1 r)
    have hrp : r.le p = true := Path.le_of_sameSteps (Path.sameSteps_comm .. ▸ hsame)
    exact Path.sameSteps_of_le (hp q List.mem_cons_self) (Path.le_trans q r p hqr hrp)

/-- **The first path with the same steps** is kept, of a list in order. -/
theorem mem_dropRepeated_iff (h : paths.Pairwise (·.le · = true)) {p : Path} :
    p ∈ dropRepeated paths ↔ paths.find? p.sameSteps = some p := by
  induction paths using dropRepeated.induct with
  | case1 => simp [dropRepeated]
  | case2 first =>
    rw [dropRepeated, List.mem_singleton, List.find?_singleton]
    split
    next => rw [Option.some_inj, eq_comm]
    next hdiffer => exact iff_of_false (fun heq ↦ hdiffer (heq ▸ p.sameSteps_self)) nofun
  | case3 first second later hsame ih =>
    obtain ⟨hfirst, hlater⟩ := List.pairwise_cons.1 h
    have hboth : p.sameSteps second = p.sameSteps first := by
      rw [Path.sameSteps, Path.sameSteps, beq_iff_eq.1 hsame]
    rw [dropRepeated, if_pos hsame, ih (List.pairwise_cons.2
      ⟨fun r hr ↦ hfirst r (List.mem_cons_of_mem _ hr), (List.pairwise_cons.1 hlater).2⟩),
      List.find?_cons, List.find?_cons, List.find?_cons, hboth]
    cases p.sameSteps first <;> rfl
  | case4 first second later hdiffer ih =>
    have hdropped := pairwise_dropRepeated h
    rw [dropRepeated, if_neg hdiffer] at hdropped ⊢
    rw [List.mem_cons, ih (List.pairwise_cons.1 h).2]
    cases hsame : p.sameSteps first with
    | true =>
      -- What has the steps of the first path is not among those that are kept behind it.
      have hnot : (second :: later).find? p.sameSteps ≠ some p := by
        intro hfound
        have hmem := (ih (List.pairwise_cons.1 h).2).2 hfound
        have hother := ((List.pairwise_cons.1 hdropped).1 p hmem).2
        rw [Path.sameSteps_comm, hsame] at hother
        cases hother
      rw [or_iff_left hnot, List.find?_cons_of_pos hsame, Option.some_inj, eq_comm]
    | false =>
      have hnot : ¬p.sameSteps first = true := by simp [hsame]
      rw [List.find?_cons_of_neg hnot]
      refine or_iff_right fun heq ↦ ?_
      rw [heq, Path.sameSteps_self] at hsame
      cases hsame

/-- Sorting leaves the first of the paths with the same steps the first. -/
theorem find?_mergeSort (p : Path) :
    (paths.mergeSort Path.le).find? p.sameSteps = paths.find? p.sameSteps := by
  have hperm := (List.mergeSort_perm paths Path.le).filter p.sameSteps
  have hsame : (paths.filter p.sameSteps).Pairwise (·.le · = true) := by
    refine List.pairwise_of_forall_mem_list fun q hq r hr ↦ Path.le_of_sameSteps ?_
    have hq := beq_iff_eq.1 (List.mem_filter.1 hq).2
    have hr := beq_iff_eq.1 (List.mem_filter.1 hr).2
    exact beq_iff_eq.2 (hq.symm.trans hr)
  -- Sorting is stable, so it keeps the order of these paths.
  have hsub : (paths.filter p.sameSteps).Sublist (paths.mergeSort Path.le) :=
    List.sublist_mergeSort Path.le_trans Path.le_total hsame List.filter_sublist
  have hkept := hsub.filter p.sameSteps
  simp only [List.filter_filter, Bool.and_self] at hkept
  rw [← List.head?_filter, ← List.head?_filter, hkept.eq_of_length hperm.length_eq.symm]

/-- **The same paths are kept** of two lists if of all paths with the same steps the same is the
first in both. -/
theorem dropRepeated_mergeSort_congr
    (h : ∀ p : Path, paths'.find? p.sameSteps = paths.find? p.sameSteps) :
    dropRepeated (paths'.mergeSort Path.le) = dropRepeated (paths.mergeSort Path.le) := by
  have hsorted (paths : List Path) : (paths.mergeSort Path.le).Pairwise (·.le · = true) :=
    List.pairwise_mergeSort Path.le_trans Path.le_total paths
  have hstrict (paths : List Path) := pairwise_dropRepeated (hsorted paths)
  have hnodup (paths : List Path) : (dropRepeated (paths.mergeSort Path.le)).Nodup := by
    refine (hstrict paths).imp fun hpq heq ↦ ?_
    rw [heq, Path.sameSteps_self] at hpq
    cases hpq.2
  refine List.Perm.eq_of_pairwise (fun p q _ _ hpq hqp ↦ ?_) (hstrict paths') (hstrict paths)
    ((List.perm_ext_iff_of_nodup (hnodup _) (hnodup _)).2 fun p ↦ ?_)
  · rw [Path.sameSteps_of_le hpq.1 hqp.1] at hpq
    cases hpq.2
  · rw [mem_dropRepeated_iff (hsorted _), mem_dropRepeated_iff (hsorted _), find?_mergeSort,
      find?_mergeSort, h]

/-! ### The sources of a path -/

theorem isOutside_iff {q : Path} {place : Place} (hq : t.place? q = some place) :
    isOutside t output? q = true ↔ ∀ output ∈ output?, ¬output <+: place := by
  cases output? with
  | none => simp [isOutside]
  | some output =>
    have hinside : isOutside t (some output) q = !output.isPrefixOf place := by
      simp [isOutside, hq]
    simp [hinside, ← List.isPrefixOf_iff_prefix]

/-- **A directory is searched** for the files below it that are wanted and not in the output
directory. -/
theorem mem_sourcesOf_directory (htools : tools.ListsEntries) (h : t.IsPlain) {p : Path} {d : Place}
    (hp : t.resolve p = .directory d) {group : List Path}
    (hgroup : sourcesOf tools t patterns output? p = .ok group) {q : Path} :
    q ∈ group ↔ ∃ names text?, q = p.descend names ∧
      t.get? (d ++ names) = some (.file text?) ∧ isWanted patterns p q = true ∧
      ∀ output ∈ output?, ¬output <+: d ++ names := by
  have hleads := FileTree.leadsTo_of_resolve hp
  rw [sourcesOf, hp] at hgroup
  obtain rfl := Except.ok.inj hgroup
  have hplace {names : List String} {text? : Option String}
      (hfile : t.get? (d ++ names) = some (.file text?)) :
      t.place? (p.descend names) = some (d ++ names) := by
    rw [FileTree.place?, h.resolve_descend hleads hfile]
  simp only [List.mem_filter, Bool.and_eq_true, htools t p d h hp]
  constructor
  · rintro ⟨⟨names, rfl, hthere⟩, ⟨hfile, hwanted⟩, houtside⟩
    obtain ⟨text?, hfile⟩ := (h.isFile_descend_iff hleads hthere).1 hfile
    exact ⟨names, text?, rfl, hfile, hwanted, (isOutside_iff (hplace hfile)).1 houtside⟩
  · rintro ⟨names, text?, rfl, hfile, hwanted, houtside⟩
    have hthere : t.get? (d ++ names) ≠ none := Option.ne_none_iff_exists'.2 ⟨_, hfile⟩
    exact ⟨⟨names, rfl, hthere⟩, ⟨(h.isFile_descend_iff hleads hthere).2 ⟨text?, hfile⟩, hwanted⟩,
      (isOutside_iff (hplace hfile)).2 houtside⟩

/-- **Below a directory** there is one path at most with the same steps. -/
theorem eq_of_sameSteps_descend (h : t.IsPlain) {p : Path} {d : Place} {names names' : List String}
    (hnames : t.get? (d ++ names) ≠ none) (hnames' : t.get? (d ++ names') ≠ none)
    (hsame : (p.descend names).sameSteps (p.descend names') = true) :
    p.descend names = p.descend names' := by
  have hsteps := beq_iff_eq.1 hsame
  rw [p.steps_descend (h.isEntryName_of_mem hnames), p.steps_descend (h.isEntryName_of_mem hnames'),
    List.append_cancel_left_eq] at hsteps
  have hinjective : Function.Injective PathStep.name := fun _ _ ↦ PathStep.name.inj
  rw [hinjective.list_map hsteps]

/-- What is found of paths that all have steps of their own depends on which there are, not on
their order. -/
theorem find?_sameSteps_eq_some_iff
    (hunique : ∀ p ∈ paths, ∀ q ∈ paths, p.sameSteps q = true → p = q) {p q : Path} :
    paths.find? p.sameSteps = some q ↔ q ∈ paths ∧ p.sameSteps q = true := by
  refine ⟨fun h ↦ ⟨List.mem_of_find?_eq_some h, List.find?_some h⟩, fun ⟨hq, hpq⟩ ↦ ?_⟩
  obtain ⟨r, hr⟩ := Option.isSome_iff_exists.1 (List.find?_isSome.2 ⟨q, hq, hpq⟩)
  have hpr : p.sameSteps r = true := List.find?_some hr
  have hqr : q.sameSteps r = true := by rwa [Path.sameSteps, ← beq_iff_eq.1 hpq]
  rw [hr, hunique q hq r (List.mem_of_find?_eq_some hr) hqr]

/-- Lists with the same paths agree in what is found of these. -/
theorem find?_eq_of_mem_iff (hunique : ∀ p ∈ paths, ∀ q ∈ paths, p.sameSteps q = true → p = q)
    (hmem : ∀ p, p ∈ paths' ↔ p ∈ paths) (p : Path) :
    paths'.find? p.sameSteps = paths.find? p.sameSteps := by
  refine Option.ext fun q ↦ ?_
  rw [find?_sameSteps_eq_some_iff hunique, find?_sameSteps_eq_some_iff fun p hp q hq ↦
    hunique p ((hmem p).1 hp) q ((hmem q).1 hq), hmem]

/-! ### The search -/

/-- The parts of a search that succeeds. -/
theorem exists_of_find (h : find tools t paths exclude output = .ok found) :
    ∃ patterns groups, readPatterns tools exclude = .ok patterns ∧
      List.Forall₂ (fun p group ↦ sourcesOf tools t patterns (t.place? output) p = .ok group) paths
        groups ∧ found = dropRepeated (groups.flatten.mergeSort Path.le) := by
  obtain ⟨patterns, hpatterns, h⟩ := exists_of_bind_eq_ok h
  obtain ⟨groups, hgroups, h⟩ := exists_of_bind_eq_ok h
  exact ⟨patterns, groups, hpatterns, mapM_eq_ok_iff.1 hgroups, (Except.ok.inj h).symm⟩

/-- **A source that is found** is named by one of the paths. -/
theorem mem_find (h : find tools t paths exclude output = .ok found) {q : Path} (hq : q ∈ found) :
    ∃ patterns, readPatterns tools exclude = .ok patterns ∧
      ∃ p ∈ paths, ∃ group,
        sourcesOf tools t patterns (t.place? output) p = .ok group ∧ q ∈ group := by
  obtain ⟨patterns, groups, hpatterns, hgroups, rfl⟩ := exists_of_find h
  have hmem := List.mem_mergeSort.1 (mem_of_mem_dropRepeated hq)
  obtain ⟨group, hgroup, hq⟩ := List.mem_flatten.1 hmem
  obtain ⟨p, hp, hsources⟩ := exists_of_mem_right hgroups hgroup
  exact ⟨patterns, hpatterns, p, hp, group, hsources, hq⟩

/-- **The search comes to the same** where every path names the same sources, of paths with the same
steps the same one first. -/
theorem find_congr (h : find tools t paths exclude output = .ok found)
    (hsame : ∀ p ∈ paths, ∀ patterns group,
      sourcesOf tools t patterns (t.place? output) p = .ok group →
        ∃ group', sourcesOf tools t' patterns (t'.place? output) p = .ok group' ∧
          ∀ q : Path, group'.find? q.sameSteps = group.find? q.sameSteps) :
    find tools t' paths exclude output = .ok found := by
  obtain ⟨patterns, groups, hpatterns, hgroups, rfl⟩ := exists_of_find h
  obtain ⟨groups', hgroups', hfirst⟩ : ∃ groups',
      paths.mapM (sourcesOf tools t' patterns (t'.place? output)) = .ok groups' ∧
        List.Forall₂ (fun group group' : List Path ↦
          ∀ q : Path, group'.find? q.sameSteps = group.find? q.sameSteps) groups groups' := by
    obtain ⟨groups', hgroups', hfirst⟩ :=
      exists_forall₂_of_forall₂ hgroups fun p hp group ↦ hsame p hp patterns group
    exact ⟨groups', mapM_eq_ok_iff.2 hgroups', hfirst⟩
  have hflatten (q : Path) :
      groups'.flatten.find? q.sameSteps = groups.flatten.find? q.sameSteps := by
    rw [List.find?_flatten, List.find?_flatten]
    exact findSome?_eq_of_forall₂ hfirst fun _ _ h ↦ h q
  rw [find, hpatterns]
  show (paths.mapM (sourcesOf tools t' patterns (t'.place? output)) >>= fun found ↦
    pure (dropRepeated (found.flatten.mergeSort Path.le)) : Except SearchError (List Path)) = _
  rw [hgroups', ← dropRepeated_mergeSort_congr hflatten]
  rfl

end SourceSearch

end DoubleDispatch
