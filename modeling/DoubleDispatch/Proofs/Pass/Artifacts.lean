import DoubleDispatch.Proofs.Emission.Reopening
import DoubleDispatch.Proofs.Parsing.Ordinals
import DoubleDispatch.Proofs.Pass.Cut

/-!
# The artifacts of a completed pass

A pass that completes has handed over the texts of all its hierarchies in order. Where the names of
the hierarchies can be read, so can each of these texts, and the trees can be added to those of the
compilation (`Pass.MayEnd.exists_emitted`).
-/

namespace DoubleDispatch

/-! ### Reading files in order -/

/-- An artifact is read as a tree, which has no global directives. -/
structure Artifact.IsReadAs (a : Artifact) (tree : SourceTree) : Prop where
  parse : SourceTree.parse a.name a.text = .ok tree
  globalUsings : tree.file.globalUsings = []

/-- Artifacts that can be read one by one can be read in order. -/
theorem parseAll_eq_ok {artifacts : List Artifact} {trees : List SourceTree}
    (h : List.Forall₂ Artifact.IsReadAs artifacts trees) :
    parseAll (artifacts.map fun a ↦ (a.name, a.text)) = .ok trees :=
  parseAll_of_forall₂ (List.forall₂_map_left_iff.2 (h.imp fun _ _ ha ↦ ha.parse))

/-- Where there is a type, its file is generated, and that of the root. -/
theorem Hierarchy.mem_pending {h : Hierarchy} {p : Participant} (hp : p ∈ h.types) :
    (p.augmentation h.root).render ∈ h.pending.map (·.text) ∧
      h.rootFile.render ∈ h.pending.map (·.text) := by
  have hempty : h.types.isEmpty = false := List.isEmpty_eq_false_iff_exists_mem.2 ⟨p, hp⟩
  rw [pending, hempty, if_neg nofun, List.map_append, List.map_map]
  exact ⟨List.mem_append_left _ (List.mem_map.2 ⟨p, hp, rfl⟩),
    List.mem_append_right _ (List.mem_singleton_self _)⟩

/-- What is generated for a hierarchy can be read, under any name. -/
theorem Hierarchy.IsWellNamed.exists_isReadAs {h : Hierarchy} (hh : h.IsWellNamed) {text : String}
    (htext : text ∈ h.pending.map (·.text)) (name : String) :
    ∃ tree, Artifact.IsReadAs ⟨name, text⟩ tree := by
  rw [Hierarchy.pending] at htext
  split at htext
  · cases htext
  · rw [List.map_append, List.mem_append, List.map_map, List.mem_map] at htext
    rcases htext with ⟨p, hp, rfl⟩ | hroot
    · obtain ⟨tree, _, hparse, htree, -⟩ :=
        (hh.types p hp).exists_parse_augmentation hh.root name
      exact ⟨tree, hparse, htree.globalUsings⟩
    · obtain rfl := List.mem_singleton.1 hroot
      obtain ⟨tree, _, _, _, hparse, htree, -⟩ := hh.exists_parse_rootFile name
      exact ⟨tree, hparse, htree.globalUsings⟩

theorem globalUsings_of_mem {artifacts : List Artifact} {trees : List SourceTree}
    (h : List.Forall₂ Artifact.IsReadAs artifacts trees) {tree : SourceTree}
    (htree : tree ∈ trees) : tree.file.globalUsings = [] := by
  obtain ⟨a, -, ha⟩ := exists_of_mem_right h htree
  exact ha.globalUsings

theorem SourceTree.source_of_parse {path source : String} {tree : SourceTree}
    (h : SourceTree.parse path source = .ok tree) : tree.source = source := by
  rw [SourceTree.parse] at h
  split at h
  · cases h
    rfl
  · cases h

namespace Pass

/-! ### Texts of artifacts -/

theorem map_text_groups (names : ArtifactNames) (hierarchies : List Hierarchy) :
    (groups names hierarchies).flatten.map (·.text) =
      hierarchies.flatMap fun h ↦ h.pending.map (·.text) := by
  induction hierarchies generalizing names with
  | nil => rfl
  | cons hierarchy later ih =>
    rw [groups, List.flatten_cons, List.map_append, map_text_nameAll, ih, List.flatMap_cons]

variable {settings : Settings} {c : Compilation} {token : CancellationToken} {h h' : History}
  {report : PassReport}

/-- **What a completed pass hands over can be read**, and it is what its hierarchies call for. -/
theorem MayEnd.exists_emitted (hm : MayEnd settings c token h report h')
    (hcompleted : report.outcome = .completed)
    (hnames : ∀ hierarchy ∈ hierarchies settings c, hierarchy.IsWellNamed) :
    ∃ (handed : List Artifact) (emitted : List SourceTree), h'.artifacts = h.artifacts ++ handed ∧
      handed.map (·.text) = (hierarchies settings c).flatMap (fun h ↦ h.pending.map (·.text)) ∧
      List.Forall₂ Artifact.IsReadAs handed emitted := by
  obtain ⟨n, hn⟩ := hm.exists_cutAt
  have hall : (pieces settings c).take n = pieces settings c := by
    rw [hn.eq_length_of_completed hcompleted]
    exact List.take_of_length_le (length_pieces settings c).le
  have htexts := map_text_groups (initialNames settings) (hierarchies settings c)
  have hreadable : ∀ a ∈ (pieces settings c).flatten, ∃ tree, a.IsReadAs tree := by
    intro a ha
    have htext := List.mem_map_of_mem (f := Artifact.text) ha
    rw [pieces, htexts, List.mem_flatMap] at htext
    obtain ⟨hierarchy, hmem, htext⟩ := htext
    exact (hnames hierarchy hmem).exists_isReadAs htext a.name
  have hhistory := hn.history_eq
  rw [hall] at hhistory
  obtain ⟨emitted, hemitted⟩ := exists_forall₂ hreadable
  exact ⟨_, emitted, hhistory, htexts, hemitted⟩

end Pass

end DoubleDispatch
