import DoubleDispatch.Proofs.Artifact.PlainNames
import DoubleDispatch.Proofs.Hierarchy.Narrowing
import DoubleDispatch.Proofs.Hierarchy.Participants

/-!
# Plain file names in a pass

What is found in files that are read has an identifier as its name and stands in nested namespaces
(`Participant.IsPlain`), so the candidates that it offers are bases of file names. All names that
are given away in a pass are then names of generated files, whatever was taken before
(`Pass.forall_isGeneratedFile_groups`): they hold no separator of paths, are no sources wherever
they are put, and are removed when the directory that they are in is cleaned
(`Pass.artifact_names_plain`).
-/

namespace DoubleDispatch

/-! ### Participants -/

/-- The participant has an identifier as its name, and stands in nested namespaces. -/
structure Participant.IsPlain (p : Participant) : Prop where
  name : Text.isIdentifier p.name.toList
  ns : p.ns.IsNested

namespace Participant.IsPlain

variable {p root : Participant}

theorem isFileBase_name (h : p.IsPlain) : IsFileBase p.name := .of_isIdentifier h.name

theorem isFileBase_ns (h : p.IsPlain) {ns : String} (hns : p.ns.name? = some ns) :
    IsFileBase ns := by
  obtain ⟨hname, hnested⟩ := h
  cases hp : p.ns with
  | global =>
    rw [hp] at hns
    cases hns
  | named name =>
    rw [hp] at hns hnested
    cases hns
    exact .of_isDotted hnested.isDotted

theorem isFileBase_visitorName (h : root.IsPlain) : IsFileBase root.visitorName := by
  refine .of_isIdentifier ?_
  rw [visitorName, String.toList_append]
  exact Text.isIdentifier_append h.name (List.all_eq_true.1 (by decide))

/-- An implementing type asks for bases. -/
theorem isFileBase_of_mem_candidates (h : p.IsPlain) (hroot : root.IsPlain) :
    ∀ base ∈ p.candidates root, IsFileBase base := by
  have hname := h.isFileBase_name
  rw [candidates]
  split
  next ns hns =>
    have hqualified := (h.isFileBase_ns hns).dot hname
    simpa using ⟨hname, hqualified, hqualified.dot hroot.isFileBase_name⟩
  next => simpa using ⟨hname, hname.dot hroot.isFileBase_name⟩

/-- A root asks for bases. -/
theorem isFileBase_of_mem_rootCandidates (h : root.IsPlain) :
    ∀ base ∈ root.rootCandidates, IsFileBase base := by
  have hname := h.isFileBase_visitorName
  rw [rootCandidates]
  split
  next ns hns => simpa using ⟨hname, (h.isFileBase_ns hns).dot hname⟩
  next => simpa using hname

end Participant.IsPlain

/-- Every tree was read from some file. -/
def AllRead (trees : List SourceTree) : Prop :=
  ∀ tree ∈ trees, ∃ path source, SourceTree.parse path source = .ok tree

theorem allRead_of_parseAll {sources : List (String × String)} {trees : List SourceTree}
    (h : parseAll sources = .ok trees) : AllRead trees := by
  intro tree htree
  obtain ⟨source, -, hread⟩ := exists_of_mem_right (forall₂_of_parseAll h) htree
  exact ⟨_, _, hread⟩

/-- **What is found in files that are read is plain.** -/
theorem Compilation.Found.isPlain {trees : List SourceTree} (h : AllRead trees)
    {qualifies : Nat → TypeDeclaration → Prop} {participants : List Participant}
    (hfound : (ofTrees trees).Found qualifies participants) {p : Participant}
    (hp : p ∈ participants) : p.IsPlain where
  name := by
    refine hfound.isIdentifier_name (fun tree htree ↦ ?_) hp
    obtain ⟨path, source, hread⟩ := h tree htree
    exact SourceTree.isIdentifier_name_of_parse hread
  ns := by
    obtain ⟨place, -, d, symbol, -, hsymbol, -, hns, -⟩ := hfound.shown p hp
    rw [hns]
    refine DeclarationTable.isNested_ns_of_declaredSymbol? (fun tree htree ↦ ?_) hsymbol
    obtain ⟨path, source, hread⟩ := h tree htree
    exact SourceTree.isDotted_of_parse hread

namespace Pass

/-! ### Names given away -/

/-- Every text of a hierarchy of plain participants asks for bases. -/
theorem forall_isFileBase_pending {trees : List SourceTree} (h : AllRead trees)
    {settings : Settings} {hierarchy : Hierarchy}
    (hmem : hierarchy ∈ hierarchies settings (.ofTrees trees)) :
    ∀ pending ∈ hierarchy.pending, ∀ base ∈ pending.candidates, IsFileBase base := by
  obtain ⟨root, hroot, rfl⟩ := List.mem_map.1 hmem
  have hplain := (Compilation.found_roots _).isPlain h hroot
  rw [Hierarchy.pending]
  split
  · nofun
  · refine List.forall_mem_append.2 ⟨?_, List.forall_mem_singleton.2 ?_⟩
    · intro pending hpending
      obtain ⟨p, hp, rfl⟩ := List.mem_map.1 hpending
      have hp := (Compilation.found_implementors _ settings.matching root).isPlain h hp
      exact hp.isFileBase_of_mem_candidates hplain
    · exact hplain.isFileBase_of_mem_rootCandidates

section

variable {settings : Settings} (hsettings : settings.validate = .ok ())

include hsettings

/-- **Texts that ask for bases get names of generated files**, and the extension of the names stays
what it is. -/
theorem forall_isGeneratedFile_nameAll {names : ArtifactNames}
    (hnames : names.extension = settings.extension) {pending : List PendingArtifact}
    (h : ∀ p ∈ pending, ∀ base ∈ p.candidates, IsFileBase base) :
    (∀ a ∈ (nameAll names pending).1, IsGeneratedFile settings.extension a.name) ∧
      (nameAll names pending).2.extension = settings.extension := by
  induction pending generalizing names with
  | nil => exact ⟨nofun, hnames⟩
  | cons first later ih =>
    obtain ⟨hfirst, hlater⟩ := List.forall_mem_cons.1 h
    have hclaim : (names.claim first.candidates).2.extension = settings.extension := hnames
    obtain ⟨hartifacts, hextension⟩ := ih hclaim hlater
    have hgenerated :
        IsGeneratedFile settings.extension (names.claim first.candidates).1 := by
      rw [ArtifactNames.claim, ArtifactNames.fileName, hnames]
      exact .of_isFileBase hsettings (names.isFileBase_choose hfirst)
    exact ⟨List.forall_mem_cons.2 ⟨hgenerated, hartifacts⟩, hextension⟩

theorem forall_isGeneratedFile_groups {names : ArtifactNames}
    (hnames : names.extension = settings.extension) {hierarchies : List Hierarchy}
    (h : ∀ hierarchy ∈ hierarchies, ∀ p ∈ hierarchy.pending, ∀ base ∈ p.candidates,
      IsFileBase base) :
    ∀ a ∈ (groups names hierarchies).flatten, IsGeneratedFile settings.extension a.name := by
  induction hierarchies generalizing names with
  | nil => nofun
  | cons hierarchy later ih =>
    obtain ⟨hfirst, hlater⟩ := List.forall_mem_cons.1 h
    obtain ⟨hartifacts, hextension⟩ := forall_isGeneratedFile_nameAll hsettings hnames hfirst
    exact List.forall_mem_append.2 ⟨hartifacts, ih hextension hlater⟩

/-- The marker has the name of a generated file. -/
theorem isGeneratedFile_marker :
    IsGeneratedFile settings.extension (Marker.artifact settings.extension).name :=
  .of_isFileBase hsettings (.of_isIdentifier (by decide))

/-- **A pass hands over generated files only**, however it ends. -/
theorem MayEnd.exists_generatedFiles {trees : List SourceTree} (h : AllRead trees)
    {token : CancellationToken} {before behind : History} {report : PassReport}
    (hm : MayEnd settings (.ofTrees trees) token before report behind) :
    ∃ handed, behind.artifacts = before.artifacts ++ handed ∧
      report.artifacts = handed.map (·.name) ∧
      ∀ a ∈ handed, IsGeneratedFile settings.extension a.name := by
  obtain ⟨n, hn⟩ := hm.exists_cutAt
  refine ⟨_, hn.history_eq, hn.artifacts_eq, fun a ha ↦ ?_⟩
  have hnames : (initialNames settings).extension = settings.extension := rfl
  have hpieces : ∀ a ∈ (pieces settings (.ofTrees trees)).flatten,
      IsGeneratedFile settings.extension a.name :=
    forall_isGeneratedFile_groups hsettings hnames fun _ ↦ forall_isFileBase_pending h
  obtain ⟨group, hgroup, ha⟩ := List.mem_flatten.1 ha
  exact hpieces a (List.mem_flatten.2 ⟨group, List.mem_of_mem_take hgroup, ha⟩)

end

/-- **The names of artifacts are plain file names**: of each artifact that a pass hands over,
however it ends, and of the marker. A name is a base of identifiers and dots that starts like an
identifier, followed by the mark of generated files and the extension. So it holds no separator of
paths, the search for sources passes the file over wherever it is, and the cleaning of a directory
removes it. -/
theorem artifact_names_plain {sources : List (String × String)} {trees : List SourceTree}
    (hread : parseAll sources = .ok trees) {settings : Settings}
    (hsettings : settings.validate = .ok ()) {token : CancellationToken} {before behind : History}
    {report : PassReport} (hm : MayEnd settings (.ofTrees trees) token before report behind) :
    ∃ handed, behind.artifacts = before.artifacts ++ handed ∧
      report.artifacts = handed.map (·.name) ∧
      ∀ name ∈ (Marker.artifact settings.extension).name :: report.artifacts,
        (∃ base, name = base ++ ".g." ++ settings.extension ∧ base ≠ "" ∧
          (∀ c ∈ base.toList, Text.continuesIdentifier c ∨ c = '.') ∧
          ∀ c ∈ base.toList.head?, Text.startsIdentifier c) ∧
        '/' ∉ name.toList ∧ '\\' ∉ name.toList ∧
        (∀ directory : Path, SourceSearch.isSource (directory.child name) = false) ∧
        Delivery.isGeneratedName settings.extension name = true := by
  obtain ⟨handed, hhistory, hreport, hhanded⟩ :=
    hm.exists_generatedFiles hsettings (allRead_of_parseAll hread)
  refine ⟨handed, hhistory, hreport, fun name hname ↦ ?_⟩
  have hgenerated : IsGeneratedFile settings.extension name := by
    rcases List.mem_cons.1 hname with rfl | hname
    · exact isGeneratedFile_marker hsettings
    · rw [hreport] at hname
      obtain ⟨a, ha, rfl⟩ := List.mem_map.1 hname
      exact hhanded a ha
  refine ⟨?_, hgenerated.notMem (by decide), hgenerated.notMem (by decide),
    hgenerated.isSource_child, hgenerated.isGeneratedName⟩
  obtain ⟨base, hbase, hname⟩ := hgenerated.base
  refine ⟨base, hname, ?_, hbase.forall_mem, ?_⟩
  all_goals obtain ⟨c, s, hcons, hc, -⟩ := hbase
  · rintro rfl
    cases hcons
  · rw [hcons]
    rintro d ⟨⟩
    exact hc

/-- A root with two types of one name, one of them in a namespace further in. -/
def clashSample : List (String × String) :=
  [("Marker.cs", "namespace VisitorGenerator; class VisitorNodeAttribute : Attribute;"),
   ("Shapes.cs",
    "global using VisitorGenerator; namespace Geometry \x7b [VisitorNode] interface IShape; " ++
    "class Circle : IShape; \x7d namespace Geometry.Flat \x7b class Circle : IShape; \x7d")]

/-- The second type gets a dotted name, and no file is a source below a directory. -/
theorem artifact_names_plain_clashSample :
    ∃ trees, parseAll clashSample = .ok trees ∧
      let report := (run { extension := "txt" } (.ofTrees trees) .never []).1
      report.artifacts = ["Circle.g.txt", "Geometry.Flat.Circle.g.txt", "IShapeVisitor.g.txt"] ∧
      ∀ name ∈ report.artifacts, SourceSearch.isSource (Path.child ⟨"out"⟩ name) = false ∧
        Delivery.isGeneratedName "txt" name = true := by
  have hrun : ∃ trees ∈ (parseAll clashSample).toOption,
      (run { extension := "txt" } (.ofTrees trees) .never []).1.artifacts =
        ["Circle.g.txt", "Geometry.Flat.Circle.g.txt", "IShapeVisitor.g.txt"] := by decide +kernel
  obtain ⟨trees, htrees, hartifacts⟩ := hrun
  have hread := eq_ok_of_toOption htrees
  have hsettings : Settings.validate { extension := "txt" } = .ok () := by decide
  obtain ⟨_, -, -, hnames⟩ := artifact_names_plain hread hsettings
    (mayEnd_run { extension := "txt" } (.ofTrees trees) .never [])
  refine ⟨trees, hread, hartifacts, fun name hname ↦ ?_⟩
  obtain ⟨-, -, -, hsource, hgenerated⟩ := hnames name (List.mem_cons_of_mem _ hname)
  exact ⟨hsource ⟨"out"⟩, hgenerated⟩

end Pass

end DoubleDispatch
