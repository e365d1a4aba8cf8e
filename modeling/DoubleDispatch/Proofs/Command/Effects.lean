import DoubleDispatch.Command
import DoubleDispatch.Proofs.Delivery
import DoubleDispatch.Proofs.Parsing.Characters
import DoubleDispatch.Proofs.Pass.Accounting
import DoubleDispatch.Proofs.Pass.PlainNames
import DoubleDispatch.Proofs.SourceSearch

/-!
# What a run does to the files

All work on sources comes before the first change to a file, so a run that ends before the delivery
leaves the tree as it was. What a delivery may change is known from `Delivery.Delivered`, and the
artifacts that it is given have different names of generated files (`IsDeliverable`): each of them
is one file in the output directory itself, and none is written over another.
-/

namespace DoubleDispatch

/-! ### Configurations -/

/-- **A configuration that is loaded** is valid, whatever the tools read. -/
theorem Configuration.validate_of_load {tools : Toolkit} {t : FileTree}
    {environment : List (String × String)} {file : Option Path} {verbosity : Nat}
    {c : Configuration} (h : load tools t environment file verbosity = .ok c) :
    c.generator.validate = .ok () := by
  obtain ⟨layer, -, h⟩ := exists_of_bind_eq_ok h
  split at h
  · cases h
  next c' _ =>
    cases hvalid : c'.generator.validate with
    | error e =>
      rw [hvalid] at h
      cases h
    | ok =>
      rw [hvalid] at h
      -- The log level is set behind the check.
      obtain rfl := Except.ok.inj h
      rw [withVerbosity]
      split <;> exact hvalid

namespace Command

variable {tools : Toolkit} {t t' : FileTree} {c : Configuration} {options : SourceOptions}
  {program : Compilation}

/-! ### Compilations -/

/-- The sources are read one by one. -/
theorem readSources_cons_eq_ok {path : Path} {paths : List Path} {trees : List SourceTree}
    (h : readSources t (path :: paths) = .ok trees) :
    ∃ text tree later, t.read? path = some text ∧ SourceTree.parse path.text text = .ok tree ∧
      readSources t paths = .ok later ∧ trees = tree :: later := by
  rw [readSources] at h
  cases hread : t.read? path with
  | none =>
    rw [hread] at h
    cases h
  | some text =>
    rw [hread] at h
    dsimp only at h
    cases hparse : SourceTree.parse path.text text with
    | error e =>
      rw [hparse] at h
      cases h
    | ok tree =>
      rw [hparse] at h
      obtain ⟨later, hlater, htrees⟩ := exists_of_bind_eq_ok h
      exact ⟨text, tree, later, rfl, hparse, hlater, (Except.ok.inj htrees).symm⟩

theorem allRead_of_readSources {paths : List Path} {trees : List SourceTree}
    (h : readSources t paths = .ok trees) : AllRead trees := by
  induction paths generalizing trees with
  | nil =>
    cases h
    nofun
  | cons path paths ih =>
    obtain ⟨text, tree, later, -, hparse, hlater, rfl⟩ := readSources_cons_eq_ok h
    exact List.forall_mem_cons.2 ⟨⟨_, _, hparse⟩, ih hlater⟩

/-- **A compilation** is made of the sources that are found and of the declaration of the marker. -/
theorem compilation_eq_ok_iff {output : Path} :
    compilation tools t c options output = .ok program ↔
      ∃ paths trees marker,
        SourceSearch.find tools t options.paths (c.exclude ++ options.exclude) output = .ok paths ∧
        readSources t paths = .ok trees ∧
        SourceTree.parse (Marker.artifact c.generator.extension).name
          (Marker.artifact c.generator.extension).text = .ok marker ∧
        program = .ofTrees (trees ++ [marker]) := by
  constructor
  · intro h
    rw [compilation] at h
    cases hfind : SourceSearch.find tools t options.paths (c.exclude ++ options.exclude) output with
    | error e =>
      rw [hfind] at h
      cases h
    | ok paths =>
      rw [hfind] at h
      obtain ⟨trees, htrees, h⟩ := exists_of_bind_eq_ok h
      dsimp only at h
      split at h
      · cases h
      next marker hmarker =>
        exact ⟨paths, trees, marker, rfl, htrees, hmarker, (Except.ok.inj h).symm⟩
  · rintro ⟨paths, trees, marker, hfind, htrees, hmarker, rfl⟩
    rw [compilation, hfind]
    dsimp only
    rw [htrees, Stream.ok_bind, hmarker]
    rfl

/-! ### Artifacts -/

/-- Artifacts that can be delivered: the marker and those that a report names, each under the name
of a generated file that no other one has. -/
structure IsDeliverable (extension : String) (report : PassReport) (artifacts : List Artifact) :
    Prop where
  names_eq : artifacts.map (·.name) = (Marker.artifact extension).name :: report.artifacts
  nodup : (artifacts.map (·.name)).Nodup
  generated : ∀ a ∈ artifacts, IsGeneratedFile extension a.name

theorem isDeliverable_pass {s : Settings} (hs : s.validate = .ok ()) {trees : List SourceTree}
    (htrees : AllRead trees) :
    IsDeliverable s.extension (pass s (.ofTrees trees)).1 (pass s (.ofTrees trees)).2 := by
  have hm := Pass.mayEnd_run s (.ofTrees trees) .never (Pass.handOverMarker s [])
  obtain ⟨n, hn⟩ := hm.exists_cutAt
  obtain ⟨handed, hhistory, hreport, hgenerated⟩ := hm.exists_generatedFiles hs htrees
  have hartifacts : (pass s (.ofTrees trees)).2 = Marker.artifact s.extension :: handed := hhistory
  have hkeys := Pass.nodup_keys s (.ofTrees trees) n
  have hhanded : handed = ((Pass.pieces s (.ofTrees trees)).take n).flatten :=
    List.append_cancel_left (hhistory.symm.trans hn.history_eq)
  rw [← hhanded] at hkeys
  refine ⟨?_, List.Nodup.of_map Text.toLowercase ?_, ?_⟩
  · rw [hartifacts, List.map_cons]
    exact congrArg _ hreport.symm
  · rw [hartifacts, List.map_map]
    exact hkeys
  · rw [hartifacts]
    exact List.forall_mem_cons.2 ⟨Pass.isGeneratedFile_marker hs, hgenerated⟩

/-! ### Generating -/

theorem readSources_ne_success {paths : List Path} {ending : Ending}
    (h : readSources t paths = .error ending) : ending ≠ .success := by
  induction paths with
  | nil => cases h
  | cons path paths ih =>
    rw [readSources] at h
    cases hread : t.read? path with
    | none =>
      rw [hread] at h
      cases h
      nofun
    | some text =>
      rw [hread] at h
      dsimp only at h
      cases hparse : SourceTree.parse path.text text with
      | error e =>
        rw [hparse] at h
        cases h
        cases e <;> nofun
      | ok tree =>
        rw [hparse] at h
        cases hlater : readSources t paths with
        | error e =>
          rw [hlater] at h
          cases h
          exact ih hlater
        | ok later =>
          rw [hlater] at h
          cases h

theorem compilation_ne_success {output : Path} {ending : Ending}
    (h : compilation tools t c options output = .error ending) : ending ≠ .success := by
  rw [compilation] at h
  cases hfind : SourceSearch.find tools t options.paths (c.exclude ++ options.exclude) output with
  | error e =>
    rw [hfind] at h
    cases h
    nofun
  | ok paths =>
    rw [hfind] at h
    dsimp only at h
    cases htrees : readSources t paths with
    | error e =>
      rw [htrees] at h
      cases h
      exact readSources_ne_success htrees
    | ok trees =>
      rw [htrees] at h
      cases hmarker : SourceTree.parse (Marker.artifact c.generator.extension).name
          (Marker.artifact c.generator.extension).text with
      | error e =>
        have h : (throw (sourceEnding e) : Except Ending Compilation) = .error ending := by
          rwa [hmarker] at h
        cases h
        cases e <;> nofun
      | ok tree => rw [hmarker] at h; cases h

/-- **How a generation ends**: before it has touched a file, during the delivery, or with a delivery
that succeeded. -/
theorem generate_cases {output? : Option Path} {clean json : Bool} {answer : Answer}
    (h : generate tools t c options output? clean json = (answer, t')) :
    answer.ending ≠ .success ∧ t' = t ∨
      (∃ e, answer.ending = .failure (.delivery e)) ∨
      ∃ program, compilation tools t c options (output?.getD c.outputDirectory) = .ok program ∧
        answer.ending = .success ∧
        Delivery.deliver t (output?.getD c.outputDirectory) c.generator.extension clean
          (pass (settings c options) program).2 = (t', none) := by
  rw [generate] at h
  cases hprogram : compilation tools t c options (output?.getD c.outputDirectory) with
  | error ending =>
    simp only [hprogram] at h
    cases h
    exact .inl ⟨compilation_ne_success hprogram, rfl⟩
  | ok program =>
    simp only [hprogram] at h
    rcases hdeliver : Delivery.deliver t (output?.getD c.outputDirectory) c.generator.extension
      clean (pass (settings c options) program).2 with ⟨behind, _ | e⟩
    · simp only [hdeliver] at h
      cases h
      exact .inr (.inr ⟨program, rfl, rfl, hdeliver⟩)
    · simp only [hdeliver] at h
      cases h
      exact .inr (.inl ⟨e, rfl⟩)

/-- What is printed after a delivery depends on the program that was read alone. -/
theorem exists_output (tools : Toolkit) (c : Configuration) (options : SourceOptions)
    (output? : Option Path) (clean json : Bool) (program : Compilation) :
    ∃ output, ∀ t t',
      compilation tools t c options (output?.getD c.outputDirectory) = .ok program →
      Delivery.deliver t (output?.getD c.outputDirectory) c.generator.extension clean
        (pass (settings c options) program).2 = (t', none) →
      generate tools t c options output? clean json = (⟨output, .success⟩, t') := by
  let artifacts := (pass (settings c options) program).2
  let report := (pass (settings c options) program).1
  let directory := output?.getD c.outputDirectory
  refine ⟨if json then tools.json (report.toJson directory.text) ++ "\n"
    else unlines (report.summaryLines tools.styled artifacts.length directory.text),
    fun t t' hprogram hdeliver ↦ ?_⟩
  rw [generate]
  simp only [hprogram, hdeliver]
  rfl

/-! ### Runs -/

/-- The arguments ask for artifacts to be generated, and not for the configuration to be shown. -/
structure Generates (tools : Toolkit) (arguments : List String) (i : Invocation)
    (options : SourceOptions) (output? : Option Path) (clean json : Bool) : Prop where
  read : tools.request arguments = .run i
  printConfig : i.printConfig = false
  task : i.task? = some (.generate options output? clean json)

variable {arguments : List String} {environment : List (String × String)} {i : Invocation}
  {output? : Option Path} {clean json : Bool}

theorem Generates.run_of_load (hg : Generates tools arguments i options output? clean json)
    (hload : Configuration.load tools t environment i.config? i.verbosity = .ok c) :
    run tools arguments environment t = generate tools t c options output? clean json := by
  rw [run, hg.read]
  dsimp only
  rw [invoke, hload]
  dsimp only
  rw [hg.printConfig, hg.task]
  rfl

theorem Generates.run_of_error (hg : Generates tools arguments i options output? clean json)
    {e : ConfigurationError}
    (hload : Configuration.load tools t environment i.config? i.verbosity = .error e) :
    run tools arguments environment t = (silent (.failure (.configuration e)), t) := by
  rw [run, hg.read]
  dsimp only
  rw [invoke, hload]

/-- **A run that generates and succeeds** has read its sources and delivered what they make. -/
theorem Generates.exists_deliver (hg : Generates tools arguments i options output? clean json)
    {answer : Answer} (hrun : run tools arguments environment t = (answer, t'))
    (hsuccess : answer.ending = .success) :
    ∃ c program, Configuration.load tools t environment i.config? i.verbosity = .ok c ∧
      compilation tools t c options (output?.getD c.outputDirectory) = .ok program ∧
      Delivery.deliver t (output?.getD c.outputDirectory) c.generator.extension clean
        (pass (settings c options) program).2 = (t', none) := by
  cases hload : Configuration.load tools t environment i.config? i.verbosity with
  | error e =>
    obtain ⟨rfl, -⟩ := Prod.mk.inj (hrun.symm.trans (hg.run_of_error hload))
    cases hsuccess
  | ok c =>
    rcases generate_cases ((hg.run_of_load hload).symm.trans hrun) with
      ⟨hne, -⟩ | ⟨e, he⟩ | ⟨program, hprogram, -, hdeliver⟩
    · exact absurd hsuccess hne
    · rw [he] at hsuccess
      cases hsuccess
    · exact ⟨c, program, rfl, hprogram, hdeliver⟩

/-- **A run that does not generate changes nothing.** -/
theorem tree_eq_of_not_generates
    (h : ∀ i options output? clean json, ¬Generates tools arguments i options output? clean json) :
    (run tools arguments environment t).2 = t := by
  rw [run]
  cases hread : tools.request arguments with
  | refusal message => rfl
  | display text => rfl
  | run i =>
    dsimp only
    rw [invoke]
    cases Configuration.load tools t environment i.config? i.verbosity with
    | error e => rfl
    | ok c =>
      dsimp only
      cases hprint : i.printConfig with
      | true => rfl
      | false =>
        rw [if_neg nofun]
        cases htask : i.task? with
        | none => rfl
        | some task =>
          cases task with
          | generate options output? clean json =>
            exact absurd ⟨hread, hprint, htask⟩ (h i options output? clean json)
          | scan options json => rfl
          | marker => rfl

/-- **A delivery that ends a run** is one of deliverable artifacts. -/
theorem delivered_of_generate (h : t.LinkFree) {verbosity : Nat} {config? : Option Path}
    (hload : Configuration.load tools t environment config? verbosity = .ok c) {directory : Path}
    (hprogram : compilation tools t c options directory = .ok program)
    (hdeliver : Delivery.deliver t directory c.generator.extension clean
      (pass (settings c options) program).2 = (t', none)) :
    IsDeliverable c.generator.extension (pass (settings c options) program).1
        (pass (settings c options) program).2 ∧
      ∃ made d, Delivery.Delivers t directory c.generator.extension clean
        (pass (settings c options) program).2 made d t' := by
  obtain ⟨paths, trees, marker, -, htrees, hmarker, rfl⟩ := compilation_eq_ok_iff.1 hprogram
  have hread : AllRead (trees ++ [marker]) := List.forall_mem_append.2
    ⟨allRead_of_readSources htrees, List.forall_mem_singleton.2 ⟨_, _, hmarker⟩⟩
  have hsettings : (settings c options).validate = .ok () := Configuration.validate_of_load hload
  have hdeliverable := isDeliverable_pass hsettings hread
  exact ⟨hdeliverable, Delivery.exists_delivers h
    (fun a ha ↦ (hdeliverable.generated a ha).isEntryName) hdeliver⟩

/-- **The program touches only what it owns**, in a tree without links. A run that is not asked to
generate changes nothing: not one that scans, prints the marker or shows its configuration, nor one
that is refused. Neither does a run that fails before the delivery: on its configuration, on a
pattern, on a path that is missing, on a file that cannot be read or on a source that cannot be
parsed. A run that generates and succeeds has made its output directory and missing parents of it,
and the rest of what it did is in files of this directory with the names of generated files: one for
each artifact in the report and one for the marker have the generated texts, and all others are gone
if it was asked to clean, and as they were if not. -/
theorem run_touches_own {answer : Answer} (h : t.LinkFree)
    (hrun : run tools arguments environment t = (answer, t')) :
    ((∀ i options output? clean json, ¬Generates tools arguments i options output? clean json) →
      t' = t) ∧
    (answer.ending ≠ .success → (∀ e, answer.ending ≠ .failure (.delivery e)) → t' = t) ∧
    ∀ i options output? clean json, Generates tools arguments i options output? clean json →
      answer.ending = .success →
        ∃ c program report artifacts d,
          Configuration.load tools t environment i.config? i.verbosity = .ok c ∧
          compilation tools t c options (output?.getD c.outputDirectory) = .ok program ∧
          pass (settings c options) program = (report, artifacts) ∧
          artifacts.map (·.name) =
            (Marker.artifact c.generator.extension).name :: report.artifacts ∧
          (artifacts.map (·.name)).Nodup ∧
          (∀ a ∈ artifacts, Delivery.isGeneratedName c.generator.extension a.name = true) ∧
          Delivery.Delivered t (output?.getD c.outputDirectory) c.generator.extension clean
            artifacts d t' := by
  have hidle (hnone : ∀ i options output? clean json,
      ¬Generates tools arguments i options output? clean json) : t' = t :=
    (congrArg Prod.snd hrun).symm.trans (tree_eq_of_not_generates hnone)
  refine ⟨hidle, fun hne hdelivery ↦ ?_, ?_⟩
  · by_cases hg : ∃ i options output? clean json,
        Generates tools arguments i options output? clean json
    · obtain ⟨i, options, output?, clean, json, hg⟩ := hg
      cases hload : Configuration.load tools t environment i.config? i.verbosity with
      | error e => exact (Prod.mk.inj (hrun.symm.trans (hg.run_of_error hload))).2
      | ok c =>
        rcases generate_cases ((hg.run_of_load hload).symm.trans hrun) with
          ⟨-, hsame⟩ | ⟨e, he⟩ | ⟨program, -, hsuccess, -⟩
        · exact hsame
        · exact absurd he (hdelivery e)
        · exact absurd hsuccess hne
    · simp only [not_exists] at hg
      exact hidle hg
  · intro i options output? clean json hg hsuccess
    obtain ⟨c, program, hload, hprogram, hdeliver⟩ := hg.exists_deliver hrun hsuccess
    obtain ⟨hdeliverable, made, d, hdelivers⟩ := delivered_of_generate h hload hprogram hdeliver
    exact ⟨c, program, _, _, d, hload, hprogram, rfl, hdeliverable.names_eq, hdeliverable.nodup,
      fun a ha ↦ (hdeliverable.generated a ha).isGeneratedName,
      hdelivers.delivered h hdeliverable.nodup⟩

/-! ### A run that cleans -/

/-- The source of one hierarchy. -/
def cleanSource : String :=
  "using VisitorGenerator; [VisitorNode] interface IShape; class Circle : IShape;"

/-- A project with one hierarchy, and an output directory with a generated file and another one. -/
def cleanSample : FileTree where
  entries := [
    (["src"], .directory),
    (["src", "Shapes.cs"], .file (some cleanSource)),
    (["out"], .directory),
    (["out", "Square.g.cs"], .file (some "class Square;")),
    (["out", "notes.txt"], .file none)]
  current := []

/-- What is asked for: to clean the output directory and to generate into it. -/
def cleanArguments : List String := ["generate", "--clean", "-o", "out"]

/-- The sources that are asked for. -/
def cleanOptions : SourceOptions := ⟨[⟨"."⟩], [], false, false⟩

/-- The names of the artifacts of the project. -/
def cleanNames : List String := ["VisitorNodeAttribute.g.cs", "Circle.g.cs", "IShapeVisitor.g.cs"]

theorem isPlain_cleanSample : cleanSample.IsPlain :=
  FileTree.isPlain_of_forall (FileTree.linkFree_of_all (by decide)) (by decide)
    (by decide)

/-- No artifact of the project was there before. -/
theorem free_cleanNames : ∀ name ∈ cleanNames,
    IsEntryName name ∧ FileTree.mayBeName name = true ∧ cleanSample.get? ["out", name] = none := by
  decide

theorem generates_cleanArguments :
    Generates .standard cleanArguments
      ⟨none, 0, false, some (.generate cleanOptions (some ⟨"out"⟩) true false)⟩
      cleanOptions (some ⟨"out"⟩) true false where
  read := by decide
  printConfig := rfl
  task := rfl

theorem leadsTo_cleanSample : cleanSample.LeadsTo ⟨"out"⟩ ["out"] := by
  have hname : IsEntryName "out" := by decide
  have hsegments : Path.segments ⟨"out"⟩ = ["out"] := by decide
  rw [FileTree.LeadsTo, hsegments]
  exact FileTree.resolveChild_eq isPlain_cleanSample.linkFree hname.ofSegment?

theorem resolve_cleanSample : cleanSample.resolve ⟨"."⟩ = .directory [] := by
  have hsegments : Path.segments ⟨"."⟩ = ["."] := by decide
  rw [FileTree.resolve_of_ne_empty (by decide), hsegments, FileTree.resolveFrom,
    if_pos (.inr rfl), FileTree.resolveFrom_nil]
  rfl

/-- Of the files of the project one is wanted. -/
theorem wanted_cleanSample : ∀ e ∈ cleanSample.entries,
    SourceSearch.isWanted [] ⟨"."⟩ (Path.descend ⟨"."⟩ e.1) = true → ¬["out"] <+: e.1 →
      e.1 = ["src", "Shapes.cs"] := by
  decide

theorem find_cleanSample :
    SourceSearch.find .standard cleanSample [⟨"."⟩] [] ⟨"out"⟩ = .ok [⟨"./src/Shapes.cs"⟩] := by
  have hplace : cleanSample.place? ⟨"out"⟩ = some ["out"] :=
    FileTree.place?_of_leadsTo leadsTo_cleanSample
  obtain ⟨group, hgroup⟩ : ∃ group,
      SourceSearch.sourcesOf .standard cleanSample [] (some ["out"]) ⟨"."⟩ = .ok group := by
    rw [SourceSearch.sourcesOf, resolve_cleanSample]
    exact ⟨_, rfl⟩
  have hmem (q : Path) : q ∈ group ↔ q ∈ [⟨"./src/Shapes.cs"⟩] := by
    rw [SourceSearch.mem_sourcesOf_directory Toolkit.listsEntries_standard isPlain_cleanSample
      resolve_cleanSample hgroup, List.mem_singleton]
    constructor
    · rintro ⟨names, text?, rfl, hfile, hwanted, houtside⟩
      have hnames := isPlain_cleanSample.ne_nil_of_file
        (FileTree.leadsTo_of_resolve resolve_cleanSample) hfile
      obtain rfl : names = ["src", "Shapes.cs"] := wanted_cleanSample _
        (FileTree.mem_entries_of_get? hfile hnames) hwanted (houtside _ rfl)
      rfl
    · rintro rfl
      exact ⟨["src", "Shapes.cs"], _, rfl, rfl, by decide, by decide⟩
  have hunique : ∀ p ∈ [(⟨"./src/Shapes.cs"⟩ : Path)], ∀ q ∈ [(⟨"./src/Shapes.cs"⟩ : Path)],
      p.sameSteps q = true → p = q := by
    simp
  have hkept := SourceSearch.dropRepeated_mergeSort_congr
    (SourceSearch.find?_eq_of_mem_iff hunique hmem)
  rw [SourceSearch.find, hplace]
  simp only [SourceSearch.readPatterns, List.mapM_nil, List.mapM_cons, hgroup, bind, Except.bind,
    pure, Except.pure, List.flatten_cons, List.flatten_nil, List.append_nil, hkept]
  simp [SourceSearch.dropRepeated]

theorem read?_cleanSample :
    cleanSample.read? ⟨"./src/Shapes.cs"⟩ = some cleanSource := by
  have hsegments : Path.segments ⟨"./src"⟩ = [".", "src"] := by decide
  have hsrc : IsEntryName "src" := by decide
  have hdirectory : cleanSample.LeadsTo ⟨"./src"⟩ ["src"] := by
    rw [FileTree.LeadsTo, hsegments, FileTree.resolveFrom, if_pos (.inr rfl)]
    exact FileTree.resolveChild_eq isPlain_cleanSample.linkFree hsrc.ofSegment?
  have hname : IsEntryName "Shapes.cs" := by decide
  have hresolve := FileTree.resolve_child isPlain_cleanSample.linkFree hdirectory hname
  rw [FileTree.resolveChild_eq isPlain_cleanSample.linkFree hname.ofSegment?] at hresolve
  have hpath : Path.child ⟨"./src"⟩ "Shapes.cs" = ⟨"./src/Shapes.cs"⟩ := by decide
  rw [hpath] at hresolve
  rw [FileTree.read?, hresolve]
  rfl

theorem load_cleanSample : Configuration.load .standard cleanSample [] none 0 = .ok {} :=
  eq_ok_of_toOption (by cbv)

/-- The project has three artifacts. -/
theorem exists_compilation_cleanSample :
    ∃ program, compilation .standard cleanSample {} cleanOptions ⟨"out"⟩ = .ok program ∧
      (pass (settings {} cleanOptions) program).2.map (·.name) = cleanNames := by
  obtain ⟨marker, hmarker, tree, htree, hnames⟩ :
      ∃ marker, SourceTree.parse (Marker.artifact "cs").name (Marker.artifact "cs").text =
          .ok marker ∧
        ∃ tree ∈ (SourceTree.parse "./src/Shapes.cs" cleanSource).toOption,
          (pass (settings {} cleanOptions) (.ofTrees ([tree] ++ [marker]))).2.map (·.name) =
            cleanNames :=
    SourceTree.exists_parse_lines _ Marker.lines [_, _, _, _, _, _, _, _, _, _, _, _] rfl
      (by decide +kernel)
  have hread : readSources cleanSample [⟨"./src/Shapes.cs"⟩] = .ok [tree] := by
    rw [readSources, read?_cleanSample]
    dsimp only
    rw [eq_ok_of_toOption htree]
    rfl
  exact ⟨_, compilation_eq_ok_iff.2 ⟨_, _, marker, find_cleanSample, hread, hmarker, rfl⟩,
    hnames⟩

/-- The run succeeds. -/
theorem exists_run_cleanSample :
    ∃ answer t', run .standard cleanArguments [] cleanSample = (answer, t') ∧
      answer.ending = .success := by
  obtain ⟨program, hprogram, hnames⟩ := exists_compilation_cleanSample
  have hmay : ∀ a ∈ (pass (settings {} cleanOptions) program).2,
      IsEntryName a.name ∧
        (Delivery.cleaned cleanSample ["out"] "cs" true).MayHoldFile ["out"] a.name := by
    intro a ha
    have hname := hnames ▸ List.mem_map_of_mem (f := Artifact.name) ha
    obtain ⟨hentry, hmay, hnone⟩ := free_cleanNames _ hname
    refine ⟨hentry, .inr ⟨?_, hmay⟩⟩
    rcases Delivery.get?_cleaned_eq_or ["out"] "cs" true isPlain_cleanSample.linkFree
      ["out", a.name] with heq | ⟨-, hgone⟩
    · exact heq.trans hnone
    · exact hgone
  have hdeliver := (Delivery.deliver_eq_iff isPlain_cleanSample.linkFree
    (FileTree.makeDirectories_of_leadsTo isPlain_cleanSample.linkFree leadsTo_cleanSample)
    leadsTo_cleanSample
    fun a ha ↦ (hmay a ha).1).2 ⟨fun _ ↦ by decide, fun a ha ↦ (hmay a ha).2, rfl⟩
  obtain ⟨output, houtput⟩ := exists_output .standard {} cleanOptions (some ⟨"out"⟩) true false
    program
  exact ⟨_, _, (generates_cleanArguments.run_of_load load_cleanSample).trans
    (houtput _ _ hprogram hdeliver), rfl⟩

/-- The file that was generated earlier is gone, the other one is as it was, and the type of the
project has a file of its own now. -/
theorem run_touches_own_cleanSample :
    ∃ answer t', run .standard cleanArguments [] cleanSample = (answer, t') ∧
      t'.get? ["out", "Square.g.cs"] = none ∧
      t'.get? ["out", "notes.txt"] = some (.file none) ∧
      ∃ text, t'.get? ["out", "Circle.g.cs"] = some (.file (some text)) := by
  obtain ⟨answer, t', hrun, hsuccess⟩ := exists_run_cleanSample
  obtain ⟨-, -, htouched⟩ := run_touches_own isPlain_cleanSample.linkFree hrun
  obtain ⟨c, program, report, artifacts, d, hload, hprogram, hpass, -, -, -, hdelivered⟩ :=
    htouched _ _ _ _ _ generates_cleanArguments hsuccess
  obtain ⟨program', hprogram', hnames⟩ := exists_compilation_cleanSample
  obtain rfl : {} = c := Except.ok.inj (load_cleanSample.symm.trans hload)
  obtain rfl : program' = program := Except.ok.inj (hprogram'.symm.trans hprogram)
  rw [hpass] at hnames
  obtain rfl : d = ["out"] :=
    hdelivered.eq_of_leadsTo isPlain_cleanSample.linkFree leadsTo_cleanSample
  have hother {name : String}
      (hname : name ∉ cleanNames) :
      ∀ a ∈ artifacts, ["out", name] ≠ ["out"] ++ [a.name] := by
    intro a ha heq
    have heq : name = a.name := by simpa using heq
    exact hname (hnames ▸ heq ▸ List.mem_map_of_mem ha)
  refine ⟨answer, t', hrun, ?_, ?_, ?_⟩
  · exact hdelivered.others _ ⟨"Square.g.cs", _, rfl, by decide, rfl⟩
      (hother (by simp [cleanNames]))
  · have hnotes : ¬Delivery.IsGenerated cleanSample ["out"] "cs" ["out", "notes.txt"] := by
      rintro ⟨name, _, hq, hname, -⟩
      obtain rfl : "notes.txt" = name := by simpa using hq
      have hnot : Delivery.isGeneratedName "cs" "notes.txt" = false := by decide
      rw [hnot] at hname
      cases hname
    rcases hdelivered.elsewhere _ hnotes (hother (by simp [cleanNames])) with heq | ⟨hnone, -⟩
    · exact heq.trans rfl
    · cases hnone
  · have hmem : "Circle.g.cs" ∈ artifacts.map (·.name) := by
      rw [hnames]
      simp [cleanNames]
    obtain ⟨a, ha, hname⟩ := List.mem_map.1 hmem
    exact ⟨a.text, hname ▸ hdelivered.written a ha⟩

end Command

end DoubleDispatch
