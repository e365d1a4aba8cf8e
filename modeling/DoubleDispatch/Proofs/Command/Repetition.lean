import DoubleDispatch.Proofs.Command.Effects
import DoubleDispatch.Proofs.Delivery.Search

/-!
# Running a command again

A run reads its configuration and its sources, and what it reads decides what it prints and delivers
(`Reads`). After a run that succeeded both are as they were, as long as the files that are named on
the command line are not in the output directory (`Reads.again`). So the same command delivers the
same artifacts again, which are there already: nothing changes any more (`run_again`).
-/

namespace DoubleDispatch

variable {tools : Toolkit} {t t' : FileTree} {environment : List (String × String)}

/-! ### Configurations -/

namespace Configuration

variable {file : Option Path} {verbosity : Nat} {c : Configuration}

/-- A configuration is loaded from a file, if one is named. -/
theorem exists_resolve_of_load (h : load tools t environment file verbosity = .ok c)
    {path : Path}
    (hpath : path ∈ file) : ∃ place text?, t.resolve path = .file place text? := by
  obtain ⟨layer, hlayer, -⟩ := exists_of_bind_eq_ok h
  obtain rfl := Option.mem_def.1 hpath
  rw [overlaidFile, FileTree.isFile] at hlayer
  cases hresolve : t.resolve path with
  | file place text? => exact ⟨place, text?, rfl⟩
  | _ =>
    rw [hresolve] at hlayer
    cases hlayer

/-- A configuration depends on where the path of its file leads, and on no other files. -/
theorem load_congr (h : ∀ path ∈ file, t'.resolve path = t.resolve path) :
    load tools t' environment file verbosity = load tools t environment file verbosity := by
  have hlayer (layer : tools.Layer) :
      overlaidFile tools t' layer file = overlaidFile tools t layer file := by
    cases file with
    | none => rfl
    | some path =>
      have hfile : t'.isFile path = t.isFile path := by
        rw [FileTree.isFile, FileTree.isFile, h path rfl]
      rw [overlaidFile, overlaidFile, hfile, FileTree.read?_congr (h path rfl)]
  rw [load, hlayer, load]

end Configuration

namespace Command

variable {i : Invocation} {options : SourceOptions} {output? : Option Path} {c : Configuration}
  {sources : List Path} {program : Compilation}

theorem readSources_congr {paths : List Path} (h : ∀ p ∈ paths, t'.read? p = t.read? p) :
    readSources t' paths = readSources t paths := by
  induction paths with
  | nil => rfl
  | cons path paths ih =>
    obtain ⟨hpath, hpaths⟩ := List.forall_mem_cons.1 h
    rw [readSources, readSources, hpath, ih hpaths]

/-! ### What a run reads -/

/-- What a run reads that generates: the configuration, the sources that are found and the program
that they make. -/
structure Reads (tools : Toolkit) (t : FileTree) (environment : List (String × String))
    (i : Invocation) (options : SourceOptions) (output? : Option Path) (c : Configuration)
    (sources : List Path) (program : Compilation) : Prop where
  load : Configuration.load tools t environment i.config? i.verbosity = .ok c
  find : SourceSearch.find tools t options.paths (c.exclude ++ options.exclude)
    (output?.getD c.outputDirectory) = .ok sources
  compilation : compilation tools t c options (output?.getD c.outputDirectory) = .ok program

/-- One path leads to something in the directory to which another one leads. -/
def LiesIn (t : FileTree) (p directory : Path) : Prop :=
  ∃ place d, t.place? p = some place ∧ t.LeadsTo directory d ∧ d <+: place

/-- The files that a command names are outside of the output directory: its configuration, and the
files among its paths, which are sources that it lists one by one. The path of the output directory
does not go back to a parent. -/
structure KeepsApart (t : FileTree) (config? : Option Path) (paths : List Path) (output : Path) :
    Prop where
  noParent : ".." ∉ output.segments
  config : ∀ path ∈ config?, ¬LiesIn t path output
  /-- A file that is listed could otherwise be removed or written over, whatever its name. -/
  listed : ∀ path ∈ paths, t.isFile path = true → ¬LiesIn t path output

/-- A file that was touched and was there already was in the output directory. -/
theorem not_isTouched_of_not_liesIn {made : FileTree} {directory : Path} {extension : String}
    {clean : Bool} {artifacts : List Artifact} {d : Place}
    (hd : Delivery.Delivers t directory extension clean artifacts made d t') (h : t.IsPlain)
    (hdots : ".." ∉ directory.segments) {p : Path} (hp : ¬LiesIn t p directory) {place : Place}
    {text? : Option String} (hresolve : t.resolve p = .file place text?) :
    ¬Delivery.IsTouched t d extension clean artifacts place := by
  intro htouched
  obtain ⟨name, heq⟩ := htouched.exists_name
  have hinside : d <+: place := ⟨[name], heq.symm⟩
  have hthere : t.get? place ≠ none :=
    Option.ne_none_iff_exists'.2 ⟨_, FileTree.get?_of_resolve h.linkFree hresolve⟩
  refine hp ⟨place, d, ?_, hd.leadsTo_of_prefix h hdots hinside hthere, hinside⟩
  rw [FileTree.place?, hresolve]

/-- **After a delivery the same is read**, from files that the delivery did not touch. -/
theorem Reads.again (htools : tools.ListsEntries)
    (hr : Reads tools t environment i options output? c sources program)
    {clean : Bool} {made : FileTree} {d : Place} {artifacts : List Artifact}
    (hd : Delivery.Delivers t (output?.getD c.outputDirectory) c.generator.extension clean artifacts
      made d t')
    (h : t.IsPlain) (hnodup : (artifacts.map (·.name)).Nodup)
    (hgenerated : ∀ a ∈ artifacts, IsGeneratedFile c.generator.extension a.name)
    (hapart : KeepsApart t i.config? options.paths (output?.getD c.outputDirectory)) :
    Reads tools t' environment i options output? c sources program ∧
      ∀ p ∈ sources, ∃ place, t'.place? p = some place ∧
        ¬Delivery.IsTouched t d c.generator.extension clean artifacts place := by
  obtain ⟨hfind, hfound⟩ := hd.find_eq h htools hnodup hapart.noParent hgenerated hr.find
    fun p hp place text? hresolve ↦ by
      refine not_isTouched_of_not_liesIn hd h hapart.noParent (hapart.listed p hp ?_) hresolve
      rw [FileTree.isFile, hresolve]
  have hread : ∀ p ∈ sources, t'.read? p = t.read? p := by
    intro p hp
    obtain ⟨place, text?, hbefore, hafter, -⟩ := hfound p hp
    exact FileTree.read?_congr (hafter.trans hbefore.symm)
  refine ⟨⟨?_, hfind, ?_⟩, fun p hp ↦ ?_⟩
  · rw [← hr.load]
    refine Configuration.load_congr fun path hpath ↦ ?_
    obtain ⟨place, text?, hresolve⟩ := Configuration.exists_resolve_of_load hr.load hpath
    rw [hresolve]
    exact (hd.delivered h.linkFree hnodup).resolve_eq_file h.linkFree hresolve
      (not_isTouched_of_not_liesIn hd h hapart.noParent (hapart.config path hpath) hresolve)
  · obtain ⟨paths, trees, marker, hpaths, htrees, hmarker, hprogram⟩ :=
      compilation_eq_ok_iff.1 hr.compilation
    obtain rfl := Except.ok.inj (hr.find.symm.trans hpaths)
    exact compilation_eq_ok_iff.2
      ⟨_, trees, marker, hfind, (readSources_congr hread).trans htrees, hmarker, hprogram⟩
  · obtain ⟨place, text?, -, hafter, huntouched⟩ := hfound p hp
    exact ⟨place, by rw [FileTree.place?, hafter], huntouched⟩

/-! ### Runs -/

variable {arguments : List String} {clean json : Bool} {answer : Answer}

/-- **A run that generates and succeeds can be repeated**: what it wrote is not read as a source,
and writing it again changes nothing. -/
theorem Generates.again (htools : tools.ListsEntries)
    (hg : Generates tools arguments i options output? clean json) (h : t.IsPlain)
    (hrun : run tools arguments environment t = (answer, t')) (hsuccess : answer.ending = .success)
    (hapart : ∀ c, Configuration.load tools t environment i.config? i.verbosity = .ok c →
      KeepsApart t i.config? options.paths (output?.getD c.outputDirectory)) :
    (∃ t'', run tools arguments environment t' = (answer, t'') ∧ t''.current = t'.current ∧
      ∀ q, t''.get? q = t'.get? q) ∧
    ∃ c sources program d, Reads tools t environment i options output? c sources program ∧
      Reads tools t' environment i options output? c sources program ∧
      t'.LeadsTo (output?.getD c.outputDirectory) d ∧
      ∀ a ∈ (pass (settings c options) program).2,
        t'.get? (d ++ [a.name]) = some (.file (some a.text)) ∧
        ∀ p ∈ sources, t'.place? p ≠ some (d ++ [a.name]) := by
  obtain ⟨c, program, hload, hprogram, hdeliver⟩ := hg.exists_deliver hrun hsuccess
  obtain ⟨sources, -, -, hfind, -⟩ := compilation_eq_ok_iff.1 hprogram
  have hreads : Reads tools t environment i options output? c sources program :=
    ⟨hload, hfind, hprogram⟩
  obtain ⟨hdeliverable, made, d, hdelivers⟩ :=
    delivered_of_generate h.linkFree hload hprogram hdeliver
  have hdelivered := hdelivers.delivered h.linkFree hdeliverable.nodup
  obtain ⟨hagain, huntouched⟩ := hreads.again htools hdelivers h hdeliverable.nodup
    hdeliverable.generated (hapart c hload)
  refine ⟨?_, c, sources, program, d, hreads, hagain, hdelivered.leadsTo, fun a ha ↦
    ⟨hdelivered.written a ha, fun p hp hplace ↦ ?_⟩⟩
  · obtain ⟨t'', hdeliver', hcurrent, hsame⟩ := hdelivers.again hdeliverable.nodup h.linkFree
      (fun a ha ↦ (hdeliverable.generated a ha).isEntryName)
      fun a ha ↦ (hdeliverable.generated a ha).isGeneratedName
    obtain ⟨output, houtput⟩ := exists_output tools c options output? clean json program
    have hfirst := (hg.run_of_load hload).trans (houtput t t' hprogram hdeliver)
    obtain ⟨rfl, -⟩ := Prod.mk.inj (hrun.symm.trans hfirst)
    exact ⟨t'', (hg.run_of_load hagain.load).trans (houtput t' t'' hagain.compilation hdeliver'),
      hcurrent, hsame⟩
  · obtain ⟨place, hfound, hnot⟩ := huntouched p hp
    obtain rfl := Option.some.inj (hfound.symm.trans hplace)
    exact hnot (.inr ⟨a, ha, rfl⟩)

/-- **Running a command twice is running it once**, whatever the tools do, as long as they list what
is below a directory. In a tree of files and directories, if a run succeeds, the same run on what it
leaves behind has the same answer and leaves every file and every directory as it is. A run that
generates has to name its configuration and its single sources outside of the output directory, and
this without going back to a parent. Then the first run and the second read the same sources, and
none of these is a file that was written. -/
theorem run_again (htools : tools.ListsEntries) (h : t.IsPlain)
    (hrun : run tools arguments environment t = (answer, t'))
    (hsuccess : answer.ending = .success)
    (hapart : ∀ i options output? clean json,
      Generates tools arguments i options output? clean json →
        ∀ c, Configuration.load tools t environment i.config? i.verbosity = .ok c →
          KeepsApart t i.config? options.paths (output?.getD c.outputDirectory)) :
    (∃ t'', run tools arguments environment t' = (answer, t'') ∧ t''.current = t'.current ∧
      ∀ q, t''.get? q = t'.get? q) ∧
    ∀ i options output? clean json, Generates tools arguments i options output? clean json →
      ∃ c sources program d, Reads tools t environment i options output? c sources program ∧
        Reads tools t' environment i options output? c sources program ∧
        t'.LeadsTo (output?.getD c.outputDirectory) d ∧
        ∀ a ∈ (pass (settings c options) program).2,
          t'.get? (d ++ [a.name]) = some (.file (some a.text)) ∧
          ∀ p ∈ sources, t'.place? p ≠ some (d ++ [a.name]) := by
  have hgenerates {i options output? clean json}
      (hg : Generates tools arguments i options output? clean json) :=
    hg.again htools h hrun hsuccess (hapart i options output? clean json hg)
  refine ⟨?_, fun i options output? clean json hg ↦ (hgenerates hg).2⟩
  by_cases hg : ∃ i options output? clean json,
      Generates tools arguments i options output? clean json
  · obtain ⟨i, options, output?, clean, json, hg⟩ := hg
    exact (hgenerates hg).1
  · simp only [not_exists] at hg
    obtain rfl : t' = t := (congrArg Prod.snd hrun).symm.trans (tree_eq_of_not_generates hg)
    exact ⟨t', hrun, rfl, fun _ ↦ rfl⟩

/-- The run that cleans and generates finds everything as it has to be when it is repeated. -/
theorem run_again_cleanSample :
    ∃ answer t', run .standard cleanArguments [] cleanSample = (answer, t') ∧
      ∃ t'', run .standard cleanArguments [] t' = (answer, t'') ∧ ∀ q, t''.get? q = t'.get? q := by
  obtain ⟨answer, t', hrun, hsuccess⟩ := exists_run_cleanSample
  have hdots : ".." ∉ Path.segments ⟨"out"⟩ := by decide
  have hroot : cleanSample.isFile ⟨"."⟩ = false := by rw [FileTree.isFile, resolve_cleanSample]
  obtain ⟨⟨t'', hagain, -, hsame⟩, -⟩ := run_again Toolkit.listsEntries_standard isPlain_cleanSample
    hrun hsuccess
    fun i options output? clean json hg c hload ↦ by
      have hrequest := hg.read.symm.trans generates_cleanArguments.read
      obtain rfl := Request.run.inj hrequest
      cases hg.task
      refine ⟨hdots, by simp, fun path hpath hfile ↦ ?_⟩
      obtain rfl := List.mem_singleton.1 hpath
      rw [hroot] at hfile
      cases hfile
  exact ⟨answer, t', hrun, t'', hagain, hsame⟩

end Command

end DoubleDispatch
