import DoubleDispatch.Proofs.Artifact.PlainNames
import DoubleDispatch.Proofs.Delivery.Repetition
import DoubleDispatch.Proofs.SourceSearch

/-!
# The search for sources after a delivery

A delivery can make the output directory inside a directory that is searched, so a later search
looks at a tree with more files and passes over more of them. What is taken is the same in the end:
nothing stood in an output directory that was missing (`Delivers.outside_iff`), and the files that
the delivery touched are not taken, be it for their place or for their names
(`Delivers.not_isTouched_of_isWanted`). So the sources are the same, whatever the order in which
they are listed, and every path to one leads to the same file as before (`Delivers.find_eq`).
-/

namespace DoubleDispatch.Delivery

open SourceSearch

namespace Delivers

variable {t t' made : FileTree} {d : Place} {directory : Path} {extension : String}
  {cleaning : Bool} {artifacts : List Artifact}
  (hd : Delivers t directory extension cleaning artifacts made d t') (h : t.IsPlain)

include hd h

/-! ### The output directory -/

/-- If something was in the output directory before the delivery, its path led there already. -/
theorem leadsTo_of_prefix (hdots : ".." ∉ directory.segments) {q : Place} (hq : d <+: q)
    (hget : t.get? q ≠ none) : t.LeadsTo directory d := by
  have hmade := (hd.makes.isPlain h).get?_of_resolveFrom hd.leadsTo
  have hthere : t.get? d ≠ none := by
    obtain ⟨rest, rfl⟩ := hq
    rcases eq_or_ne rest [] with rfl | hrest
    · rwa [List.append_nil] at hget
    · obtain ⟨e, he⟩ := Option.ne_none_iff_exists'.1 hget
      exact Option.ne_none_iff_exists'.2 ⟨_, h.get?_of_append hrest he⟩
  refine h.leadsTo_of_get? (hd.makes.linkFree h.linkFree) (hd.makes.current_eq h.linkFree) hdots
    hd.leadsTo ?_
  rcases hd.makes.get?_eq_or h.linkFree d with heq | ⟨hnone, -⟩
  · rw [← heq, hmade]
  · exact absurd hnone hthere

/-- No file can be in the way of the output directory. -/
theorem resolve_ne_file (place : Place) (text? : Option String) :
    t.resolve directory ≠ .file place text? := by
  intro hfile
  have hget := FileTree.get?_of_resolve h.linkFree hfile
  have hmade := FileTree.resolve_file_mono h.linkFree (hd.makes.current_eq h.linkFree)
    (fun _ ↦ hd.makes.mono h.linkFree) hfile ((hd.makes.get?_eq_file_iff h.linkFree).2 hget)
  have hne : directory.text ≠ "" := by
    intro hempty
    rw [FileTree.resolve, if_pos hempty] at hfile
    cases hfile
  rw [(FileTree.leadsTo_iff hne).1 hd.leadsTo] at hmade
  cases hmade

/-- The search knows the output directory before the delivery as it does afterwards, or nothing
is there. -/
theorem place?_eq_or (hdots : ".." ∉ directory.segments) :
    t.place? directory = t'.place? directory ∨
      t.place? directory = none ∧ ∀ q, d <+: q → t.get? q = none := by
  have hafter := FileTree.place?_of_leadsTo (hd.leadsTo_of_made h.linkFree hd.leadsTo)
  by_cases hleads : t.LeadsTo directory d
  · exact .inl ((FileTree.place?_of_leadsTo hleads).trans hafter.symm)
  · refine .inr ⟨?_, fun q hq ↦ ?_⟩
    · rw [FileTree.place?]
      cases hresolve : t.resolve directory with
      | file place text? => exact absurd hresolve (hd.resolve_ne_file h place text?)
      | directory d' =>
        have hleads' := FileTree.leadsTo_of_resolve hresolve
        have hmade := hleads'.mono h.linkFree (hd.makes.current_eq h.linkFree)
          fun _ ↦ hd.makes.mono h.linkFree
        exact absurd (hmade.unique hd.leadsTo ▸ hleads') hleads
      | _ => rfl
    · by_contra hget
      exact hleads (hd.leadsTo_of_prefix h hdots hq hget)

/-! ### What is taken -/

/-- **A file that was there before** is outside of the output directory afterwards if it was outside
of it before. -/
theorem outside_iff (hdots : ".." ∉ directory.segments) {q : Place} (hq : t.get? q ≠ none) :
    (∀ output ∈ t'.place? directory, ¬output <+: q) ↔
      ∀ output ∈ t.place? directory, ¬output <+: q := by
  rcases hd.place?_eq_or h hdots with heq | ⟨hnone, hvacant⟩
  · rw [heq]
  · rw [hnone, FileTree.place?_of_leadsTo (hd.leadsTo_of_made h.linkFree hd.leadsTo)]
    refine iff_of_true (fun output houtput hprefix ↦ ?_) nofun
    split at houtput
    · cases houtput
    · obtain rfl := Option.some.inj houtput
      exact hq (hvacant _ hprefix)

variable {patterns : List (String → Bool)} {root : Path} {q : Place} {names : List String}

/-- **A file that a delivery touched is not taken.** It is in the output directory; and if the path
of this is empty, which names no directory to the search, the file has the name of a generated one.
-/
theorem not_isTouched_of_isWanted (hgenerated : ∀ a ∈ artifacts, IsGeneratedFile extension a.name)
    (hnames : names ≠ []) (hwanted : isWanted patterns root (root.descend names) = true)
    (houtside : ∀ output ∈ t'.place? directory, ¬output <+: q ++ names) :
    ¬IsTouched t d extension cleaning artifacts (q ++ names) := by
  intro htouched
  have hafter := FileTree.place?_of_leadsTo (hd.leadsTo_of_made h.linkFree hd.leadsTo)
  by_cases hempty : directory.text = ""
  · obtain ⟨hcleaning, -⟩ | ⟨a, ha, heq⟩ := htouched
    · exact absurd hempty (hd.ne_empty hcleaning)
    · obtain ⟨front, name, rfl⟩ := (List.eq_nil_or_concat' names).resolve_left hnames
      obtain rfl : name = a.name := by
        rw [← List.append_assoc] at heq
        simpa using (List.append_inj' heq rfl).2
      rw [isWanted, Path.descend_concat, (hgenerated a ha).isSource_child] at hwanted
      cases hwanted
  · obtain ⟨name, heq⟩ := htouched.exists_name
    exact houtside d (by rw [hafter, if_neg hempty]; rfl) ⟨[name], heq.symm⟩

/-! ### Sources -/

variable {tools : Toolkit} (htools : tools.ListsEntries)
  (hnodup : (artifacts.map (·.name)).Nodup) (hdots : ".." ∉ directory.segments)
  (hgenerated : ∀ a ∈ artifacts, IsGeneratedFile extension a.name)

include htools hnodup hdots hgenerated

/-- **A directory holds the same sources**, and none of these was touched. -/
theorem mem_sourcesOf_iff {p : Path} (hp : t.resolve p = .directory q) {group group' : List Path}
    (hgroup : sourcesOf tools t patterns (t.place? directory) p = .ok group)
    (hgroup' : sourcesOf tools t' patterns (t'.place? directory) p = .ok group') (r : Path) :
    r ∈ group' ↔ r ∈ group := by
  have hdelivered := hd.delivered h.linkFree hnodup
  have h' := hd.isPlain h fun a ha ↦ (hgenerated a ha).isEntryName
  have hp' := FileTree.resolve_directory_mono h.linkFree hdelivered.current
    (fun _ ↦ hdelivered.get?_of_directory) hp
  rw [mem_sourcesOf_directory htools h hp hgroup, mem_sourcesOf_directory htools h' hp' hgroup']
  refine exists_congr fun names ↦ exists_congr fun text? ↦ and_congr_right ?_
  rintro rfl
  constructor
  · rintro ⟨hfile, hwanted, houtside⟩
    have hnames := h'.ne_nil_of_file (FileTree.leadsTo_of_resolve hp') hfile
    have huntouched := hd.not_isTouched_of_isWanted h hgenerated hnames hwanted houtside
    have hbefore : t.get? (q ++ names) = some (.file text?) := by
      rcases hdelivered.get?_of_not_isTouched huntouched with heq | ⟨-, hdirectory⟩
      · rw [← heq, hfile]
      · rw [hdirectory] at hfile
        cases hfile
    have hthere : t.get? (q ++ names) ≠ none := Option.ne_none_iff_exists'.2 ⟨_, hbefore⟩
    exact ⟨hbefore, hwanted, (hd.outside_iff h hdots hthere).1 houtside⟩
  · rintro ⟨hfile, hwanted, houtside⟩
    have hnames := h.ne_nil_of_file (FileTree.leadsTo_of_resolve hp) hfile
    have hthere : t.get? (q ++ names) ≠ none := Option.ne_none_iff_exists'.2 ⟨_, hfile⟩
    have houtside' := (hd.outside_iff h hdots hthere).2 houtside
    have huntouched := hd.not_isTouched_of_isWanted h hgenerated hnames hwanted houtside'
    exact ⟨hdelivered.get?_eq_some huntouched hfile, hwanted, houtside'⟩

/-- **A path names the same sources**, and each of them leads to a file that is not touched. -/
theorem exists_sourcesOf {p : Path} {group : List Path}
    (hp : sourcesOf tools t patterns (t.place? directory) p = .ok group)
    (hlisted : ∀ place text?, t.resolve p = .file place text? →
      ¬IsTouched t d extension cleaning artifacts place) :
    (∃ group', sourcesOf tools t' patterns (t'.place? directory) p = .ok group' ∧
      ∀ q : Path, group'.find? q.sameSteps = group.find? q.sameSteps) ∧
      ∀ q ∈ group, ∃ place text?, t.resolve q = .file place text? ∧
        ¬IsTouched t d extension cleaning artifacts place := by
  have hdelivered := hd.delivered h.linkFree hnodup
  cases hresolve : t.resolve p with
  | file place text? =>
    have huntouched := hlisted place text? hresolve
    rw [sourcesOf, hresolve] at hp
    rw [sourcesOf, hdelivered.resolve_eq_file h.linkFree hresolve huntouched]
    refine ⟨⟨group, hp, fun _ ↦ rfl⟩, fun q hq ↦ ⟨place, text?, ?_, huntouched⟩⟩
    obtain rfl := Except.ok.inj hp
    split at hq
    · rwa [List.mem_singleton.1 hq]
    · cases hq
  | directory q =>
    have hleads := FileTree.leadsTo_of_resolve hresolve
    have hmember {r : Path} := mem_sourcesOf_directory htools h hresolve hp (q := r)
    have hresolve' := FileTree.resolve_directory_mono h.linkFree hdelivered.current
      (fun _ ↦ hdelivered.get?_of_directory) hresolve
    obtain ⟨group', hp'⟩ : ∃ group',
        sourcesOf tools t' patterns (t'.place? directory) p = .ok group' := by
      rw [sourcesOf, hresolve']
      exact ⟨_, rfl⟩
    refine ⟨⟨group', hp', find?_eq_of_mem_iff (fun r hr s hs ↦ ?_)
      (hd.mem_sourcesOf_iff h htools hnodup hdots hgenerated hresolve hp hp')⟩, fun r hr ↦ ?_⟩
    · obtain ⟨names, text?, rfl, hfile, -⟩ := hmember.1 hr
      obtain ⟨names', text?', rfl, hfile', -⟩ := hmember.1 hs
      exact eq_of_sameSteps_descend h (Option.ne_none_iff_exists'.2 ⟨_, hfile⟩)
        (Option.ne_none_iff_exists'.2 ⟨_, hfile'⟩)
    · obtain ⟨names, text?, rfl, hfile, hwanted, houtside⟩ := hmember.1 hr
      have hthere : t.get? (q ++ names) ≠ none := Option.ne_none_iff_exists'.2 ⟨_, hfile⟩
      exact ⟨q ++ names, text?, h.resolve_descend hleads hfile,
        hd.not_isTouched_of_isWanted h hgenerated (h.ne_nil_of_file hleads hfile) hwanted
          ((hd.outside_iff h hdots hthere).2 houtside)⟩
  | _ =>
    rw [sourcesOf, hresolve] at hp
    cases hp

/-- **The search finds the same sources after a delivery**, and they lead to the files to which they
led before; the delivery did not touch these. -/
theorem find_eq {paths : List Path} {exclude : List String} {found : List Path}
    (hfound : find tools t paths exclude directory = .ok found)
    (hlisted : ∀ p ∈ paths, ∀ place text?, t.resolve p = .file place text? →
      ¬IsTouched t d extension cleaning artifacts place) :
    find tools t' paths exclude directory = .ok found ∧
      ∀ q ∈ found, ∃ place text?, t.resolve q = .file place text? ∧
        t'.resolve q = .file place text? ∧ ¬IsTouched t d extension cleaning artifacts place := by
  refine ⟨find_congr hfound fun p hp patterns group hgroup ↦
    (hd.exists_sourcesOf h htools hnodup hdots hgenerated hgroup (hlisted p hp)).1, fun q hq ↦ ?_⟩
  obtain ⟨patterns, -, p, hp, group, hgroup, hq⟩ := mem_find hfound hq
  obtain ⟨place, text?, hresolve, huntouched⟩ :=
    (hd.exists_sourcesOf h htools hnodup hdots hgenerated hgroup (hlisted p hp)).2 q hq
  exact ⟨place, text?, hresolve,
    (hd.delivered h.linkFree hnodup).resolve_eq_file h.linkFree hresolve huntouched, huntouched⟩

end Delivers

end DoubleDispatch.Delivery
