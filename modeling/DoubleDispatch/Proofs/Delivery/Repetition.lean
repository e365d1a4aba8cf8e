import DoubleDispatch.Proofs.Delivery

/-!
# Repeating a delivery

What a delivery removes or writes are files with certain names in one directory (`IsTouched`), and
everything else that was there stays. So what was a tree of files and directories is one again
(`Delivers.isPlain`), and when the same artifacts are delivered again, what is there already is all
that has to be there (`Delivers.again`).
-/

namespace DoubleDispatch.Delivery

variable {t t' made : FileTree} {d : Place} {directory : Path} {extension : String}
  {cleaning : Bool} {artifacts : List Artifact}

/-- A delivery removes or writes a file at the place. -/
def IsTouched (t : FileTree) (d : Place) (extension : String) (cleaning : Bool)
    (artifacts : List Artifact) (q : Place) : Prop :=
  (cleaning = true ∧ IsGenerated t d extension q) ∨ ∃ a ∈ artifacts, q = d ++ [a.name]

theorem IsTouched.exists_name {q : Place} (h : IsTouched t d extension cleaning artifacts q) :
    ∃ name, q = d ++ [name] := by
  rcases h with ⟨-, name, -, rfl, -⟩ | ⟨a, -, rfl⟩
  · exact ⟨name, rfl⟩
  · exact ⟨a.name, rfl⟩

namespace Delivered

variable (hd : Delivered t directory extension cleaning artifacts d t') {q : Place}

include hd

/-- Elsewhere nothing but directories is new, and nothing else is different. -/
theorem get?_of_not_isTouched (hq : ¬IsTouched t d extension cleaning artifacts q) :
    t'.get? q = t.get? q ∨ t.get? q = none ∧ t'.get? q = some .directory := by
  rw [IsTouched, not_or, not_and, not_exists] at hq
  have hother : ∀ a ∈ artifacts, q ≠ d ++ [a.name] := fun a ha heq ↦ hq.2 a ⟨ha, heq⟩
  by_cases hgenerated : IsGenerated t d extension q
  · have hsame := hd.others q hgenerated hother
    rw [if_neg fun hcleaning ↦ hq.1 hcleaning hgenerated] at hsame
    exact .inl hsame
  · exact (hd.elsewhere q hgenerated hother).imp id fun h ↦ ⟨h.1, h.2.1⟩

/-- What was there and is not touched stays. -/
theorem get?_eq_some (hq : ¬IsTouched t d extension cleaning artifacts q) {e : Entry}
    (hget : t.get? q = some e) : t'.get? q = some e := by
  rcases hd.get?_of_not_isTouched hq with heq | ⟨hnone, -⟩
  · rw [heq, hget]
  · rw [hnone] at hget
    cases hget

/-- A path to a file that is not touched leads there afterwards. -/
theorem resolve_eq_file (h : t.LinkFree) {p : Path} {text? : Option String}
    (hp : t.resolve p = .file q text?) (hq : ¬IsTouched t d extension cleaning artifacts q) :
    t'.resolve p = .file q text? :=
  FileTree.resolve_file_mono h hd.current (fun _ ↦ hd.get?_of_directory) hp
    (hd.get?_eq_some hq (FileTree.get?_of_resolve h hp))

/-- After cleaning, only the artifacts are generated files of the directory. -/
theorem exists_artifact_of_isGenerated (hcleaning : cleaning = true)
    (hq : IsGenerated t' d extension q) : ∃ a ∈ artifacts, q = d ++ [a.name] := by
  by_contra hartifact
  have hother : ∀ a ∈ artifacts, q ≠ d ++ [a.name] := fun a ha heq ↦ hartifact ⟨a, ha, heq⟩
  obtain ⟨name, text?, rfl, hname, hfile⟩ := hq
  by_cases hgenerated : IsGenerated t d extension (d ++ [name])
  · rw [hd.others _ hgenerated hother, if_pos hcleaning] at hfile
    cases hfile
  · rcases hd.elsewhere _ hgenerated hother with heq | ⟨-, hdirectory, -⟩
    · exact hgenerated ⟨name, text?, rfl, hname, heq ▸ hfile⟩
    · rw [hdirectory] at hfile
      cases hfile

end Delivered

namespace Delivers

variable (hd : Delivers t directory extension cleaning artifacts made d t')

include hd

/-- **A delivery leaves a tree of files and directories** if it found one. -/
theorem isPlain (h : t.IsPlain) (hnames : ∀ a ∈ artifacts, IsEntryName a.name) : t'.IsPlain := by
  have hmade := hd.makes.isPlain h
  have hdirectory {q : Place} (hq : made.get? q = some .directory) : t'.get? q = some .directory :=
    hd.get?_of_directory h.linkFree hq
  -- An entry is one of the artifacts, or was there when the directories had been made.
  have hcases {q : Place} {e : Entry} (hq : t'.get? q = some e) :
      (∃ a ∈ artifacts, q = d ++ [a.name]) ∨ made.get? q = some e := by
    refine or_iff_not_imp_left.2 fun hartifact ↦ ?_
    rw [hd.eq_put, get?_put_of_forall_ne fun a ha heq ↦ hartifact ⟨a, ha, heq⟩] at hq
    rcases get?_cleaned_eq_or d extension cleaning hmade.linkFree q with heq | ⟨-, hnone⟩
    · rw [← heq, hq]
    · rw [hnone] at hq
      cases hq
  refine ⟨hd.linkFree h.linkFree, fun q name e hget ↦ ?_, fun q name e hget ↦ ?_, ?_⟩
  · refine hdirectory ?_
    rcases hcases hget with ⟨a, -, heq⟩ | hmember
    · obtain ⟨rfl, -⟩ := List.append_inj' heq rfl
      exact hmade.get?_of_resolveFrom hd.leadsTo
    · exact hmade.parent _ _ _ hmember
  · rcases hcases hget with ⟨a, ha, heq⟩ | hmember
    · obtain rfl : name = a.name := by simpa using (List.append_inj' heq rfl).2
      exact hnames a ha
    · exact hmade.isEntryName _ _ _ hmember
  · rw [hd.current_eq h.linkFree, ← hd.makes.current_eq h.linkFree]
    exact hdirectory hmade.current

/-! ### The same artifacts again -/

/-- **The same delivery again** succeeds and changes nothing. -/
theorem again (hnodup : (artifacts.map (·.name)).Nodup) (h : t.LinkFree)
    (hnames : ∀ a ∈ artifacts, IsEntryName a.name)
    (hgenerated : ∀ a ∈ artifacts, isGeneratedName extension a.name = true) :
    ∃ t'', deliver t' directory extension cleaning artifacts = (t'', none) ∧
      t''.current = t'.current ∧ ∀ q, t''.get? q = t'.get? q := by
  have hdelivered := hd.delivered h hnodup
  have hlinks := hd.linkFree h
  have hmade := hd.makes.linkFree h
  refine ⟨put d artifacts (cleaned t' d extension cleaning), ?_, ?_, fun q ↦ ?_⟩
  · refine (deliver_eq_iff hlinks (FileTree.makeDirectories_of_leadsTo hlinks hdelivered.leadsTo)
      hdelivered.leadsTo hnames).2 ⟨hd.ne_empty, fun a ha ↦ ?_, rfl⟩
    have hthere : IsGenerated t' d extension (d ++ [a.name]) :=
      ⟨a.name, _, rfl, hgenerated a ha, hdelivered.written a ha⟩
    have hagain := get?_cleaned_of_isGenerated cleaning hlinks hthere
    cases cleaning with
    | false => exact .inl ⟨_, hagain.trans (hdelivered.written a ha)⟩
    | true =>
      -- The name was free when the first delivery wrote the file.
      refine .inr ⟨hagain, ?_⟩
      rcases hd.mayHoldFile a ha with ⟨text?, hfile⟩ | ⟨-, hname⟩
      · rcases get?_cleaned_eq_or d extension true hmade (d ++ [a.name]) with heq | ⟨-, hnone⟩
        · have hfound : IsGenerated made d extension (d ++ [a.name]) :=
            ⟨a.name, text?, rfl, hgenerated a ha, heq ▸ hfile⟩
          rw [get?_cleaned_of_isGenerated true hmade hfound] at hfile
          cases hfile
        · rw [hnone] at hfile
          cases hfile
      · exact hname
  · rw [current_put, current_cleaned]
  · by_cases hartifact : ∃ a ∈ artifacts, q = d ++ [a.name]
    · obtain ⟨a, ha, rfl⟩ := hartifact
      rw [get?_put_of_mem hnodup ha, hdelivered.written a ha]
    · have hother : ∀ a ∈ artifacts, q ≠ d ++ [a.name] := fun a ha heq ↦ hartifact ⟨a, ha, heq⟩
      rw [get?_put_of_forall_ne hother]
      by_cases hq : IsGenerated t' d extension q
      · rw [get?_cleaned_of_isGenerated cleaning hlinks hq,
          if_neg fun hcleaning ↦ hartifact (hdelivered.exists_artifact_of_isGenerated hcleaning hq)]
      · exact get?_cleaned_of_not hlinks hq

end Delivers

end DoubleDispatch.Delivery
