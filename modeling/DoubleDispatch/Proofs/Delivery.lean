import DoubleDispatch.Delivery
import DoubleDispatch.Proofs.FileTree.Change

/-!
# What a delivery does to the files

A delivery that succeeds has three parts (`Delivers`): missing directories are made, generated files
are removed from the directory if it is to be cleaned, and every artifact is written. Each part is
described by `Proofs.FileTree.Change`, and from the three follows what is at every place afterwards
(`Delivered`): the artifacts are there, other generated files are untouched or gone, and elsewhere
nothing but directories on the way is new.
-/

namespace DoubleDispatch

namespace Delivery

variable {t t' : FileTree} {d : Place} {directory : Path} {extension : String} {cleaning : Bool}
  {artifacts : List Artifact}

/-! ### Cleaning -/

theorem ofSegment?_of_isGeneratedName {name : String} (h : isGeneratedName extension name = true) :
    PathStep.ofSegment? name = some (.name name) := by
  have hg : 'g' ∈ name.toList := by
    obtain ⟨front, hfront⟩ := List.isSuffixOf_iff_suffix.1 h
    rw [← hfront, suffix]
    simp
  have hempty : name ≠ "" := by rintro rfl; cases hg
  have hcurrent : name ≠ "." := by rintro rfl; revert hg; decide
  have hparent : name ≠ ".." := by rintro rfl; revert hg; decide
  simp [PathStep.ofSegment?, hempty, hcurrent, hparent]

/-- A file in a directory is a generated one, by its name. -/
abbrev IsGenerated (t : FileTree) (d : Place) (extension : String) (q : Place) : Prop :=
  t.IsChosenFile d (isGeneratedName extension) q

/-- The tree without the generated files of a directory, if it is to be cleaned. -/
def cleaned (t : FileTree) (d : Place) (extension : String) (cleaning : Bool) : FileTree :=
  if cleaning then t.removeFiles d (isGeneratedName extension) else t

/-- A generated file of the directory is gone after cleaning, and stays without it. -/
theorem get?_cleaned_of_isGenerated (cleaning : Bool) (h : t.LinkFree) {q : Place}
    (hq : IsGenerated t d extension q) :
    (cleaned t d extension cleaning).get? q = if cleaning then none else t.get? q := by
  rw [cleaned]
  split
  · exact FileTree.get?_removeFiles_of_isChosenFile (fun _ ↦ ofSegment?_of_isGeneratedName) h hq
  · rfl

/-- Cleaning leaves alone what is not a generated file of the directory. -/
theorem get?_cleaned_of_not (h : t.LinkFree) {q : Place} (hq : ¬IsGenerated t d extension q) :
    (cleaned t d extension cleaning).get? q = t.get? q := by
  rw [cleaned]
  split
  · exact FileTree.get?_removeFiles_of_not (fun _ ↦ ofSegment?_of_isGeneratedName) h hq
  · rfl

section

variable (d : Place) (extension : String) (cleaning : Bool)

/-- Cleaning puts nothing anywhere. -/
theorem get?_cleaned_eq_or (h : t.LinkFree) (q : Place) :
    (cleaned t d extension cleaning).get? q = t.get? q ∨
      IsGenerated t d extension q ∧ (cleaned t d extension cleaning).get? q = none := by
  by_cases hq : IsGenerated t d extension q
  · rw [get?_cleaned_of_isGenerated cleaning h hq]
    cases cleaning with
    | true => exact .inr ⟨hq, rfl⟩
    | false => exact .inl rfl
  · exact .inl (get?_cleaned_of_not h hq)

/-- Cleaning keeps directories. -/
theorem get?_cleaned_of_directory (h : t.LinkFree) {q : Place} (hq : t.get? q = some .directory) :
    (cleaned t d extension cleaning).get? q = some .directory := by
  rcases get?_cleaned_eq_or d extension cleaning h q with heq | ⟨⟨_, _, -, -, hfile⟩, -⟩
  · rw [heq, hq]
  · rw [hq] at hfile
    cases hfile

end

theorem linkFree_cleaned (h : t.LinkFree) : (cleaned t d extension cleaning).LinkFree := by
  intro q target hq
  rcases get?_cleaned_eq_or d extension cleaning h q with heq | ⟨-, hnone⟩
  · exact h q target (heq ▸ hq)
  · rw [hnone] at hq
    cases hq

theorem current_cleaned : (cleaned t d extension cleaning).current = t.current := by
  have herase (names : List String) (t : FileTree) :
      (names.foldl (fun t name ↦ t.erase (d ++ [name])) t).current = t.current := by
    induction names generalizing t with
    | nil => rfl
    | cons name names ih => exact ih _
  rw [cleaned]
  split
  · exact herase _ t
  · rfl

/-! ### Writing -/

/-- The tree with a file for each artifact in a directory. -/
def put (d : Place) (artifacts : List Artifact) (t : FileTree) : FileTree :=
  artifacts.foldl (fun t a ↦ t.set (d ++ [a.name]) (.file (some a.text))) t

theorem put_cons (a : Artifact) :
    put d (a :: artifacts) t = put d artifacts (t.set (d ++ [a.name]) (.file (some a.text))) := rfl

theorem current_put : (put d artifacts t).current = t.current := by
  induction artifacts generalizing t with
  | nil => rfl
  | cons a artifacts ih => rw [put_cons, ih]; rfl

/-- Files put into a directory change nothing at other places. -/
theorem get?_put_of_forall_ne {q : Place} (hq : ∀ a ∈ artifacts, q ≠ d ++ [a.name]) :
    (put d artifacts t).get? q = t.get? q := by
  induction artifacts generalizing t with
  | nil => rfl
  | cons a artifacts ih =>
    obtain ⟨hne, hartifacts⟩ := List.forall_mem_cons.1 hq
    rw [put_cons, ih hartifacts, FileTree.get?_set t (by simp), if_neg hne]

/-- **Every artifact is there**, if their names differ. -/
theorem get?_put_of_mem (hnodup : (artifacts.map (·.name)).Nodup) {a : Artifact}
    (ha : a ∈ artifacts) :
    (put d artifacts t).get? (d ++ [a.name]) = some (.file (some a.text)) := by
  induction artifacts generalizing t with
  | nil => cases ha
  | cons first artifacts ih =>
    obtain ⟨hfirst, hnodup⟩ := List.nodup_cons.1 hnodup
    rw [put_cons]
    rcases List.mem_cons.1 ha with rfl | ha
    · have hlater : ∀ b ∈ artifacts, d ++ [a.name] ≠ d ++ [b.name] := by
        intro b hb heq
        have hname : a.name = b.name := by simpa using heq
        exact hfirst (List.mem_map.2 ⟨b, hb, hname.symm⟩)
      rw [get?_put_of_forall_ne hlater, FileTree.get?_set t (by simp), if_pos rfl]
    · exact ih hnodup ha

theorem linkFree_put (h : t.LinkFree) : (put d artifacts t).LinkFree := by
  induction artifacts generalizing t with
  | nil => exact h
  | cons a artifacts ih => exact ih (h.set (by simp) (FileTree.file_ne_link _))

/-- A file written into a directory does not change where the directory is. -/
theorem leadsTo_set_file (h : t.LinkFree) (hp : t.LeadsTo directory d) {name : String}
    (hmay : t.MayHoldFile d name) (text : String) :
    (t.set (d ++ [name]) (.file (some text))).LeadsTo directory d := by
  refine hp.mono h rfl fun q hq ↦ ?_
  rw [FileTree.get?_set t (by simp)]
  split
  next heq =>
    -- No directory is where a file may be.
    subst heq
    rcases hmay with ⟨text?, hfile⟩ | ⟨hnone, -⟩
    · rw [hq] at hfile; cases hfile
    · rw [hq] at hnone; cases hnone
  next => exact hq

/-- **All artifacts are written** if each of them may be, and only then. -/
theorem writeAll_eq_iff (h : t.LinkFree) (hp : t.LeadsTo directory d)
    (hnames : ∀ a ∈ artifacts, IsEntryName a.name) :
    writeAll t directory artifacts = (t', none) ↔
      (∀ a ∈ artifacts, t.MayHoldFile d a.name) ∧ t' = put d artifacts t := by
  induction artifacts generalizing t with
  | nil => simp [writeAll, put, eq_comm]
  | cons a artifacts ih =>
    obtain ⟨hname, hnames⟩ := List.forall_mem_cons.1 hnames
    have hwrite {made : FileTree} :
        t.write? (directory.child a.name) a.text = some made ↔
          t.MayHoldFile d a.name ∧ made = t.set (d ++ [a.name]) (.file (some a.text)) :=
      FileTree.write?_child h hp hname
    have hlinks : (t.set (d ++ [a.name]) (.file (some a.text))).LinkFree :=
      h.set (by simp) (FileTree.file_ne_link _)
    rw [writeAll, List.forall_mem_cons, put_cons]
    by_cases hmay : t.MayHoldFile d a.name
    · rw [hwrite.2 ⟨hmay, rfl⟩]
      dsimp only
      rw [ih hlinks (leadsTo_set_file h hp hmay a.text) hnames]
      -- What was written first is no hindrance to what is written later.
      have hlater : ∀ b : Artifact,
          (t.set (d ++ [a.name]) (.file (some a.text))).MayHoldFile d b.name ↔
            t.MayHoldFile d b.name := by
        intro b
        by_cases hsame : b.name = a.name
        · rw [hsame]
          exact iff_of_true (.inl ⟨_, by rw [FileTree.get?_set t (by simp), if_pos rfl]⟩) hmay
        · have hne : d ++ [b.name] ≠ d ++ [a.name] := by simpa using hsame
          rw [FileTree.MayHoldFile, FileTree.get?_set t (by simp), if_neg hne,
            FileTree.MayHoldFile]
      simp only [hlater, hmay, true_and]
    · have hnone : t.write? (directory.child a.name) a.text = none :=
        Option.eq_none_iff_forall_ne_some.2 fun made hmade ↦ hmay (hwrite.1 hmade).1
      rw [hnone]
      simp [hmay]

/-! ### Deliveries -/

/-- The parts of a delivery: missing directories are made, the directory is cleaned if that is
wanted, and the artifacts are written. -/
structure Delivers (t : FileTree) (directory : Path) (extension : String) (cleaning : Bool)
    (artifacts : List Artifact) (made : FileTree) (d : Place) (t' : FileTree) : Prop where
  makes : FileTree.Makes directory.lineage t made
  leadsTo : made.LeadsTo directory d
  /-- The empty path cannot be listed. -/
  ne_empty : cleaning = true → directory.text ≠ ""
  mayHoldFile : ∀ a ∈ artifacts, (cleaned made d extension cleaning).MayHoldFile d a.name
  eq_put : t' = put d artifacts (cleaned made d extension cleaning)

/-- What follows the making of directories, where it succeeded. -/
theorem deliver_eq_iff {made : FileTree} (h : made.LinkFree)
    (hmake : t.makeDirectories directory = (made, true)) (hp : made.LeadsTo directory d)
    (hnames : ∀ a ∈ artifacts, IsEntryName a.name) :
    deliver t directory extension cleaning artifacts = (t', none) ↔
      (cleaning = true → directory.text ≠ "") ∧
        (∀ a ∈ artifacts, (cleaned made d extension cleaning).MayHoldFile d a.name) ∧
        t' = put d artifacts (cleaned made d extension cleaning) := by
  have hleads : (cleaned made d extension cleaning).LeadsTo directory d :=
    hp.mono h current_cleaned fun _ hq ↦ get?_cleaned_of_directory d extension cleaning h hq
  have hwrite : writeAll (cleaned made d extension cleaning) directory artifacts = (t', none) ↔ _ :=
    writeAll_eq_iff (linkFree_cleaned h) hleads hnames
  rw [deliver, hmake]
  cases cleaning with
  | false => simpa [cleaned] using hwrite
  | true =>
    by_cases hempty : directory.text = ""
    · have hmissing : made.resolve directory = .missing := if_pos hempty
      simp [clean, hmissing, hempty]
    · have hdirectory := (FileTree.leadsTo_iff hempty).1 hp
      simpa [clean, hdirectory, hempty, cleaned] using hwrite

/-- **A delivery that succeeds** has its three parts. -/
theorem exists_delivers (h : t.LinkFree) (hnames : ∀ a ∈ artifacts, IsEntryName a.name)
    (hdeliver : deliver t directory extension cleaning artifacts = (t', none)) :
    ∃ made d, Delivers t directory extension cleaning artifacts made d t' := by
  rcases hmake : t.makeDirectories directory with ⟨made, _ | _⟩
  · rw [deliver, hmake] at hdeliver
    cases hdeliver
  · obtain ⟨hmakes, d, hp⟩ := FileTree.makes_makeDirectories h hmake
    obtain ⟨hne, hmay, heq⟩ := (deliver_eq_iff (hmakes.linkFree h) hmake hp hnames).1 hdeliver
    exact ⟨made, d, hmakes, hp, hne, hmay, heq⟩

/-- What a delivery leaves at every place. -/
structure Delivered (t : FileTree) (directory : Path) (extension : String) (cleaning : Bool)
    (artifacts : List Artifact) (d : Place) (t' : FileTree) : Prop where
  current : t'.current = t.current
  leadsTo : t'.LeadsTo directory d
  /-- Every artifact is there with its text. -/
  written : ∀ a ∈ artifacts, t'.get? (d ++ [a.name]) = some (.file (some a.text))
  /-- Nothing was there before, or a file. -/
  overwritten : ∀ a ∈ artifacts, t.get? (d ++ [a.name]) = none ∨
    ∃ text?, t.get? (d ++ [a.name]) = some (.file text?)
  /-- Other generated files are gone after cleaning, and untouched without it. -/
  others : ∀ q, IsGenerated t d extension q → (∀ a ∈ artifacts, q ≠ d ++ [a.name]) →
    t'.get? q = if cleaning then none else t.get? q
  /-- Everything else is untouched, but for new directories to which the path or the path of one of
  its parents leads. -/
  elsewhere : ∀ q, ¬IsGenerated t d extension q → (∀ a ∈ artifacts, q ≠ d ++ [a.name]) →
    t'.get? q = t.get? q ∨
      t.get? q = none ∧ t'.get? q = some .directory ∧ ∃ p ∈ directory.lineage, t'.LeadsTo p q

namespace Delivered

/-- Directories stay what they are. -/
theorem get?_of_directory (hd : Delivered t directory extension cleaning artifacts d t')
    {q : Place} (hq : t.get? q = some .directory) : t'.get? q = some .directory := by
  have hgenerated : ¬IsGenerated t d extension q := by
    rintro ⟨_, _, -, -, hfile⟩
    rw [hq] at hfile
    cases hfile
  have hartifact : ∀ a ∈ artifacts, q ≠ d ++ [a.name] := by
    rintro a ha rfl
    rcases hd.overwritten a ha with hnone | ⟨_, hfile⟩
    · rw [hq] at hnone; cases hnone
    · rw [hq] at hfile; cases hfile
  rcases hd.elsewhere q hgenerated hartifact with heq | ⟨hnone, -⟩
  · rw [heq, hq]
  · rw [hq] at hnone; cases hnone

/-- The path led to the same directory before, if it led to one. -/
theorem eq_of_leadsTo (hd : Delivered t directory extension cleaning artifacts d t')
    (h : t.LinkFree) {d' : Place} (hp : t.LeadsTo directory d') : d = d' :=
  hd.leadsTo.unique (hp.mono h hd.current fun _ hq ↦ hd.get?_of_directory hq)

end Delivered

namespace Delivers

variable {made : FileTree}

/-- Making directories makes no generated files. -/
theorem isGenerated_iff (hd : Delivers t directory extension cleaning artifacts made d t')
    (h : t.LinkFree) (q : Place) :
    IsGenerated made d extension q ↔ IsGenerated t d extension q := by
  simp only [FileTree.IsChosenFile, hd.makes.get?_eq_file_iff h]

/-- A delivery brings in no link. -/
theorem linkFree (hd : Delivers t directory extension cleaning artifacts made d t')
    (h : t.LinkFree) : t'.LinkFree := by
  rw [hd.eq_put]
  exact linkFree_put (linkFree_cleaned (hd.makes.linkFree h))

theorem current_eq (hd : Delivers t directory extension cleaning artifacts made d t')
    (h : t.LinkFree) : t'.current = t.current := by
  rw [hd.eq_put, current_put, current_cleaned, hd.makes.current_eq h]

/-- Directories stay what they are once they are made. -/
theorem get?_of_directory (hd : Delivers t directory extension cleaning artifacts made d t')
    (h : t.LinkFree) {q : Place} (hq : made.get? q = some .directory) :
    t'.get? q = some .directory := by
  have hcleaned := get?_cleaned_of_directory d extension cleaning (hd.makes.linkFree h) hq
  rw [hd.eq_put, get?_put_of_forall_ne, hcleaned]
  rintro a ha rfl
  rcases hd.mayHoldFile a ha with ⟨text?, hfile⟩ | ⟨hnone, -⟩
  · rw [hcleaned] at hfile; cases hfile
  · rw [hcleaned] at hnone; cases hnone

/-- A path that leads to a directory once all are made still does. -/
theorem leadsTo_of_made (hd : Delivers t directory extension cleaning artifacts made d t')
    (h : t.LinkFree) {p : Path} {q : Place} (hp : made.LeadsTo p q) : t'.LeadsTo p q := by
  have hcurrent : t'.current = made.current := by
    rw [hd.current_eq h, hd.makes.current_eq h]
  exact hp.mono (hd.makes.linkFree h) hcurrent fun _ hq ↦ hd.get?_of_directory h hq

/-- **What a delivery leaves behind.** -/
theorem delivered (hd : Delivers t directory extension cleaning artifacts made d t')
    (h : t.LinkFree) (hnodup : (artifacts.map (·.name)).Nodup) :
    Delivered t directory extension cleaning artifacts d t' where
  current := hd.current_eq h
  leadsTo := hd.leadsTo_of_made h hd.leadsTo
  written a ha := by rw [hd.eq_put, get?_put_of_mem hnodup ha]
  overwritten a ha := by
    have hmade : made.get? (d ++ [a.name]) = none ∨
        ∃ text?, made.get? (d ++ [a.name]) = some (.file text?) := by
      rcases get?_cleaned_eq_or d extension cleaning (hd.makes.linkFree h) (d ++ [a.name]) with
        heq | ⟨⟨_, text?, -, -, hfile⟩, -⟩
      · rcases hd.mayHoldFile a ha with ⟨text?, hfile⟩ | ⟨hnone, -⟩
        · exact .inr ⟨text?, heq ▸ hfile⟩
        · exact .inl (heq ▸ hnone)
      · exact .inr ⟨text?, hfile⟩
    rcases hd.makes.get?_eq_or h (d ++ [a.name]) with heq | ⟨hnone, -⟩
    · rwa [heq] at hmade
    · exact .inl hnone
  others q hq hne := by
    have hmade := (hd.isGenerated_iff h q).2 hq
    rw [hd.eq_put, get?_put_of_forall_ne hne,
      get?_cleaned_of_isGenerated cleaning (hd.makes.linkFree h) hmade]
    obtain ⟨_, text?, -, -, hfile⟩ := hq
    rw [hfile, (hd.makes.get?_eq_file_iff h).2 hfile]
  elsewhere q hq hne := by
    rw [← hd.isGenerated_iff h q] at hq
    have hafter : t'.get? q = made.get? q := by
      rw [hd.eq_put, get?_put_of_forall_ne hne, get?_cleaned_of_not (hd.makes.linkFree h) hq]
    rw [hafter]
    refine (hd.makes.get?_eq_or h q).imp id fun ⟨hnone, hdirectory, p, hp, hleads⟩ ↦ ?_
    exact ⟨hnone, hdirectory, p, hp, hd.leadsTo_of_made h hleads⟩

end Delivers

end Delivery

end DoubleDispatch
