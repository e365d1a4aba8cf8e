import DoubleDispatch.FileTree.Change
import DoubleDispatch.Proofs.FileTree.Resolution
import Mathlib.Data.List.DropRight

/-!
# What changes a file tree

Each change is described through the view of the tree. A directory that is made is new, and one of
the paths that are tried leads to it (`Makes`); directories that are there already are not made
again (`makeDirectories_of_leadsTo`). A removal takes the chosen files of one directory and nothing
else (`get?_removeFiles`). A file is written where a file or nothing is (`MayHoldFile`).
-/

namespace DoubleDispatch.FileTree

variable {t t' : FileTree} {d : Place} {p : Path} {name : String}

/-! ### Entries -/

theorem get?_of_ne_nil {q : Place} (hq : q ≠ []) : t.get? q = t.entries.lookup q := if_neg hq

/-- The children of a directory are the names at which something stands. -/
theorem mem_children_iff : name ∈ t.children d ↔ t.get? (d ++ [name]) ≠ none := by
  have hne : d ++ [name] ≠ [] := by simp
  rw [get?_of_ne_nil hne, Ne, List.lookup_eq_none_iff, children, List.mem_filterMap]
  simp only [bne_iff_ne, ne_eq, not_forall, not_not, exists_prop]
  constructor
  · rintro ⟨⟨q, e⟩, hmem, hq⟩
    split at hq
    next hd =>
      obtain ⟨front, rfl⟩ := List.getLast?_eq_some_iff.1 hq
      rw [List.dropLast_concat] at hd
      exact ⟨_, hmem, by rw [hd]⟩
    next => cases hq
  · rintro ⟨⟨q, e⟩, hmem, rfl⟩
    exact ⟨_, hmem, by simp⟩

theorem file_ne_link (text? : Option String) (target : Path) :
    Entry.file text? ≠ .link target := nofun

theorem directory_ne_link (target : Path) : Entry.directory ≠ .link target := nofun

/-- Setting an entry that is no link brings in no link. -/
theorem LinkFree.set (h : t.LinkFree) {q : Place} (hq : q ≠ []) {e : Entry}
    (he : ∀ target, e ≠ .link target) : (t.set q e).LinkFree := by
  intro r target hr
  rw [get?_set t hq] at hr
  split at hr
  · exact he target (Option.some.inj hr)
  · exact h r target hr

/-! ### Making directories -/

/-- A path of empty parts leads nowhere else. -/
theorem resolveFrom_of_forall_empty {links : Nat} {parts : List String}
    (h : ∀ part ∈ parts, part = "") : t.resolveFrom links d parts = .directory d := by
  induction parts with
  | nil => exact resolveFrom_nil
  | cons part parts ih =>
    obtain ⟨rfl, hparts⟩ := List.forall_mem_cons.1 h
    rw [resolveFrom_empty, ih hparts]

/-- The parts of a path without those that slashes at its end make. -/
def trimmed (p : Path) : List String := p.segments.rdropWhile (· = "")

theorem ne_empty_of_getLast?_trimmed (h : (trimmed p).getLast? = some name) : name ≠ "" := by
  have hne : p.segments.rdropWhile (· = "") ≠ [] := List.getLast?_eq_some_iff.1 h |>.elim
    fun _ hfront hnil ↦ by simp [trimmed, hnil] at hfront
  have hlast := List.rdropWhile_last_not (· = "") p.segments hne
  rw [trimmed, List.getLast?_eq_some_getLast hne] at h
  rw [← Option.some.inj h]
  simpa using hlast

/-- Slashes at the end of a path do not matter to where it leads. -/
theorem leadsTo_iff_trimmed (h : t.LinkFree) :
    t.LeadsTo p d ↔ t.resolveFrom linkLimit (t.start p) (trimmed p) = .directory d := by
  have hsegments : trimmed p ++ p.segments.rtakeWhile (· = "") = p.segments :=
    List.rdropWhile_append_rtakeWhile
  have hslashes : ∀ part ∈ p.segments.rtakeWhile (· = ""), part = "" := fun part hpart ↦
    of_decide_eq_true (List.mem_rtakeWhile_imp (p := (· = "")) hpart)
  rw [LeadsTo, ← hsegments]
  rcases hrest : p.segments.rtakeWhile (· = "") with - | ⟨part, rest⟩
  · rw [List.append_nil]
  · rw [resolveFrom_append h _ (List.cons_ne_nil _ _)]
    cases t.resolveFrom linkLimit (t.start p) (trimmed p) with
    | directory d' => rw [goOn, resolveFrom_of_forall_empty (hrest ▸ hslashes)]
    | _ => constructor <;> rintro ⟨⟩

/-- **A directory that is made is new**: nothing stood under its name, and the path leads to it. -/
theorem makeDirectory_eq_ok (h : t.LinkFree) (hmake : t.makeDirectory p = .ok t') :
    ∃ d name, t.resolveFrom linkLimit (t.start p) (trimmed p).dropLast = .directory d ∧
      IsEntryName name ∧ t.get? (d ++ [name]) = none ∧
      t' = t.set (d ++ [name]) .directory ∧ t'.LeadsTo p (d ++ [name]) := by
  have htrimmed : (p.segments.reverse.dropWhile (· = "")).reverse = trimmed p := rfl
  simp only [makeDirectory, htrimmed] at hmake
  split at hmake
  · cases hmake
  next name hname =>
    split at hmake
    next d hd =>
      split at hmake
      · cases hmake
      next hdots =>
        split at hmake
        · cases hmake
        next hfree =>
          simp only [Bool.or_eq_true, not_or, Option.isSome_iff_ne_none, not_not] at hfree
          obtain ⟨front, hfront⟩ := List.getLast?_eq_some_iff.1 hname
          have hempty := ne_empty_of_getLast?_trimmed hname
          have hentry : IsEntryName name := by
            rw [not_or] at hdots
            refine ⟨p.noSlash_of_mem_segments ?_, hempty, hdots.1, hdots.2⟩
            exact (List.rdropWhile_prefix _ _).subset (List.mem_of_getLast? hname)
          have hq : d ++ [name] ≠ [] := by simp
          have ht' : t' = t.set (d ++ [name]) .directory := (Except.ok.inj hmake).symm
          have hlinks : t'.LinkFree := ht' ▸ h.set hq directory_ne_link
          refine ⟨d, name, hd, hentry, hfree.1, ht', (leadsTo_iff_trimmed hlinks).2 ?_⟩
          -- The way to the new directory is still there, and its name leads to it.
          rw [hfront, List.dropLast_concat] at hd
          have hstart : t'.start p = t.start p := by rw [ht']; rfl
          have hway : t'.resolveFrom linkLimit (t.start p) front = .directory d := by
            refine (resolveFrom_mono h fun q hdirectory ↦ ?_).1 _ hd
            rw [ht', get?_set t hq, hdirectory, ite_self]
          rw [hstart, hfront, resolveFrom_append hlinks _ (List.cons_ne_nil _ _), hway, goOn]
          have hchild := resolveChild_eq (d := d) hlinks hentry.ofSegment?
          rw [ht', get?_set t hq, if_pos rfl, ← ht'] at hchild
          exact hchild
    all_goals cases hmake

/-- Making a directory keeps a tree plain. -/
theorem IsPlain.makeDirectory (h : t.IsPlain) (hmake : t.makeDirectory p = .ok t') :
    t'.IsPlain := by
  obtain ⟨d, name, hd, hentry, hfree, rfl, -⟩ := makeDirectory_eq_ok h.linkFree hmake
  have hq : d ++ [name] ≠ [] := by simp
  have hmore : ∀ r, t.get? r = some .directory →
      (t.set (d ++ [name]) .directory).get? r = some .directory := by
    intro r hr
    rw [get?_set t hq, hr, ite_self]
  refine ⟨h.linkFree.set hq directory_ne_link, fun r other e hget ↦ ?_, fun r other e hget ↦ ?_,
    hmore _ h.current⟩
  · rw [get?_set t hq] at hget
    split at hget
    next heq =>
      obtain ⟨rfl, -⟩ := List.append_inj' heq rfl
      exact hmore _ (h.get?_of_resolveFrom hd)
    next => exact hmore _ (h.parent _ _ _ hget)
  · rw [get?_set t hq] at hget
    split at hget
    next heq =>
      obtain rfl : other = name := by simpa using (List.append_inj' heq rfl).2
      exact hentry
    next => exact h.isEntryName _ _ _ hget

/-- Directories are made one after the other, and to each of them one of the paths leads. -/
inductive Makes (paths : List Path) (t : FileTree) : FileTree → Prop
  | nothing : Makes paths t t
  | directory {t' t'' : FileTree} {p : Path} (before : Makes paths t t') (mem : p ∈ paths)
      (make : t'.makeDirectory p = .ok t'') : Makes paths t t''

namespace Makes

variable {paths paths' : List Path} {t'' : FileTree}

theorem subset (h : Makes paths t t') (hsub : paths ⊆ paths') : Makes paths' t t' := by
  induction h with
  | nothing => exact .nothing
  | directory _ mem make ih => exact .directory ih (hsub mem) make

/-- Directories made bring in no link. -/
theorem linkFree (h : Makes paths t t') (ht : t.LinkFree) : t'.LinkFree := by
  induction h with
  | nothing => exact ht
  | directory _ _ make ih =>
    obtain ⟨d, name, -, -, -, rfl, -⟩ := makeDirectory_eq_ok ih make
    exact ih.set (by simp) directory_ne_link

/-- Directories made keep a tree plain. -/
theorem isPlain (h : Makes paths t t') (ht : t.IsPlain) : t'.IsPlain := by
  induction h with
  | nothing => exact ht
  | directory _ _ make ih => exact ih.makeDirectory make

theorem current_eq (h : Makes paths t t') (ht : t.LinkFree) : t'.current = t.current := by
  induction h with
  | nothing => rfl
  | directory before _ make ih =>
    obtain ⟨d, name, -, -, -, rfl, -⟩ := makeDirectory_eq_ok (before.linkFree ht) make
    exact ih

/-- **Nothing but directories is new**, and one of the paths leads to each of these. -/
theorem get?_eq_or (h : Makes paths t t') (ht : t.LinkFree) (q : Place) :
    t'.get? q = t.get? q ∨
      t.get? q = none ∧ t'.get? q = some .directory ∧ ∃ p ∈ paths, t'.LeadsTo p q := by
  induction h with
  | nothing => exact .inl rfl
  | @directory t' t'' p before mem make ih =>
    have hlinks := before.linkFree ht
    obtain ⟨d, name, -, -, hfree, rfl, hleads⟩ := makeDirectory_eq_ok hlinks make
    have hq : d ++ [name] ≠ [] := by simp
    have hmore : ∀ r, t'.get? r = some .directory →
        (t'.set (d ++ [name]) .directory).get? r = some .directory := by
      intro r hr
      rw [get?_set t' hq, hr, ite_self]
    rw [get?_set t' hq]
    split
    next heq =>
      subst heq
      refine .inr ⟨?_, rfl, p, mem, hleads⟩
      rcases ih with ih | ⟨hnone, -⟩
      · rw [← ih, hfree]
      · exact hnone
    next =>
      refine ih.imp id fun ⟨hnone, hdirectory, p', hp', hleads'⟩ ↦ ?_
      exact ⟨hnone, hdirectory, p', hp', hleads'.mono hlinks rfl hmore⟩

/-- The files stay the same. -/
theorem get?_eq_file_iff (h : Makes paths t t') (ht : t.LinkFree) {q : Place}
    {text? : Option String} : t'.get? q = some (.file text?) ↔ t.get? q = some (.file text?) := by
  rcases h.get?_eq_or ht q with heq | ⟨hnone, hdirectory, -⟩
  · rw [heq]
  · rw [hnone, hdirectory]
    constructor <;> rintro ⟨⟩

/-- A directory stays one while others are made. -/
theorem mono (h : Makes paths t t') (ht : t.LinkFree) {q : Place}
    (hq : t.get? q = some .directory) : t'.get? q = some .directory := by
  rcases h.get?_eq_or ht q with heq | ⟨-, hdirectory, -⟩
  · rw [heq, hq]
  · exact hdirectory

end Makes

/-- What is tried for a directory and its parents makes directories; where it succeeds, the first
path leads to one. -/
theorem makes_makeLineage (h : t.LinkFree) (paths : List Path) :
    Makes paths t (t.makeLineage paths).1 ∧
      ((t.makeLineage paths).2 = true →
        ∃ p parents d, paths = p :: parents ∧ (t.makeLineage paths).1.LeadsTo p d) := by
  induction paths with
  | nil => exact ⟨.nothing, nofun⟩
  | cons p parents ih =>
    have hmade {t t' : FileTree} (h : t.LinkFree) (hmake : t.makeDirectory p = .ok t') :
        ∃ q parents' d, p :: parents = q :: parents' ∧ t'.LeadsTo q d := by
      obtain ⟨d, name, -, -, -, -, hleads⟩ := makeDirectory_eq_ok h hmake
      exact ⟨p, parents, _, rfl, hleads⟩
    have hthere {t : FileTree} (hdirectory : t.isDirectory p = true) :
        ∃ q parents' d, p :: parents = q :: parents' ∧ t.LeadsTo q d := by
      obtain ⟨d, hleads⟩ := leadsTo_of_isDirectory hdirectory
      exact ⟨p, parents, d, rfl, hleads⟩
    rw [makeLineage]
    split
    next hempty =>
      obtain ⟨text⟩ := p
      obtain rfl : text = "" := hempty
      exact ⟨.nothing, fun _ ↦ ⟨_, _, _, rfl, leadsTo_empty⟩⟩
    next =>
      cases hmake : t.makeDirectory p with
      | ok made =>
        exact ⟨.directory .nothing List.mem_cons_self hmake, fun _ ↦ hmade h hmake⟩
      | error fault =>
        cases fault with
        | refused => exact ⟨.nothing, hthere⟩
        | missing =>
          obtain ⟨hmakes, -⟩ := ih
          rcases hparents : t.makeLineage parents with ⟨t', _ | _⟩
          · rw [hparents] at hmakes
            exact ⟨hmakes.subset (List.subset_cons_self _ _), nofun⟩
          · rw [hparents] at hmakes
            have hmakes' := hmakes.subset (List.subset_cons_self p parents)
            dsimp only
            cases hmake' : t'.makeDirectory p with
            | ok made =>
              exact ⟨.directory hmakes' List.mem_cons_self hmake',
                fun _ ↦ hmade (hmakes.linkFree h) hmake'⟩
            | error => exact ⟨hmakes', hthere⟩

/-- **Making a directory with its parents.** -/
theorem makes_makeDirectories (h : t.LinkFree) (hmake : t.makeDirectories p = (t', true)) :
    Makes p.lineage t t' ∧ ∃ d, t'.LeadsTo p d := by
  obtain ⟨hmakes, hleads⟩ := makes_makeLineage h p.lineage
  rw [makeDirectories] at hmake
  rw [hmake] at hmakes hleads
  obtain ⟨q, parents, d, hlineage, hd⟩ := hleads rfl
  obtain ⟨rfl, -⟩ := List.cons.inj hlineage
  exact ⟨hmakes, d, hd⟩

/-- Where a directory stands already, none is made. -/
theorem makeDirectory_eq_refused (h : t.LinkFree) (hp : t.LeadsTo p d) :
    t.makeDirectory p = .error .refused := by
  have htrimmed : (p.segments.reverse.dropWhile (· = "")).reverse = trimmed p := rfl
  simp only [makeDirectory, htrimmed]
  rw [leadsTo_iff_trimmed h] at hp
  split
  · rfl
  next name hname =>
    have hempty := ne_empty_of_getLast?_trimmed hname
    obtain ⟨front, hfront⟩ := List.getLast?_eq_some_iff.1 hname
    rw [hfront] at hp
    obtain ⟨way, hway, hlast⟩ := exists_of_resolveFrom_append h (List.cons_ne_nil _ _) hp
    rw [hfront, List.dropLast_concat, hway]
    dsimp only
    split
    · rfl
    next hdots =>
      have hstep : PathStep.ofSegment? name = some (.name name) := by
        rw [not_or] at hdots
        simp [PathStep.ofSegment?, hempty, hdots.1, hdots.2]
      have hthere : (t.get? (way ++ [name])).isSome := by
        have hchild := (resolveChild_eq (d := way) h hstep).symm.trans hlast
        cases hget : t.get? (way ++ [name]) with
        | some => rfl
        | none =>
          rw [hget] at hchild
          cases hmay : mayBeName name <;> simp [hmay] at hchild
      rw [hthere, Bool.true_or, if_pos rfl]

/-- **A directory that is there is not made again.** -/
theorem makeDirectories_of_leadsTo (h : t.LinkFree) (hp : t.LeadsTo p d) :
    t.makeDirectories p = (t, true) := by
  rw [makeDirectories, Path.lineage, makeLineage]
  split
  · rfl
  next hne =>
    have hdirectory : t.isDirectory p = true := by
      rw [isDirectory, (leadsTo_iff hne).1 hp]
    rw [makeDirectory_eq_refused h hp]
    exact congrArg (Prod.mk t) hdirectory

/-! ### Removing files -/

/-- Erasing names of a directory takes away what stands at them, and nothing else. -/
theorem get?_foldl_erase (names : List String) (q : Place) :
    (names.foldl (fun t name ↦ t.erase (d ++ [name])) t).get? q =
      if ∃ name ∈ names, q = d ++ [name] then none else t.get? q := by
  induction names generalizing t with
  | nil => simp
  | cons name names ih =>
    rw [List.foldl_cons, ih, get?_erase t (by simp)]
    simp only [List.exists_mem_cons_iff]
    split <;> simp [*]

/-- A file in a directory has a name that is chosen. -/
def IsChosenFile (t : FileTree) (d : Place) (chosen : String → Bool) (q : Place) : Prop :=
  ∃ name text?, q = d ++ [name] ∧ chosen name = true ∧ t.get? q = some (.file text?)

section

variable {chosen : String → Bool}
  (hchosen : ∀ name, chosen name = true → PathStep.ofSegment? name = some (.name name))

include hchosen

/-- What is removed are the chosen files. -/
theorem mem_removed_iff (h : t.LinkFree) (q : Place) :
    (∃ name ∈ (t.children d).filter fun name ↦
        chosen name && (t.resolveChild d name matches .file ..), q = d ++ [name]) ↔
      t.IsChosenFile d chosen q := by
  constructor
  · rintro ⟨name, hname, rfl⟩
    simp only [List.mem_filter, Bool.and_eq_true] at hname
    obtain ⟨-, hname, hfile⟩ := hname
    rw [resolveChild_eq h (hchosen name hname)] at hfile
    cases hget : t.get? (d ++ [name]) with
    | none =>
      rw [hget] at hfile
      cases hmay : mayBeName name <;> simp [hmay] at hfile
    | some e =>
      cases e with
      | file text? => exact ⟨name, text?, rfl, hname, hget⟩
      | _ => rw [hget] at hfile; cases hfile
  · rintro ⟨name, text?, rfl, hname, hget⟩
    refine ⟨name, ?_, rfl⟩
    simp only [List.mem_filter, Bool.and_eq_true]
    refine ⟨mem_children_iff.2 (by rw [hget]; nofun), hname, ?_⟩
    rw [resolveChild_eq h (hchosen name hname), hget]

/-- **A removal takes the chosen files** of the directory. -/
theorem get?_removeFiles_of_isChosenFile (h : t.LinkFree) {q : Place}
    (hq : t.IsChosenFile d chosen q) : (t.removeFiles d chosen).get? q = none := by
  rw [removeFiles, get?_foldl_erase]
  exact if_pos ((mem_removed_iff hchosen h q).2 hq)

/-- **A removal takes nothing else.** -/
theorem get?_removeFiles_of_not (h : t.LinkFree) {q : Place} (hq : ¬t.IsChosenFile d chosen q) :
    (t.removeFiles d chosen).get? q = t.get? q := by
  rw [removeFiles, get?_foldl_erase]
  exact if_neg fun hmem ↦ hq ((mem_removed_iff hchosen h q).1 hmem)

end

/-! ### Writing files -/

/-- A file may be written under a name into a directory: one is there already, or nothing is, and
files can have the name. -/
def MayHoldFile (t : FileTree) (d : Place) (name : String) : Prop :=
  (∃ text?, t.get? (d ++ [name]) = some (.file text?)) ∨
    t.get? (d ++ [name]) = none ∧ mayBeName name = true

/-- **A file is written** where one may be, and the rest of the tree stays as it is. -/
theorem write?_child (h : t.LinkFree) (hp : t.LeadsTo p d) (hname : IsEntryName name)
    {text : String} :
    t.write? (p.child name) text = some t' ↔
      t.MayHoldFile d name ∧ t' = t.set (d ++ [name]) (.file (some text)) := by
  rw [write?, resolve_child h hp hname, resolveChild_eq h hname.ofSegment?, MayHoldFile]
  rw [eq_comm (a := t')]
  cases hget : t.get? (d ++ [name]) with
  | none => cases hmay : mayBeName name <;> simp
  | some e =>
    cases e with
    | link target => exact absurd hget (h _ target)
    | _ => simp

end DoubleDispatch.FileTree
