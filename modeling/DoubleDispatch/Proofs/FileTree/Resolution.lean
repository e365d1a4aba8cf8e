import DoubleDispatch.FileTree.Resolution
import DoubleDispatch.Proofs.Path

/-!
# Following paths where there are no links

Without links a path is followed one part after the other, so where a path leads is decided by where
its front leads and by what is behind the front (`resolveFrom_append`). Hence the path of an entry
leads to what stands at its name in the directory (`resolve_child`), and a path that leads to a
directory still does when there are more directories (`LeadsTo.mono`).
-/

namespace DoubleDispatch

namespace FileTree

/-- What stands at a place is one of the entries, but for the root. -/
theorem mem_entries_of_get? {t : FileTree} {q : Place} {e : Entry} (h : t.get? q = some e)
    (hq : q ≠ []) : (q, e) ∈ t.entries := by
  rw [get?, if_neg hq] at h
  obtain ⟨front, back, hentries, -⟩ := List.lookup_eq_some_iff.1 h
  rw [hentries]
  exact List.mem_append_right _ List.mem_cons_self

/-- There is no symbolic link. -/
def LinkFree (t : FileTree) : Prop := ∀ p target, t.get? p ≠ some (.link target)

theorem linkFree_of_all {t : FileTree} (h : t.entries.all fun e ↦ !(e.2 matches .link _)) :
    t.LinkFree := by
  intro p target hp
  have hne : p ≠ [] := by
    rintro rfl
    cases hp
  cases List.all_eq_true.1 h _ (mem_entries_of_get? hp hne)

/-- A tree of files and directories: there are no links, every entry stands in a directory under the
name of an entry, and the working directory is there. -/
structure IsPlain (t : FileTree) : Prop where
  linkFree : t.LinkFree
  parent : ∀ d name e, t.get? (d ++ [name]) = some e → t.get? d = some .directory
  isEntryName : ∀ d name e, t.get? (d ++ [name]) = some e → IsEntryName name
  current : t.get? t.current = some .directory

theorem isPlain_of_forall {t : FileTree} (hlinks : t.LinkFree)
    (hentries : ∀ e ∈ t.entries, t.get? e.1.dropLast = some .directory ∧
      ∀ name ∈ e.1.getLast?, IsEntryName name)
    (hcurrent : t.get? t.current = some .directory) : t.IsPlain := by
  have hentry {d : Place} {name : String} {e : Entry} (hget : t.get? (d ++ [name]) = some e) :
      t.get? d = some .directory ∧ IsEntryName name := by
    obtain ⟨hparent, hname⟩ := hentries _ (mem_entries_of_get? hget (by simp))
    rw [List.dropLast_concat] at hparent
    exact ⟨hparent, hname name List.getLast?_concat⟩
  exact ⟨hlinks, fun _ _ _ hget ↦ (hentry hget).1, fun _ _ _ hget ↦ (hentry hget).2, hcurrent⟩

/-- The path leads to the directory at a place. The empty path leads to the working directory. -/
def LeadsTo (t : FileTree) (p : Path) (d : Place) : Prop :=
  t.resolveFrom linkLimit (t.start p) p.segments = .directory d

/-- Where a path leads that goes on behind a part that leads somewhere. -/
def goOn (t : FileTree) (links : Nat) (later : List String) : Resolution → Resolution
  | .directory d => t.resolveFrom links d later
  | .file .. | .blocked => .blocked
  | .vacant _ | .missing => .missing

variable {t t' : FileTree} {links : Nat} {d : Place} {p : Path} {name : String}

/-! ### Parts -/

@[simp] theorem resolveFrom_nil : t.resolveFrom links d [] = .directory d := by rw [resolveFrom]

theorem resolveFrom_empty (parts : List String) :
    t.resolveFrom links d ("" :: parts) = t.resolveFrom links d parts := by
  rw [resolveFrom, if_pos (.inl rfl)]

/-- Where a single part leads that is a name. -/
theorem resolveChild_eq (h : t.LinkFree) (hname : PathStep.ofSegment? name = some (.name name)) :
    t.resolveChild d name =
      match t.get? (d ++ [name]) with
      | some (.file text?) => .file (d ++ [name]) text?
      | some _ => .directory (d ++ [name])
      | none => if mayBeName name then .vacant (d ++ [name]) else .blocked := by
  have hempty : ¬(name = "" ∨ name = ".") := by
    intro hskip
    rw [PathStep.ofSegment?, if_pos hskip] at hname
    cases hname
  have hparent : name ≠ ".." := by
    rintro rfl
    cases hname
  rw [resolveChild, resolveFrom, if_neg hempty, if_neg hparent]
  cases hget : t.get? (d ++ [name]) with
  | none => cases mayBeName name <;> rfl
  | some e =>
    cases e with
    | file => rfl
    | directory => exact resolveFrom_nil
    | link target => exact absurd hget (h _ target)

/-- A part leads from a directory to a directory. -/
inductive Enters (t : FileTree) (d : Place) (part : String) : Place → Prop
  | same (skip : part = "" ∨ part = ".") : Enters t d part d
  | parent (dots : part = "..") : Enters t d part d.dropLast
  | child (name : PathStep.ofSegment? part = some (.name part))
      (there : t.get? (d ++ [part]) = some .directory) : Enters t d part (d ++ [part])

/-- **The way to a directory** goes through directories only. -/
theorem resolveFrom_cons_eq_directory (h : t.LinkFree) {part : String} {parts : List String}
    {d' : Place} : t.resolveFrom links d (part :: parts) = .directory d' ↔
      ∃ way, t.Enters d part way ∧ t.resolveFrom links way parts = .directory d' := by
  rw [resolveFrom]
  constructor
  · intro hresolve
    split at hresolve
    next hskip => exact ⟨d, .same hskip, hresolve⟩
    next hskip =>
      split at hresolve
      next hdots => exact ⟨_, .parent hdots, hresolve⟩
      next hdots =>
        cases hget : t.get? (d ++ [part]) with
        | none =>
          rw [hget] at hresolve
          revert hresolve
          cases mayBeName part <;> cases parts.isEmpty <;> rintro ⟨⟩
        | some e =>
          rw [hget] at hresolve
          cases e with
          | directory =>
            have hname : PathStep.ofSegment? part = some (.name part) := by
              rw [PathStep.ofSegment?, if_neg hskip, if_neg hdots]
            exact ⟨_, .child hname hget, hresolve⟩
          | file =>
            revert hresolve
            cases parts.isEmpty <;> rintro ⟨⟩
          | link target => exact absurd hget (h _ target)
  · rintro ⟨way, henters, hresolve⟩
    cases henters with
    | same hskip => rwa [if_pos hskip]
    | parent hdots =>
      subst hdots
      exact hresolve
    | child hname hthere =>
      rw [PathStep.ofSegment?] at hname
      split at hname
      · cases hname
      next hskip =>
        split at hname
        · cases hname
        next hdots => rwa [if_neg hskip, if_neg hdots, hthere]

/-- **Parts that follow other parts** are followed from where these lead. -/
theorem resolveFrom_append (h : t.LinkFree) (parts : List String) {later : List String}
    (hlater : later ≠ []) :
    t.resolveFrom links d (parts ++ later) =
      t.goOn links later (t.resolveFrom links d parts) := by
  have hbehind (parts : List String) : (parts ++ later).isEmpty = false := by simp [hlater]
  induction parts generalizing d with
  | nil => rw [List.nil_append, resolveFrom_nil, goOn]
  | cons part parts ih =>
    rw [List.cons_append, resolveFrom, resolveFrom]
    split
    · exact ih
    split
    · exact ih
    cases hget : t.get? (d ++ [part]) with
    | none =>
      simp only [hbehind]
      cases mayBeName part <;> cases parts.isEmpty <;> rfl
    | some e =>
      cases e with
      | file text? =>
        simp only [hbehind]
        cases parts.isEmpty <;> rfl
      | directory => exact ih
      | link target => exact absurd hget (h _ target)

/-- Parts that follow others lead to a directory only from one. -/
theorem exists_of_resolveFrom_append (h : t.LinkFree) {parts later : List String}
    (hlater : later ≠ []) {d' : Place}
    (hd : t.resolveFrom links d (parts ++ later) = .directory d') :
    ∃ way, t.resolveFrom links d parts = .directory way ∧
      t.resolveFrom links way later = .directory d' := by
  rw [resolveFrom_append h parts hlater] at hd
  cases hway : t.resolveFrom links d parts with
  | directory way => exact ⟨way, rfl, by rwa [hway] at hd⟩
  | _ =>
    rw [hway] at hd
    cases hd

/-- A path that leads to a directory still does when there are more directories, and one that leads
to a file does as long as the file stays. -/
theorem resolveFrom_mono (h : t.LinkFree)
    (hmore : ∀ q, t.get? q = some .directory → t'.get? q = some .directory) {parts : List String} :
    (∀ d', t.resolveFrom links d parts = .directory d' →
      t'.resolveFrom links d parts = .directory d') ∧
    ∀ place text?, t.resolveFrom links d parts = .file place text? →
      t.get? place = some (.file text?) ∧
        (t'.get? place = some (.file text?) →
          t'.resolveFrom links d parts = .file place text?) := by
  induction parts generalizing d with
  | nil =>
    rw [resolveFrom_nil, resolveFrom_nil]
    exact ⟨fun _ ↦ id, fun _ _ hfile ↦ by cases hfile⟩
  | cons part parts ih =>
    rw [resolveFrom, resolveFrom]
    split
    · exact ih
    split
    · exact ih
    cases hget : t.get? (d ++ [part]) with
    | none =>
      cases mayBeName part <;> cases parts.isEmpty <;> constructor <;> intros <;> contradiction
    | some e =>
      cases e with
      | directory =>
        rw [hmore _ hget]
        exact ih
      | file text? =>
        cases hparts : parts.isEmpty with
        | false => constructor <;> intros <;> contradiction
        | true =>
          constructor
          · rintro _ ⟨⟩
          rintro _ _ ⟨⟩
          refine ⟨hget, fun hstays ↦ ?_⟩
          rw [hstays]
          rfl
      | link target => exact absurd hget (h _ target)

/-! ### Paths -/

theorem resolve_of_ne_empty (hp : p.text ≠ "") :
    t.resolve p = t.resolveFrom linkLimit (t.start p) p.segments := if_neg hp

theorem leadsTo_iff (hp : p.text ≠ "") : t.LeadsTo p d ↔ t.resolve p = .directory d := by
  rw [LeadsTo, resolve_of_ne_empty hp]

theorem leadsTo_of_resolve (h : t.resolve p = .directory d) : t.LeadsTo p d := by
  rw [resolve] at h
  split at h
  · cases h
  · exact h

theorem leadsTo_of_isDirectory (h : t.isDirectory p = true) : ∃ d, t.LeadsTo p d := by
  rw [isDirectory] at h
  split at h
  next d hd => exact ⟨d, leadsTo_of_resolve hd⟩
  next => cases h

/-- The empty path leads to the working directory. -/
theorem leadsTo_empty : t.LeadsTo ⟨""⟩ t.current := by
  rw [LeadsTo]
  exact (resolveFrom_empty []).trans resolveFrom_nil

theorem isFile_of_leadsTo (h : t.LeadsTo p d) : t.isFile p = false := by
  rw [isFile, resolve]
  by_cases hempty : p.text = ""
  · rw [if_pos hempty]
  · rw [if_neg hempty, h]

theorem LeadsTo.unique {d' : Place} (h : t.LeadsTo p d) (h' : t.LeadsTo p d') : d = d' :=
  Resolution.directory.inj (h.symm.trans h')

theorem LeadsTo.mono (h : t.LinkFree) (hcurrent : t'.current = t.current)
    (hmore : ∀ q, t.get? q = some .directory → t'.get? q = some .directory)
    (hp : t.LeadsTo p d) : t'.LeadsTo p d := by
  have hstart : t'.start p = t.start p := by rw [start, start, hcurrent]
  rw [LeadsTo, hstart]
  exact (resolveFrom_mono h hmore).1 _ hp

/-- What a path to a file leads to is a file. -/
theorem get?_of_resolve (h : t.LinkFree) {place : Place} {text? : Option String}
    (hp : t.resolve p = .file place text?) : t.get? place = some (.file text?) := by
  rw [resolve] at hp
  split at hp
  · cases hp
  · exact ((resolveFrom_mono h fun _ ↦ id).2 place text? hp).1

theorem read?_congr (h : t'.resolve p = t.resolve p) : t'.read? p = t.read? p := by
  rw [read?, read?, h]

/-- A path to a file still leads there if the file and all directories stay. -/
theorem resolve_file_mono (h : t.LinkFree) (hcurrent : t'.current = t.current)
    (hmore : ∀ q, t.get? q = some .directory → t'.get? q = some .directory) {place : Place}
    {text? : Option String} (hp : t.resolve p = .file place text?)
    (hfile : t'.get? place = some (.file text?)) : t'.resolve p = .file place text? := by
  have hstart : t'.start p = t.start p := by rw [start, start, hcurrent]
  rw [resolve] at hp ⊢
  split
  next hempty =>
    rw [if_pos hempty] at hp
    cases hp
  next hne =>
    rw [if_neg hne] at hp
    rw [hstart]
    exact ((resolveFrom_mono h hmore).2 place text? hp).2 hfile

theorem resolve_directory_mono (h : t.LinkFree) (hcurrent : t'.current = t.current)
    (hmore : ∀ q, t.get? q = some .directory → t'.get? q = some .directory)
    (hp : t.resolve p = .directory d) : t'.resolve p = .directory d := by
  have hne : p.text ≠ "" := by
    intro hempty
    rw [resolve, if_pos hempty] at hp
    cases hp
  exact (leadsTo_iff hne).1 ((leadsTo_of_resolve hp).mono h hcurrent hmore)

/-- A path to a directory has its place, but for the empty path, which has none. -/
theorem place?_of_leadsTo (hp : t.LeadsTo p d) :
    t.place? p = if p.text = "" then none else some d := by
  split
  next hempty => rw [place?, resolve, if_pos hempty]
  next hne => rw [place?, (leadsTo_iff hne).1 hp]

/-- **The path of an entry** leads where its name leads in the directory. -/
theorem resolve_child (h : t.LinkFree) (hp : t.LeadsTo p d) (hname : IsEntryName name) :
    t.resolve (p.child name) = t.resolveChild d name := by
  have hstart : t.start (p.child name) = t.start p := by
    rw [start, start, p.isAbsolute_child hname]
  obtain ⟨front, hchild, hfront⟩ := p.segments_child hname.noSlash
  have hd : t.resolveFrom linkLimit (t.start p) front = .directory d := by
    rcases hfront with hfront | hfront
    · rw [← hfront]
      exact hp
    · -- A slash at the end of the path leads nowhere else.
      rw [LeadsTo, hfront] at hp
      obtain ⟨way, hway, hslash⟩ := exists_of_resolveFrom_append h (List.cons_ne_nil _ _) hp
      rw [resolveFrom_empty, resolveFrom_nil] at hslash
      rwa [hslash] at hway
  rw [resolve_of_ne_empty (p.child_text_ne_empty hname), hstart, hchild,
    resolveFrom_append h front (List.cons_ne_nil _ _), hd, goOn, resolveChild]

/-- Without steps to parents, a way goes further in by its names. -/
theorem eq_append_of_resolveFrom (h : t.LinkFree) {parts : List String} (hdots : ".." ∉ parts)
    {d' : Place} (hd : t.resolveFrom links d parts = .directory d') :
    d' = d ++ parts.filter fun part ↦ (PathStep.ofSegment? part).isSome := by
  induction parts generalizing d with
  | nil =>
    rw [resolveFrom_nil] at hd
    cases hd
    exact (List.append_nil _).symm
  | cons part parts ih =>
    rw [List.mem_cons, not_or] at hdots
    obtain ⟨way, henters, hresolve⟩ := (resolveFrom_cons_eq_directory h).1 hd
    have hlater := ih hdots.2 hresolve
    cases henters with
    | same hskip =>
      have hnone : PathStep.ofSegment? part = none := if_pos hskip
      rw [List.filter_cons_of_neg (by simp [hnone]), hlater]
    | parent heq => exact absurd heq.symm hdots.1
    | child hname => rw [List.filter_cons_of_pos (by simp [hname]), hlater, List.append_assoc]; rfl

/-! ### Plain trees -/

namespace IsPlain

variable (h : t.IsPlain)

include h

/-- What holds an entry further in is a directory. -/
theorem get?_of_append {rest : List String} (hrest : rest ≠ []) {e : Entry}
    (hget : t.get? (d ++ rest) = some e) : t.get? d = some .directory := by
  induction rest using List.reverseRecOn generalizing e with
  | nil => exact absurd rfl hrest
  | append_singleton front name ih =>
    rw [← List.append_assoc] at hget
    have hfront := h.parent _ _ _ hget
    rcases eq_or_ne front [] with rfl | hne
    · rwa [List.append_nil] at hfront
    · exact ih hne hfront

theorem get?_start (p : Path) : t.get? (t.start p) = some .directory := by
  rw [start]
  split
  · rfl
  · exact h.current

/-- The way from the start of a path leads to no directory that is not there. -/
theorem get?_of_resolveFrom {parts : List String}
    (hresolve : t.resolveFrom links (t.start p) parts = .directory d) :
    t.get? d = some .directory := by
  have hstart := h.get?_start p
  generalize t.start p = front at hresolve hstart
  induction parts generalizing front with
  | nil =>
    rw [resolveFrom_nil] at hresolve
    cases hresolve
    exact hstart
  | cons part parts ih =>
    obtain ⟨way, henters, hresolve⟩ := (resolveFrom_cons_eq_directory h.linkFree).1 hresolve
    refine ih way hresolve ?_
    cases henters with
    | same => exact hstart
    | parent =>
      rcases List.eq_nil_or_concat' front with rfl | ⟨outer, name, rfl⟩
      · exact hstart
      · rw [List.dropLast_concat]
        exact h.parent _ _ _ hstart
    | child _ hthere => exact hthere

/-- Where the directory is, there is a way to it. -/
theorem resolveFrom_of_get? {parts : List String} (hdots : ".." ∉ parts)
    (hd : t.get? (d ++ parts.filter fun part ↦ (PathStep.ofSegment? part).isSome) =
      some .directory) :
    t.resolveFrom links d parts =
      .directory (d ++ parts.filter fun part ↦ (PathStep.ofSegment? part).isSome) := by
  induction parts generalizing d with
  | nil => rw [resolveFrom_nil, List.filter_nil, List.append_nil]
  | cons part parts ih =>
    rw [List.mem_cons, not_or] at hdots
    rw [resolveFrom_cons_eq_directory h.linkFree]
    cases hstep : PathStep.ofSegment? part with
    | none =>
      have hskip : part = "" ∨ part = "." := by
        by_contra hskip
        rw [PathStep.ofSegment?, if_neg hskip, if_neg (Ne.symm hdots.1)] at hstep
        cases hstep
      rw [List.filter_cons_of_neg (by simp [hstep])] at hd ⊢
      exact ⟨d, .same hskip, ih hdots.2 hd⟩
    | some step =>
      have hname : PathStep.ofSegment? part = some (.name part) := by
        rw [PathStep.ofSegment?] at hstep ⊢
        split at hstep
        · cases hstep
        next hskip => rw [if_neg hskip, if_neg (Ne.symm hdots.1)]
      rw [List.filter_cons_of_pos (by simp [hstep]), ← List.singleton_append,
        ← List.append_assoc] at hd ⊢
      have hthere : t.get? (d ++ [part]) = some .directory := by
        rcases eq_or_ne (parts.filter fun part ↦ (PathStep.ofSegment? part).isSome) [] with
          hnil | hne
        · rwa [hnil, List.append_nil] at hd
        · exact h.get?_of_append hne hd
      exact ⟨_, .child hname hthere, ih hdots.2 hd⟩

/-- **A path without steps to parents** leads to a directory as soon as this is there. -/
theorem leadsTo_of_get? (hlinks : t'.LinkFree) (hcurrent : t'.current = t.current)
    (hdots : ".." ∉ p.segments) (hp : t'.LeadsTo p d) (hd : t.get? d = some .directory) :
    t.LeadsTo p d := by
  have hstart : t'.start p = t.start p := by rw [start, start, hcurrent]
  rw [LeadsTo, hstart] at hp
  have hplace := eq_append_of_resolveFrom hlinks hdots hp
  rw [LeadsTo, hplace]
  exact h.resolveFrom_of_get? hdots (hplace ▸ hd)

/-- The path of a directory further in leads there. -/
theorem leadsTo_descend (hp : t.LeadsTo p d) {names : List String}
    (hd : t.get? (d ++ names) = some .directory) : t.LeadsTo (p.descend names) (d ++ names) := by
  induction names using List.reverseRecOn with
  | nil => rwa [List.append_nil]
  | append_singleton front name ih =>
    rw [← List.append_assoc] at hd ⊢
    have hentry := h.isEntryName _ _ _ hd
    have hresolve := resolve_child h.linkFree (ih (h.parent _ _ _ hd)) hentry
    rw [resolveChild_eq h.linkFree hentry.ofSegment?, hd] at hresolve
    rw [Path.descend_concat]
    exact leadsTo_of_resolve hresolve

/-- A file further in than a directory is another entry. -/
theorem ne_nil_of_file (hp : t.LeadsTo p d) {names : List String} {text? : Option String}
    (hfile : t.get? (d ++ names) = some (.file text?)) : names ≠ [] := by
  rintro rfl
  rw [List.append_nil, h.get?_of_resolveFrom hp] at hfile
  cases hfile

/-- **The path of a file further in** leads to it. -/
theorem resolve_descend (hp : t.LeadsTo p d) {names : List String} {text? : Option String}
    (hfile : t.get? (d ++ names) = some (.file text?)) :
    t.resolve (p.descend names) = .file (d ++ names) text? := by
  rcases List.eq_nil_or_concat' names with rfl | ⟨front, name, rfl⟩
  · exact absurd rfl (h.ne_nil_of_file hp hfile)
  · rw [← List.append_assoc] at hfile ⊢
    have hentry := h.isEntryName _ _ _ hfile
    have hfront := h.leadsTo_descend hp (h.parent _ _ _ hfile)
    rw [Path.descend_concat, resolve_child h.linkFree hfront hentry,
      resolveChild_eq h.linkFree hentry.ofSegment?, hfile]

/-- **A path further in leads to a file** just where one stands. -/
theorem isFile_descend_iff (hp : t.LeadsTo p d) {names : List String}
    (hthere : t.get? (d ++ names) ≠ none) :
    t.isFile (p.descend names) = true ↔ ∃ text?, t.get? (d ++ names) = some (.file text?) := by
  obtain ⟨e, he⟩ := Option.ne_none_iff_exists'.1 hthere
  cases e with
  | file text? =>
    rw [isFile, h.resolve_descend hp he]
    exact iff_of_true rfl ⟨text?, he⟩
  | directory =>
    rw [isFile_of_leadsTo (h.leadsTo_descend hp he), he]
    exact iff_of_false nofun nofun
  | link target => exact absurd he (h.linkFree _ target)

/-- Whatever stands somewhere below a directory has the name of an entry, and so have the
directories on the way. -/
theorem isEntryName_of_mem {names : List String} (hthere : t.get? (d ++ names) ≠ none) :
    ∀ name ∈ names, IsEntryName name := by
  induction names using List.reverseRecOn with
  | nil => nofun
  | append_singleton front name ih =>
    rw [← List.append_assoc] at hthere
    obtain ⟨e, he⟩ := Option.ne_none_iff_exists'.1 hthere
    have hfront : t.get? (d ++ front) ≠ none := by
      rw [h.parent _ _ _ he]
      nofun
    exact List.forall_mem_append.2
      ⟨ih hfront, List.forall_mem_singleton.2 (h.isEntryName _ _ _ he)⟩

end IsPlain

end FileTree

end DoubleDispatch
