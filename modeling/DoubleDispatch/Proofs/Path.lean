import DoubleDispatch.Path
import DoubleDispatch.Proofs.Text.Split

/-!
# Paths of entries

Behind a path to a directory stands the name of an entry as one more segment, whether or not the
path ends with a slash (`Path.segments_child`), and as one more step (`Path.steps_child`). So the
path of an entry ends with its name.
-/

namespace DoubleDispatch

/-- The name of an entry of a directory: a single segment that leads to something else than the
directory itself or its parent. -/
structure IsEntryName (name : String) : Prop where
  noSlash : '/' ∉ name.toList
  ne_empty : name ≠ ""
  ne_current : name ≠ "."
  ne_parent : name ≠ ".."

instance : DecidablePred IsEntryName := fun name ↦
  decidable_of_iff ('/' ∉ name.toList ∧ name ≠ "" ∧ name ≠ "." ∧ name ≠ "..")
    ⟨fun ⟨hslash, hempty, hcurrent, hparent⟩ ↦ ⟨hslash, hempty, hcurrent, hparent⟩,
      fun h ↦ ⟨h.noSlash, h.ne_empty, h.ne_current, h.ne_parent⟩⟩

namespace IsEntryName

variable {name : String}

/-- The name of an entry is one step of a path. -/
theorem ofSegment? (h : IsEntryName name) : PathStep.ofSegment? name = some (.name name) := by
  simp [PathStep.ofSegment?, h.ne_empty, h.ne_current, h.ne_parent]

/-- The name of an entry starts with a character that is no slash. -/
theorem exists_cons (h : IsEntryName name) : ∃ c s, name.toList = c :: s ∧ c ≠ '/' := by
  obtain ⟨c, s, hcons⟩ := List.exists_cons_of_ne_nil fun hnil ↦
    h.ne_empty (String.toList_eq_nil_iff.1 hnil)
  refine ⟨c, s, hcons, fun hc ↦ h.noSlash ?_⟩
  rw [hcons, hc]
  exact List.mem_cons_self

end IsEntryName

namespace Path

variable (p : Path) {name : String}

/-! ### Segments -/

/-- No segment of a path has a slash. -/
theorem noSlash_of_mem_segments {segment : String} (h : segment ∈ p.segments) :
    '/' ∉ segment.toList := by
  obtain ⟨part, hpart, rfl⟩ := List.mem_map.1 h
  rw [String.toList_ofList]
  exact Text.notMem_of_mem_split hpart

theorem segments_eq_singleton {name : String} (h : '/' ∉ name.toList) :
    segments ⟨name⟩ = [name] := by
  rw [segments, Text.split_of_notMem h]
  simp

/-- A name behind a slash is one more segment. -/
theorem segments_append_slash (s : String) (hname : '/' ∉ name.toList) :
    segments ⟨s ++ "/" ++ name⟩ = segments ⟨s⟩ ++ [name] := by
  have htext : (s ++ "/" ++ name).toList = s.toList ++ '/' :: name.toList := by simp
  rw [segments, htext, Text.split_append_cons, Text.split_of_notMem hname, List.map_append]
  simp [segments]

/-- **The segments of an entry's path** are those of the directory's path and its name. A slash at
the end of the latter makes no segment any more. -/
theorem segments_child (hname : '/' ∉ name.toList) :
    ∃ front, (p.child name).segments = front ++ [name] ∧
      (p.segments = front ∨ p.segments = front ++ [""]) := by
  obtain ⟨text⟩ := p
  rw [child]
  split
  next h =>
    rcases h with hempty | hlast
    · have htext : text = "" := hempty
      subst htext
      exact ⟨[], by rw [String.empty_append]; exact segments_eq_singleton hname, .inr rfl⟩
    · obtain ⟨s, hs⟩ := List.getLast?_eq_some_iff.1 hlast
      have htext : text = String.ofList s ++ "/" ++ "" :=
        String.toList_injective (by simpa using hs)
      subst htext
      have hempty : '/' ∉ "".toList := by simp
      refine ⟨segments ⟨String.ofList s⟩, ?_, .inr (segments_append_slash _ hempty)⟩
      rw [String.append_empty]
      exact segments_append_slash _ hname
  next => exact ⟨_, segments_append_slash _ hname, .inl rfl⟩

/-- A child of a directory is absolute exactly if the directory is. -/
theorem isAbsolute_child (h : IsEntryName name) : (p.child name).isAbsolute = p.isAbsolute := by
  obtain ⟨text⟩ := p
  obtain ⟨c, s, hcons, hc⟩ := h.exists_cons
  by_cases hempty : text = ""
  · subst hempty
    simp [child, isAbsolute, hcons, hc]
  · obtain ⟨d, t, htext⟩ := List.exists_cons_of_ne_nil fun hnil ↦
      hempty (String.toList_eq_nil_iff.1 hnil)
    rw [child]
    split <;> simp [isAbsolute, htext]

/-! ### Steps -/

/-- **The steps of an entry's path** are those of the directory's path and its name. -/
theorem steps_child (h : IsEntryName name) : (p.child name).steps = p.steps ++ [.name name] := by
  obtain ⟨front, hchild, hfront⟩ := p.segments_child h.noSlash
  have hinner : (front ++ [name]).filterMap PathStep.ofSegment? =
      p.segments.filterMap PathStep.ofSegment? ++ [.name name] := by
    have hempty : PathStep.ofSegment? "" = none := rfl
    rcases hfront with hfront | hfront <;> simp [hfront, h.ofSegment?, hempty]
  have hhead : (front ++ [name]).head? = some "." ↔ p.segments.head? = some "." := by
    cases front with
    | nil =>
      rcases hfront with hfront | hfront
      · simp [hfront, h.ne_current]
      · simp [hfront, h.ne_current]
    | cons => rcases hfront with hfront | hfront <;> simp [hfront]
  simp only [steps, hchild, hinner, hhead, p.isAbsolute_child h]
  split
  · rfl
  · split <;> rfl

/-- The name of a child is the one it was given. -/
theorem name?_child (h : IsEntryName name) : (p.child name).name? = some name := by
  rw [name?, p.steps_child h, List.getLast?_concat]

/-- The last step down leads to a child. -/
theorem descend_concat (names : List String) (name : String) :
    p.descend (names ++ [name]) = (p.descend names).child name := by
  rw [descend, List.foldl_append]
  rfl

/-- Names that lead on from a directory are so many steps more. -/
theorem steps_descend {names : List String} (h : ∀ name ∈ names, IsEntryName name) :
    (p.descend names).steps = p.steps ++ names.map .name := by
  induction names generalizing p with
  | nil => simp [descend]
  | cons name names ih =>
    obtain ⟨hname, hnames⟩ := List.forall_mem_cons.1 h
    show ((p.child name).descend names).steps = _
    rw [ih _ hnames, p.steps_child hname, List.append_assoc]
    rfl

/-- The path of a child is not empty. -/
theorem child_text_ne_empty (h : IsEntryName name) : (p.child name).text ≠ "" := by
  intro hempty
  have hsteps := p.steps_child h
  rw [steps, isAbsolute, segments, hempty] at hsteps
  simp [Text.split, PathStep.ofSegment?] at hsteps

/-! ### The order of paths -/

instance : Std.TransCmp PathStep.compare :=
  inferInstanceAs (Std.TransCmp (compareLex (compareOn PathStep.rank) (compareOn PathStep.segment)))

instance : Std.LawfulEqCmp PathStep.compare where
  eq_of_compare {a b} h := by
    obtain ⟨hrank, hsegment⟩ := Ordering.then_eq_eq.1 h
    have hrank := Std.LawfulEqOrd.eq_of_compare hrank
    have hsegment := Std.LawfulEqOrd.eq_of_compare hsegment
    cases a <;> cases b <;> simp_all [PathStep.rank, PathStep.segment]

/-- The order of paths is transitive. -/
theorem le_trans (p q r : Path) (hpq : p.le q = true) (hqr : q.le r = true) : p.le r = true :=
  Std.TransCmp.isLE_trans hpq hqr

/-- Any two paths are in order one way or the other. -/
theorem le_total (p q : Path) : (p.le q || q.le p) = true := by
  have hswap : List.compareLex PathStep.compare q.steps p.steps =
      (List.compareLex PathStep.compare p.steps q.steps).swap := Std.OrientedCmp.eq_swap
  rw [le, le, hswap]
  cases List.compareLex PathStep.compare p.steps q.steps <;> rfl

variable {p} {q : Path}

/-- Paths with the same steps stand side by side in the order. -/
theorem sameSteps_of_le (hpq : p.le q = true) (hqp : q.le p = true) : p.sameSteps q = true :=
  beq_iff_eq.2 (Std.LawfulEqCmp.eq_of_compare (Std.OrientedCmp.isLE_antisymm hpq hqp))

@[simp]
theorem sameSteps_self (p : Path) : p.sameSteps p = true := beq_self_eq_true p.steps

/-- That two paths have the same steps does not depend on which comes first. -/
theorem sameSteps_comm (p q : Path) : p.sameSteps q = q.sameSteps p := Bool.beq_comm

/-- Paths with the same steps are in order. -/
theorem le_of_sameSteps (h : p.sameSteps q = true) : p.le q = true := by
  have hself : List.compareLex PathStep.compare q.steps q.steps = .eq := Std.ReflCmp.compare_self
  rw [le, beq_iff_eq.1 h, hself]
  rfl

end Path

end DoubleDispatch
