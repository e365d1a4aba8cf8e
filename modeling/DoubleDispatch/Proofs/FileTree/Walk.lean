import DoubleDispatch.FileTree.Walk
import DoubleDispatch.Proofs.FileTree.Change

/-!
# What a search below a directory lists

In a tree of files and directories the search below a directory lists the path of the directory and
of everything to which names lead on from there, and nothing else (`mem_walk_iff`).
-/

namespace DoubleDispatch.FileTree

variable {t : FileTree} {d : Place} {p q : Path}

/-- What is proved of a directory if it holds of all that are in it is true of all. -/
theorem below_induction (t : FileTree) {motive : Place → Prop}
    (step : ∀ d, (∀ name ∈ t.children d, motive (d ++ [name])) → motive d) (d : Place) :
    motive d :=
  step d fun name _ ↦ below_induction t step (d ++ [name])
termination_by (t.below d).length
decreasing_by exact length_below_lt ‹_›

/-- Names lead on from a directory: none of them, or first one to what is in it. -/
theorem exists_names_iff (There : Path → Place → Prop) :
    (∃ names, There (p.descend names) (d ++ names)) ↔
      There p d ∨ ∃ name names, There ((p.child name).descend names) (d ++ [name] ++ names) := by
  constructor
  · rintro ⟨_ | ⟨name, names⟩, h⟩
    · exact .inl (by rwa [List.append_nil] at h)
    · exact .inr ⟨name, names, by rwa [List.append_assoc]⟩
  · rintro (h | ⟨name, names, h⟩)
    · exact ⟨[], by rwa [List.append_nil]⟩
    · exact ⟨name :: names, by rwa [List.append_assoc] at h⟩

/-- Where something stands below a name, the name is one of the children. -/
theorem IsPlain.mem_children (h : t.IsPlain) {name : String} {names : List String}
    (hnames : t.get? (d ++ [name] ++ names) ≠ none) : name ∈ t.children d := by
  rw [mem_children_iff]
  rcases eq_or_ne names [] with rfl | hne
  · rwa [List.append_nil] at hnames
  · obtain ⟨e, he⟩ := Option.ne_none_iff_exists'.1 hnames
    rw [h.get?_of_append hne he]
    exact Option.some_ne_none _

/-- Nothing stands below a file. -/
theorem IsPlain.eq_nil_of_file (h : t.IsPlain) {text? : Option String} {names : List String}
    (hfile : t.get? d = some (.file text?)) (hnames : t.get? (d ++ names) ≠ none) : names = [] := by
  by_contra hne
  obtain ⟨e, he⟩ := Option.ne_none_iff_exists'.1 hnames
  rw [h.get?_of_append hne he] at hfile
  cases hfile

theorem mem_walkFrom_iff (h : t.IsPlain) (way : List Place) (hd : t.get? d = some .directory) :
    q ∈ t.walkFrom way d p ↔ ∃ names, q = p.descend names ∧ t.get? (d ++ names) ≠ none := by
  induction d using t.below_induction generalizing way p with
  | step d ih =>
    have hthere : t.get? d ≠ none := Option.ne_none_iff_exists'.2 ⟨_, hd⟩
    rw [walkFrom, List.mem_cons, List.mem_flatMap,
      exists_names_iff fun r place ↦ q = r ∧ t.get? place ≠ none]
    refine or_congr (and_iff_left hthere).symm ⟨?_, ?_⟩
    · rintro ⟨⟨name, hname⟩, -, hq⟩
      dsimp only at hq
      cases hget : t.get? (d ++ [name]) with
      | none => exact absurd hget (mem_children_iff.1 hname)
      | some e =>
        rw [hget] at hq
        cases e with
        | file =>
          obtain rfl := List.mem_singleton.1 hq
          exact ⟨name, [], rfl, by rwa [List.append_nil, ← mem_children_iff]⟩
        | directory =>
          obtain ⟨names, hq⟩ := (ih name hname _ hget).1 hq
          exact ⟨name, names, hq⟩
        | link target => exact absurd hget (h.linkFree _ target)
    · rintro ⟨name, names, rfl, hnames⟩
      have hname := h.mem_children hnames
      refine ⟨⟨name, hname⟩, List.mem_attach .., ?_⟩
      dsimp only
      cases hget : t.get? (d ++ [name]) with
      | none => exact absurd hget (mem_children_iff.1 hname)
      | some e =>
        cases e with
        | file text? =>
          rw [h.eq_nil_of_file hget hnames]
          exact List.mem_singleton_self _
        | directory => exact (ih name hname _ hget).2 ⟨names, rfl, hnames⟩
        | link target => exact absurd hget (h.linkFree _ target)

/-- **What is listed below a directory**: its path, followed by names that lead to something. -/
theorem mem_walk_iff (h : t.IsPlain) (hp : t.resolve p = .directory d) :
    q ∈ t.walk p ↔ ∃ names, q = p.descend names ∧ t.get? (d ++ names) ≠ none := by
  have hd := h.get?_of_resolveFrom (leadsTo_of_resolve hp)
  rw [walk, hp]
  exact mem_walkFrom_iff h _ hd

end DoubleDispatch.FileTree
