import DoubleDispatch.FileTree.Resolution

/-!
# All paths below a directory

What is below a directory is found by going down into every directory, also through links. A link
that leads back to a directory on the way is passed over, so the search ends: each link that is
followed leads to a directory that was not yet on the way, and between two links each step leads to
a directory with fewer entries below it.

The program is run with this search; what is proved of runs holds for any other one that lists the
same paths.
-/

namespace DoubleDispatch

namespace FileTree

/-- The places of the entries of a tree. -/
def places (t : FileTree) : List Place := [] :: t.entries.map (·.1)

/-- The places that are not on the way. -/
def unentered (t : FileTree) (way : List Place) : List Place :=
  t.places.filter fun p ↦ !way.contains p

/-- The places of the entries below a place. -/
def below (t : FileTree) (d : Place) : List Place :=
  t.places.filter fun p ↦ d.isPrefixOf p && p != d

/-! ### The search ends -/

/-- A filter that keeps less, and loses a member, keeps a shorter list. -/
private theorem length_filter_lt {α : Type} {p q : α → Bool} {a : α} (pq : ∀ x, p x → q x) :
    ∀ {l : List α}, a ∈ l → p a = false → q a = true →
      (l.filter p).length < (l.filter q).length
  | b :: l, ha, hp, hq => by
    have hle : (l.filter p).length ≤ (l.filter q).length := by
      simpa only [List.countP_eq_length_filter] using
        List.countP_mono_left (l := l) fun x _ ↦ pq x
    rcases List.mem_cons.1 ha with rfl | ha
    · simp only [List.filter_cons, hp, hq]
      simp only [Bool.false_eq_true, if_false, if_true, List.length_cons]
      omega
    · have ih := length_filter_lt pq ha hp hq
      by_cases hb : p b = true
      · simpa [List.filter_cons, hb, pq b hb] using ih
      · by_cases hq' : q b = true
        · simp only [List.filter_cons, hb, hq']
          simp only [Bool.false_eq_true, if_false, if_true, List.length_cons]
          omega
        · simpa [List.filter_cons, hb, hq'] using ih

/-- Entering a directory leaves fewer to enter. -/
theorem length_unentered_lt (t : FileTree) {way : List Place} {p : Place}
    (h : p ∈ t.unentered way) :
    (t.unentered (p :: way)).length < (t.unentered way).length := by
  simp only [unentered, List.mem_filter] at h
  exact length_filter_lt (by simp_all) h.1 (by simp) h.2

/-- A longer way leaves no more directories to enter. -/
theorem length_unentered_le (t : FileTree) (way : List Place) (p : Place) :
    (t.unentered (p :: way)).length ≤ (t.unentered way).length := by
  simp only [unentered, ← List.countP_eq_length_filter]
  exact List.countP_mono_left (by simp_all)

theorem mem_places_of_mem_children {t : FileTree} {d : Place} {name : String}
    (h : name ∈ t.children d) : d ++ [name] ∈ t.places := by
  simp only [children, List.mem_filterMap] at h
  obtain ⟨⟨p, e⟩, hp, h⟩ := h
  split at h
  · next hd =>
    obtain ⟨before, rfl⟩ := List.getLast?_eq_some_iff.1 h
    simp only [List.dropLast_concat] at hd
    exact hd ▸ List.mem_cons_of_mem _ (List.mem_map.2 ⟨_, hp, rfl⟩)
  · cases h

/-- Below a child there are fewer places than below its directory. -/
theorem length_below_lt {t : FileTree} {d : Place} {name : String} (h : name ∈ t.children d) :
    (t.below (d ++ [name])).length < (t.below d).length := by
  refine length_filter_lt ?_ (mem_places_of_mem_children h) (by simp) (by simp)
  intro p hp
  simp only [Bool.and_eq_true, List.isPrefixOf_iff_prefix, bne_iff_ne] at hp ⊢
  obtain ⟨rest, rfl⟩ := hp.1
  exact ⟨⟨name :: rest, by simp⟩, by simp⟩

/-! ### The search -/

/-- The path of the directory at a place, and the paths of all that is below it. The way holds the
directories that were entered. -/
def walkFrom (t : FileTree) (way : List Place) (d : Place) (p : Path) : List Path :=
  p :: (t.children d).attach.flatMap fun ⟨name, _⟩ ↦
    match t.get? (d ++ [name]) with
    | some (.file _) => [p.child name]
    | some .directory => walkFrom t ((d ++ [name]) :: way) (d ++ [name]) (p.child name)
    | some (.link _) =>
      match t.resolveChild d name with
      | .file .. => [p.child name]
      | .directory place =>
        if place ∈ t.unentered way then walkFrom t (place :: way) place (p.child name) else []
      | _ => []
    | none => []
termination_by ((t.unentered way).length, (t.below d).length)
decreasing_by
  · have hle := t.length_unentered_le way (d ++ [name])
    have hlt := length_below_lt ‹name ∈ t.children d›
    rcases Nat.lt_or_eq_of_le hle with hlt' | heq
    · exact Prod.Lex.left _ _ hlt'
    · rw [heq]
      exact Prod.Lex.right _ hlt
  · next hmem => exact Prod.Lex.left _ _ (t.length_unentered_lt hmem)

/-- The path of a directory, and the paths of all that is below it. -/
def walk (t : FileTree) (p : Path) : List Path :=
  match t.resolve p with
  | .directory d => t.walkFrom [d] d p
  | _ => []

end FileTree

end DoubleDispatch
