import DoubleDispatch.Path

/-!
# File trees

The files that a command can see, as a value: what stands at which place, and the directory that
relative paths start from. A place is the list of names that leads from the root to an entry
without going through links, so every entry has exactly one place.

The view of a tree is `get?`; the two changes `set` and `erase` are described through it.
-/

namespace DoubleDispatch

/-- The names from the root to an entry. -/
abbrev Place := List String

/-- What stands at a place. -/
inductive Entry where
  /-- A file; there is no text if its bytes are not those of a text in UTF-8. -/
  | file (text? : Option String)
  | directory
  /-- A symbolic link. A relative target starts at the directory that holds the link. -/
  | link (target : Path)
deriving DecidableEq, Repr, Inhabited

/-- Entries by place, and the working directory. The root needs no entry: it is a directory. -/
structure FileTree where
  entries : List (Place × Entry)
  current : Place
deriving Repr, Inhabited

namespace FileTree

/-- What stands at a place. -/
def get? (t : FileTree) (p : Place) : Option Entry :=
  if p = [] then some .directory else t.entries.lookup p

/-- The tree with an entry at a place, instead of any that was there. -/
def set (t : FileTree) (p : Place) (e : Entry) : FileTree :=
  { t with entries := (p, e) :: t.entries.filter (·.1 != p) }

/-- The tree without the entry at a place. -/
def erase (t : FileTree) (p : Place) : FileTree :=
  { t with entries := t.entries.filter (·.1 != p) }

/-- The names of the entries of a directory. -/
def children (t : FileTree) (d : Place) : List String :=
  t.entries.filterMap fun (p, _) ↦
    if p.dropLast = d then p.getLast? else none

/-! ### The changes through the view -/

private theorem lookup_filter_ne (p q : Place) (entries : List (Place × Entry)) :
    (entries.filter (·.1 != p)).lookup q = if q = p then none else entries.lookup q := by
  induction entries with
  | nil => simp
  | cons head rest ih =>
    obtain ⟨r, e⟩ := head
    by_cases hr : r = p
    · subst hr
      by_cases hq : q = r
      · simpa [hq] using ih
      · have hb : (q == r) = false := by simpa using hq
        simpa [List.lookup_cons, hq, hb] using ih
    · by_cases hq : q = r
      · subst hq
        simp [hr]
      · have hb : (q == r) = false := by simpa using hq
        simp [List.lookup_cons, hr, hb, ih]

/-- What is written at a place is there, and all other places are as before. -/
theorem get?_set (t : FileTree) {p : Place} (hp : p ≠ []) (e : Entry) (q : Place) :
    (t.set p e).get? q = if q = p then some e else t.get? q := by
  by_cases hq : q = p
  · subst hq
    simp [set, get?, hp]
  · have hb : (q == p) = false := by simpa using hq
    simp [set, get?, List.lookup_cons, lookup_filter_ne, hq, hb]

/-- What is taken away is gone, and all other places are as before. -/
theorem get?_erase (t : FileTree) {p : Place} (hp : p ≠ []) (q : Place) :
    (t.erase p).get? q = if q = p then none else t.get? q := by
  by_cases hq : q = p
  · subst hq
    simp [erase, get?, lookup_filter_ne, hp]
  · simp [erase, get?, lookup_filter_ne, hq]

end FileTree

end DoubleDispatch
