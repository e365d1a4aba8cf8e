import DoubleDispatch.Hierarchy.Discovery
import Mathlib.Data.List.Basic

/-!
# Places of declarations

A type declaration stands at a path: the position of the outermost namespace around it among the
members of its file, then the position of the next one inside, and last its own. `StandsAt` says so
without any traversal. A place adds the number of the tree, and places are ordered by tree and then
by path, which is document order through nested namespaces.

The lists of declarations that the code goes through are this order. `Compilation.places` pairs
each declaration with its place; it lists the declarations as `Compilation.sites` does
(`map_snd_places`), it has one entry for each place at which a declaration stands
(`mem_places_iff`), and its places increase (`pairwise_places`).
-/

namespace DoubleDispatch

/-- A declaration stands at a path among members. -/
inductive StandsAt : List Member → List Nat → TypeDeclaration → Prop
  | type {ms : List Member} {i : Nat} {d : TypeDeclaration} (here : ms[i]? = some (.type d)) :
    StandsAt ms [i] d
  | scope {ms : List Member} {i : Nat} {name : String} {fileScoped : Bool}
      {usings : List UsingDirective} {members : List Member} {span : Span} {path : List Nat}
      {d : TypeDeclaration} (here : ms[i]? = some (.scope name fileScoped usings members span))
      (inside : StandsAt members path d) :
    StandsAt ms (i :: path) d

namespace StandsAt

/-- No declaration stands at the empty path. -/
theorem not_nil {path : List Nat} {d : TypeDeclaration} : ¬StandsAt [] path d := by
  intro h
  cases h with
  | type here => cases here
  | scope here => cases here

/-- A path to a declaration has a first step. -/
theorem exists_cons {ms : List Member} {path : List Nat} {d : TypeDeclaration}
    (h : StandsAt ms path d) : ∃ k rest, path = k :: rest := by
  cases h with
  | type => exact ⟨_, _, rfl⟩
  | scope => exact ⟨_, _, rfl⟩

/-- Only the first member counts at position zero. -/
theorem zero_iff {m : Member} {ms : List Member} {rest : List Nat} {d : TypeDeclaration} :
    StandsAt (m :: ms) (0 :: rest) d ↔ StandsAt [m] (0 :: rest) d := by
  constructor
  · intro h
    cases h with
    | type here => exact .type here
    | scope here inside => exact .scope here inside
  · intro h
    cases h with
    | type here => exact .type here
    | scope here inside => exact .scope here inside

/-- Behind the first member positions move up by one. -/
theorem succ_iff {m : Member} {ms : List Member} {k : Nat} {rest : List Nat}
    {d : TypeDeclaration} :
    StandsAt (m :: ms) ((k + 1) :: rest) d ↔ StandsAt ms (k :: rest) d := by
  constructor
  · intro h
    cases h with
    | type here => exact .type (by simpa using here)
    | scope here inside => exact .scope (by simpa using here) inside
  · intro h
    cases h with
    | type here => exact .type (by simpa using here)
    | scope here inside => exact .scope (by simpa using here) inside

/-- At the place of a type stands this type and nothing below it. -/
theorem type_iff {d d' : TypeDeclaration} {rest : List Nat} :
    StandsAt [.type d] (0 :: rest) d' ↔ rest = [] ∧ d' = d := by
  constructor
  · intro h
    cases h with
    | type here => cases here; exact ⟨rfl, rfl⟩
    | scope here => cases here
  · rintro ⟨rfl, rfl⟩
    exact .type rfl

/-- Below the place of a namespace stands what stands in its members. -/
theorem scope_iff {name : String} {fileScoped : Bool} {usings : List UsingDirective}
    {members : List Member} {span : Span} {rest : List Nat} {d : TypeDeclaration} :
    StandsAt [.scope name fileScoped usings members span] (0 :: rest) d ↔
      StandsAt members rest d := by
  constructor
  · intro h
    cases h with
    | type here => cases here
    | scope here inside => cases here; exact inside
  · exact .scope rfl

/-- One declaration at most stands at a path. -/
theorem unique {ms : List Member} {path : List Nat} {d d' : TypeDeclaration}
    (h : StandsAt ms path d) (h' : StandsAt ms path d') : d = d' := by
  induction h generalizing d' with
  | type here =>
    cases h' with
    | type here' =>
      rw [here] at here'
      cases here'
      rfl
    | scope here' inside' =>
      obtain ⟨k, rest, hpath⟩ := inside'.exists_cons
      cases hpath
  | scope here inside ih =>
    cases h' with
    | type here' =>
      obtain ⟨k, rest, hpath⟩ := inside.exists_cons
      cases hpath
    | scope here' inside' =>
      rw [here] at here'
      cases here'
      exact ih inside'

end StandsAt

/-! ### Listing places -/

mutual

/-- The declarations of a member at position `i`, each with its path. -/
def Member.places (i : Nat) : Member → List (List Nat × TypeDeclaration)
  | .type d => [([i], d)]
  | .scope _ _ _ members _ => (placesFrom 0 members).map fun e ↦ (i :: e.1, e.2)

/-- The declarations of members of which the first is at position `i`, each with its path. -/
def placesFrom (i : Nat) : List Member → List (List Nat × TypeDeclaration)
  | [] => []
  | m :: ms => m.places i ++ placesFrom (i + 1) ms

end

mutual

theorem Member.map_snd_places (i : Nat) : ∀ m : Member, (m.places i).map (·.2) = m.types
  | .type d => rfl
  | .scope _ _ _ members _ => by
    rw [Member.places, Member.types, List.map_map]
    exact map_snd_placesFrom 0 members

/-- Numbering the places of members leaves out no type and adds none. -/
theorem map_snd_placesFrom (i : Nat) : ∀ ms : List Member, (placesFrom i ms).map (·.2) = typesOf ms
  | [] => rfl
  | m :: ms => by
    rw [placesFrom, typesOf, List.map_append, m.map_snd_places i, map_snd_placesFrom (i + 1) ms]

end

mutual

theorem Member.mem_places_iff (i : Nat) : ∀ (m : Member) (e : List Nat × TypeDeclaration),
    e ∈ m.places i ↔ ∃ rest, e.1 = i :: rest ∧ StandsAt [m] (0 :: rest) e.2
  | .type d, e => by
    rw [Member.places, List.mem_singleton]
    constructor
    · rintro rfl
      exact ⟨[], rfl, StandsAt.type_iff.2 ⟨rfl, rfl⟩⟩
    · rintro ⟨rest, hpath, hs⟩
      obtain ⟨rfl, hd⟩ := StandsAt.type_iff.1 hs
      exact Prod.ext hpath hd
  | .scope _ _ _ members _, e => by
    simp only [Member.places, List.mem_map, StandsAt.scope_iff]
    constructor
    · rintro ⟨e', he', rfl⟩
      obtain ⟨k, rest, hpath, hs⟩ := (mem_placesFrom_iff 0 members e').1 he'
      rw [Nat.zero_add] at hpath
      exact ⟨e'.1, rfl, hpath ▸ hs⟩
    · rintro ⟨rest, hpath, hs⟩
      obtain ⟨k, rest', rfl⟩ := hs.exists_cons
      refine ⟨(k :: rest', e.2), ?_, Prod.ext hpath.symm rfl⟩
      exact (mem_placesFrom_iff 0 members _).2 ⟨k, rest', by rw [Nat.zero_add], hs⟩

/-- **A numbered place is one where the type stands**, by recursion over namespaces. -/
theorem mem_placesFrom_iff (i : Nat) : ∀ (ms : List Member) (e : List Nat × TypeDeclaration),
    e ∈ placesFrom i ms ↔ ∃ k rest, e.1 = (i + k) :: rest ∧ StandsAt ms (k :: rest) e.2
  | [], e => by simp [placesFrom, StandsAt.not_nil]
  | m :: ms, e => by
    rw [placesFrom, List.mem_append, m.mem_places_iff i e, mem_placesFrom_iff (i + 1) ms e]
    constructor
    · rintro (⟨rest, hpath, hs⟩ | ⟨k, rest, hpath, hs⟩)
      · exact ⟨0, rest, hpath, StandsAt.zero_iff.2 hs⟩
      · exact ⟨k + 1, rest, by rw [hpath, Nat.add_right_comm, Nat.add_assoc],
          StandsAt.succ_iff.2 hs⟩
    · rintro ⟨k, rest, hpath, hs⟩
      cases k with
      | zero => exact .inl ⟨rest, hpath, StandsAt.zero_iff.1 hs⟩
      | succ k =>
        exact .inr ⟨k, rest, by rw [hpath, Nat.add_right_comm, Nat.add_assoc],
          StandsAt.succ_iff.1 hs⟩

end

mutual

theorem Member.pairwise_places (i : Nat) : ∀ m : Member,
    (m.places i).Pairwise fun e e' ↦ e.1 < e'.1
  | .type d => List.pairwise_singleton _ _
  | .scope _ _ _ members _ => by
    rw [Member.places, List.pairwise_map]
    refine (pairwise_placesFrom 0 members).imp fun h ↦ ?_
    exact List.cons_lt_cons_iff.2 (.inr ⟨rfl, h⟩)

/-- Places are numbered in increasing order. -/
theorem pairwise_placesFrom (i : Nat) : ∀ ms : List Member,
    (placesFrom i ms).Pairwise fun e e' ↦ e.1 < e'.1
  | [] => List.Pairwise.nil
  | m :: ms => by
    rw [placesFrom, List.pairwise_append]
    refine ⟨m.pairwise_places i, pairwise_placesFrom (i + 1) ms, fun e he e' he' ↦ ?_⟩
    -- The first positions decide, whatever the paths are inside the members.
    obtain ⟨rest, hpath, -⟩ := (m.mem_places_iff i e).1 he
    obtain ⟨k, rest', hpath', -⟩ := (mem_placesFrom_iff (i + 1) ms e').1 he'
    rw [hpath, hpath']
    exact List.cons_lt_cons_iff.2 (.inl (by omega))

end

/-! ### Places in a compilation -/

/-- A place in a compilation: the number of a tree, and a path in it. -/
structure Compilation.Place where
  tree : Nat
  path : List Nat
deriving DecidableEq, Repr

/-- A place comes before another one: in an earlier tree, or earlier in the same. -/
def Compilation.Place.Before (p q : Compilation.Place) : Prop :=
  p.tree < q.tree ∨ p.tree = q.tree ∧ p.path < q.path

/-- Of two places at most one stands before the other. -/
theorem Compilation.Place.Before.asymm {p q : Compilation.Place} (h : p.Before q) :
    ¬q.Before p := by
  rintro (h' | ⟨heq, h'⟩)
  · rcases h with h | ⟨heq, -⟩
    · omega
    · omega
  · rcases h with h | ⟨-, h⟩
    · omega
    · exact List.lt_asymm h h'

namespace Compilation

variable (c : Compilation)

/-- A declaration stands at a place of a compilation. -/
def StandsAt (p : Place) (d : TypeDeclaration) : Prop :=
  ∃ tree, c.trees[p.tree]? = some tree ∧ DoubleDispatch.StandsAt tree.file.members p.path d

/-- The declarations of a compilation as sites, each with its place. -/
def places : List (Place × Site) :=
  c.numbered.flatMap fun (tree, number) ↦
    (placesFrom 0 tree.file.members).map fun e ↦ (⟨number, e.1⟩, ⟨tree, number, e.2⟩)

theorem map_snd_places : c.places.map (·.2) = c.sites := by
  rw [places, sites, List.map_flatMap]
  congr 1
  funext ⟨tree, number⟩
  simp only [SourceTree.sites, SourceTree.types, SourceFile.types, ← map_snd_placesFrom 0,
    List.map_map]
  rfl

/-- A declaration has a place exactly where it stands in the tree with that number. -/
theorem mem_places_iff (e : Place × Site) :
    e ∈ c.places ↔ c.trees[e.1.tree]? = some e.2.tree ∧ e.2.number = e.1.tree ∧
      DoubleDispatch.StandsAt e.2.tree.file.members e.1.path e.2.declaration := by
  obtain ⟨⟨number, path⟩, ⟨tree, number', d⟩⟩ := e
  simp only [places, numbered, List.mem_flatMap, List.mem_map, Prod.exists, Prod.mk.injEq,
    Place.mk.injEq, Site.mk.injEq, List.mem_zipIdx_iff_getElem?]
  constructor
  · rintro ⟨_, _, ht, e₁, e₂, he, ⟨rfl, rfl⟩, rfl, rfl, rfl⟩
    obtain ⟨k, rest, hpath, hs⟩ := (mem_placesFrom_iff 0 _ _).1 he
    obtain rfl : e₁ = k :: rest := by rw [← Nat.zero_add k]; exact hpath
    exact ⟨ht, rfl, hs⟩
  · rintro ⟨ht, rfl, hs⟩
    obtain ⟨k, rest, rfl⟩ := hs.exists_cons
    refine ⟨tree, number', ht, k :: rest, d, ?_, ⟨rfl, rfl⟩, rfl, rfl, rfl⟩
    exact (mem_placesFrom_iff 0 _ _).2 ⟨k, rest, by rw [Nat.zero_add], hs⟩

/-- **The places of a compilation** are in the order of trees, and within a tree in the order of
paths. -/
theorem pairwise_places : c.places.Pairwise fun e e' ↦ e.1.Before e'.1 := by
  have hnumbers : c.numbered.Pairwise fun t t' ↦ t.2 < t'.2 := by
    rw [← List.pairwise_map (f := Prod.snd), numbered, List.zipIdx_map_snd]
    exact List.pairwise_lt_range'
  refine List.pairwise_flatMap.2 ⟨fun t _ ↦ ?_, hnumbers.imp fun hlt e he e' he' ↦ ?_⟩
  · rw [List.pairwise_map]
    exact (pairwise_placesFrom 0 t.1.file.members).imp fun h ↦ .inr ⟨rfl, h⟩
  · obtain ⟨-, -, rfl⟩ := List.mem_map.1 he
    obtain ⟨-, -, rfl⟩ := List.mem_map.1 he'
    exact .inl hlt

end Compilation

end DoubleDispatch
