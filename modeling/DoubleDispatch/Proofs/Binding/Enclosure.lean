import DoubleDispatch.Proofs.Binding.Placement

/-!
# Namespaces around a declaration

A declaration stands inside the namespace declarations that are written around it. `StandsInside`
says which, and the levels of its scope are built from them alone, outermost first
(`StandsInside.mem_placedOf`, `exists_standsInside`). The innermost level is the namespace with the
names of all of them (`Level.innermost_inside`).
-/

namespace DoubleDispatch

/-- A namespace declaration around something: its dotted name, and the directives in it. -/
structure Enclosure where
  name : String
  usings : List UsingDirective

/-- A declaration stands among members inside the given namespaces, outermost first. -/
inductive StandsInside : List Member → List Enclosure → TypeDeclaration → Prop
  | type {ms : List Member} {d : TypeDeclaration} (here : .type d ∈ ms) : StandsInside ms [] d
  | scope {ms : List Member} {name : String} {fileScoped : Bool} {usings : List UsingDirective}
      {members : List Member} {span : Span} {around : List Enclosure} {d : TypeDeclaration}
      (here : .scope name fileScoped usings members span ∈ ms)
      (inside : StandsInside members around d) :
    StandsInside ms (⟨name, usings⟩ :: around) d

/-- A declaration stands inside members among more members as well. -/
theorem StandsInside.mono {ms ms' : List Member} {around : List Enclosure} {d : TypeDeclaration}
    (h : StandsInside ms around d) (hsub : ms ⊆ ms') : StandsInside ms' around d := by
  cases h with
  | type here => exact .type (hsub here)
  | scope here inside => exact .scope (hsub here) inside

/-! ### Levels -/

/-- The namespace whose segments are joined by dots; without segments it is the global one. -/
def Namespace.join : List String → Namespace
  | [] => .global
  | names => .named (".".intercalate names)

theorem Namespace.foldl_child_global (names : List String) :
    names.foldl child .global = join names := by
  cases names with
  | nil => rfl
  | cons first later => exact Level.foldl_child_named first later

namespace Level

/-- Entering the segments of a dotted name is entering the name. -/
theorem foldl_child_segments (ns : Namespace) (name : String) :
    (segments name).foldl Namespace.child ns = ns.child name := by
  obtain ⟨first, later, hsegments⟩ := List.exists_cons_of_ne_nil (segments_ne_nil name)
  cases ns with
  | global =>
    rw [Namespace.foldl_child_global, hsegments]
    show Namespace.named (".".intercalate (first :: later)) = _
    rw [← hsegments, intercalate_segments]
    rfl
  | named outer =>
    rw [foldl_child_named, hsegments, String.intercalate_cons_cons, ← hsegments,
      intercalate_segments]
    rfl

/-- The levels inside namespaces, of which the first is the outermost. -/
def inside (levels : List Level) : List Enclosure → List Level
  | [] => levels
  | e :: around => inside (enter levels e.usings (segments e.name)) around

/-- The innermost namespace inside enclosures is the one around them with their names appended. -/
theorem innermost_inside_eq_foldl (levels : List Level) (around : List Enclosure) :
    innermost (inside levels around) =
      (around.map (·.name)).foldl Namespace.child (innermost levels) := by
  induction around generalizing levels with
  | nil => rfl
  | cons e around ih =>
    rw [inside, ih, innermost_enter, foldl_child_segments, List.map_cons, List.foldl_cons]

/-- Inside namespaces of a file the innermost level is the namespace with their names. -/
theorem innermost_inside {file : Level} (hfile : file.ns = .global) (around : List Enclosure) :
    innermost (inside [file] around) = .join (around.map (·.name)) := by
  have hglobal : innermost [file] = .global := hfile
  rw [innermost_inside_eq_foldl, hglobal, Namespace.foldl_child_global]

end Level

/-- The declaration with its place in a tree. -/
def PlacedDeclaration.ofLevels (tree : Nat) (levels : List Level) (d : TypeDeclaration) :
    PlacedDeclaration :=
  ⟨tree, d, .ofDeclaration (Level.innermost levels) d, levels⟩

theorem mem_placedOf_of_mem {tree : Nat} {levels : List Level} {ms : List Member} {m : Member}
    {e : PlacedDeclaration} (hm : m ∈ ms) (he : e ∈ m.placed tree levels) :
    e ∈ placedOf tree levels ms := by
  induction ms with
  | nil => cases hm
  | cons first later ih =>
    rw [placedOf, List.mem_append]
    rcases List.mem_cons.1 hm with rfl | hm
    · exact .inl he
    · exact .inr (ih hm)

/-- **The scope of a declaration is what is written around it**: its levels are those inside the
namespaces in which it stands. -/
theorem StandsInside.mem_placedOf {ms : List Member} {around : List Enclosure} {d : TypeDeclaration}
    (h : StandsInside ms around d) (tree : Nat) (levels : List Level) :
    .ofLevels tree (Level.inside levels around) d ∈ placedOf tree levels ms := by
  induction h generalizing levels with
  | type here => exact mem_placedOf_of_mem here (List.mem_singleton_self _)
  | scope here _ ih => exact mem_placedOf_of_mem here (ih _)

mutual

/-- Each placed declaration of a member stands inside it, behind the enclosures its levels come
from. -/
theorem Member.exists_standsInside {tree : Nat} {levels : List Level} {m : Member}
    {e : PlacedDeclaration} (he : e ∈ m.placed tree levels) :
    ∃ around, StandsInside [m] around e.declaration ∧ e.levels = Level.inside levels around := by
  match m with
  | .type d =>
    obtain rfl := List.mem_singleton.1 he
    exact ⟨[], .type (List.mem_singleton_self _), rfl⟩
  | .scope name fileScoped usings members span =>
    obtain ⟨around, hinside, hlevels⟩ := exists_standsInside he
    exact ⟨⟨name, usings⟩ :: around, .scope (List.mem_singleton_self _) hinside, hlevels⟩

/-- Every placed declaration stands inside namespaces, and its levels are those inside them. -/
theorem exists_standsInside {tree : Nat} {levels : List Level} {ms : List Member}
    {e : PlacedDeclaration} (he : e ∈ placedOf tree levels ms) :
    ∃ around, StandsInside ms around e.declaration ∧ e.levels = Level.inside levels around := by
  match ms with
  | [] => cases he
  | m :: ms =>
    rw [placedOf, List.mem_append] at he
    rcases he with he | he
    · obtain ⟨around, hinside, hlevels⟩ := m.exists_standsInside he
      exact ⟨around, hinside.mono (by simp), hlevels⟩
    · obtain ⟨around, hinside, hlevels⟩ := exists_standsInside he
      exact ⟨around, hinside.mono (List.subset_cons_self m ms), hlevels⟩

end

end DoubleDispatch
