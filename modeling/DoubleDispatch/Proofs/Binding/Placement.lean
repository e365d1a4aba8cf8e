import DoubleDispatch.Binding.Table
import DoubleDispatch.Proofs.Text.Split
import Mathlib.Data.List.Nodup

/-!
# Declarations in the table

A type declaration is found in the table under the number of its tree and its ordinal, since the
ordinals of a file differ (`DeclarationTable.get?_ofTrees`). Its symbol stands in the namespace of
the innermost level around it, and that is the namespace whose name is written around it
(`Level.innermost_enter_segments`).
-/

namespace DoubleDispatch

/-! ### Levels -/

namespace Level

/-- The innermost namespace is the one that was entered last. -/
theorem innermost_enter (levels : List Level) (usings : List UsingDirective)
    (segments : List String) :
    innermost (enter levels usings segments) =
      segments.foldl Namespace.child (innermost levels) := by
  fun_induction enter levels usings segments with
  | case1 => rfl
  | case2 => rfl
  | case3 levels segment segments _ ih => exact ih

/-- Segments one inside the other are joined by dots. -/
theorem foldl_child_named (outer : String) (segments : List String) :
    segments.foldl Namespace.child (.named outer) =
      .named (".".intercalate (outer :: segments)) := by
  induction segments generalizing outer with
  | nil => rfl
  | cons segment segments ih =>
    have hjoined : (".".intercalate ((outer ++ "." ++ segment) :: segments)) =
        ".".intercalate (outer :: segment :: segments) := by
      apply String.toList_injective
      simp only [toList_intercalate_cons, String.toList_append, List.flatMap_cons,
        List.append_assoc]
    rw [List.foldl_cons, Namespace.child, Namespace.qualify, ih, hjoined]

/-- Inside a namespace with a dotted name at the top of a file, the innermost level is that
namespace. -/
theorem innermost_enter_segments (file : Level) (hfile : file.ns = .global)
    (usings : List UsingDirective) (name : String) :
    innermost (enter [file] usings (segments name)) = .named name := by
  obtain ⟨first, later, hsegments⟩ := List.exists_cons_of_ne_nil (segments_ne_nil name)
  have hglobal : innermost [file] = .global := hfile
  rw [innermost_enter, hglobal, hsegments, List.foldl_cons]
  show later.foldl Namespace.child (.named first) = _
  rw [foldl_child_named, ← hsegments, intercalate_segments]

/-- The levels around what stands in a namespace of a file. -/
def around (ns : Namespace) (file : Level) : List Level :=
  match ns with
  | .global => [file]
  | .named name => enter [file] [] (segments name)

/-- Around a declaration of a namespace this namespace is the innermost one. -/
theorem innermost_around (ns : Namespace) {file : Level} (hfile : file.ns = .global) :
    innermost (around ns file) = ns := by
  cases ns with
  | global => exact hfile
  | named name => exact innermost_enter_segments file hfile [] name

end Level

/-! ### Declarations of a file -/

mutual

theorem Member.mem_placed {tree : Nat} {levels : List Level} {m : Member} {e : PlacedDeclaration}
    (he : e ∈ m.placed tree levels) :
    e.tree = tree ∧ e.symbol = .ofDeclaration (Level.innermost e.levels) e.declaration := by
  match m with
  | .type d =>
    obtain rfl := List.mem_singleton.1 he
    exact ⟨rfl, rfl⟩
  | .scope name fileScoped usings members span => exact mem_placedOf he

/-- A declaration is placed with its own tree, and with the symbol it has in the innermost
namespace. -/
theorem mem_placedOf {tree : Nat} {levels : List Level} {ms : List Member} {e : PlacedDeclaration}
    (he : e ∈ placedOf tree levels ms) :
    e.tree = tree ∧ e.symbol = .ofDeclaration (Level.innermost e.levels) e.declaration := by
  match ms with
  | [] => cases he
  | m :: ms =>
    rw [placedOf, List.mem_append] at he
    rcases he with he | he
    · exact m.mem_placed he
    · exact mem_placedOf he

end

mutual

theorem Member.map_declaration_placed (tree : Nat) (levels : List Level) (m : Member) :
    (m.placed tree levels).map (·.declaration) = m.types := by
  match m with
  | .type d => rfl
  | .scope name fileScoped usings members span =>
    rw [Member.placed, Member.types]
    exact map_declaration_placedOf tree _ members

/-- Every type is placed, in order, and nothing else is. -/
theorem map_declaration_placedOf (tree : Nat) (levels : List Level) (ms : List Member) :
    (placedOf tree levels ms).map (·.declaration) = typesOf ms := by
  match ms with
  | [] => rfl
  | m :: ms =>
    rw [placedOf, typesOf, List.map_append, m.map_declaration_placed,
      map_declaration_placedOf tree levels ms]

end

/-! ### Declarations of a table -/

namespace DeclarationTable

/-- **The entries of a table** are the declarations that the trees place. -/
theorem mem_entries_ofTrees {trees : List SourceTree} {e : PlacedDeclaration} :
    e ∈ (ofTrees trees).entries ↔ ∃ number, ∃ tree : SourceTree, trees[number]? = some tree ∧
      e ∈ tree.file.placed number (ofTrees trees).globalUsings := by
  simp only [ofTrees, List.mem_flatMap, Prod.exists, List.mem_zipIdx_iff_getElem?]
  constructor
  · rintro ⟨tree, number, htree, he⟩
    exact ⟨number, tree, htree, he⟩
  · rintro ⟨number, tree, htree, he⟩
    exact ⟨tree, number, htree, he⟩

/-- What is found in a table is one of its entries. -/
theorem mem_entries_of_get? {table : DeclarationTable} {number : Nat} {d : TypeDeclaration}
    {e : PlacedDeclaration} (h : table.get? number d = some e) : e ∈ table.entries :=
  List.mem_of_find?_eq_some (Option.eq_some_of_filter_eq_some h)

/-- A declaration is found under the number of its tree and its ordinal. -/
theorem get?_ofTrees {trees : List SourceTree} {number : Nat} {tree : SourceTree}
    (htree : trees[number]? = some tree) (hnodup : (tree.types.map (·.ordinal)).Nodup)
    {e : PlacedDeclaration} (he : e ∈ tree.file.placed number (ofTrees trees).globalUsings) :
    (ofTrees trees).get? number e.declaration = some e := by
  have hunique : ∀ other ∈ (ofTrees trees).entries, other.tree = number →
      other.declaration.ordinal = e.declaration.ordinal → other = e := by
    intro other hother hnumber hordinal
    obtain ⟨number', tree', htree', hplaced⟩ := mem_entries_ofTrees.1 hother
    obtain rfl : number' = number := (mem_placedOf hplaced).1.symm.trans hnumber
    obtain rfl : tree' = tree := Option.some.inj (htree'.symm.trans htree)
    have hordinals : ((tree'.file.placed number' (ofTrees trees).globalUsings).map
        (·.declaration.ordinal)).Nodup := by
      have hplacedTypes := map_declaration_placedOf number'
        [⟨.global, Level.localUsings tree'.file.usings ++ (ofTrees trees).globalUsings⟩]
        tree'.file.members
      rw [SourceTree.types, SourceFile.types, ← hplacedTypes, List.map_map] at hnodup
      exact hnodup
    exact List.inj_on_of_nodup_map hordinals hplaced he hordinal
  -- The search stops at an entry with the number and the ordinal, and there is no other one.
  have hentry : e ∈ (ofTrees trees).entries := mem_entries_ofTrees.2 ⟨number, tree, htree, he⟩
  obtain ⟨hnumber, hsymbol⟩ := mem_placedOf he
  have hfind : (ofTrees trees).entries.find? (fun other ↦
      other.tree = number && other.declaration.ordinal = e.declaration.ordinal) = some e := by
    cases hfound : (ofTrees trees).entries.find? (fun other ↦
        other.tree = number && other.declaration.ordinal = e.declaration.ordinal) with
    | none => simpa [hnumber] using List.find?_eq_none.1 hfound e hentry
    | some other =>
      have hother := List.find?_some hfound
      simp only [Bool.and_eq_true, decide_eq_true_eq] at hother
      rw [hunique other (List.mem_of_find?_eq_some hfound) hother.1 hother.2]
  have hname : e.symbol.name = e.declaration.name := by
    rw [hsymbol]
    rfl
  rw [get?, hfind, Option.filter_some, hname]
  simp

end DeclarationTable

end DoubleDispatch
