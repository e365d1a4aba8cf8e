import DoubleDispatch.Proofs.Binding.Enclosure
import DoubleDispatch.Proofs.Parsing.Ordinals
import Mathlib.Data.Finset.Card

/-!
# Identities of declarations

The table tells declarations apart by the numbers of their trees and their ordinals, and the parser
gives every declaration of a source an ordinal of its own. So each declaration of a program that is
read has its own symbol, made from what is written: the name, the kind and the type parameters of
the declaration, and the names of the namespaces around it
(`DeclarationTable.declaredSymbol?_of_parseAll`).
-/

namespace DoubleDispatch

/-- The symbols of all declarations, trees in order, each in source order. -/
def Compilation.declaredSymbols (c : Compilation) : List Symbol :=
  c.declarations.filterMap fun e ↦ c.model.declaredSymbol? e.1 e.2

theorem nodup_eraseDups {α : Type} [BEq α] [LawfulBEq α] (l : List α) : l.eraseDups.Nodup := by
  induction hn : l.length using Nat.strongRecOn generalizing l with
  | ind n ih =>
    subst hn
    cases l with
    | nil => exact List.nodup_nil
    | cons a l =>
      rw [List.eraseDups_cons, List.nodup_cons]
      have hlt : (l.filter fun b ↦ !b == a).length < (a :: l).length :=
        Nat.lt_succ_of_le (List.length_filter_le _ _)
      exact ⟨by simp [List.mem_eraseDups], ih _ hlt _ rfl⟩

namespace DeclarationTable

variable {trees : List SourceTree}

/-- Every declaration has the symbol with which it is placed. -/
theorem declaredSymbol?_of_placed (hordinals : ∀ tree ∈ trees, (tree.types.map (·.ordinal)).Nodup)
    {number : Nat} {tree : SourceTree} (htree : trees[number]? = some tree)
    {e : PlacedDeclaration} (he : e ∈ tree.file.placed number (ofTrees trees).globalUsings) :
    (ofTrees trees).model.declaredSymbol? number e.declaration = some e.symbol := by
  have hget := get?_ofTrees htree (hordinals tree (List.mem_of_getElem? htree)) he
  show ((ofTrees trees).get? number e.declaration).map (·.symbol) = _
  rw [hget]
  rfl

/-- The entries of the table have the symbols of the declarations, one by one. -/
theorem map_symbol_entries (hordinals : ∀ tree ∈ trees, (tree.types.map (·.ordinal)).Nodup) :
    (ofTrees trees).entries.map (·.symbol) = (Compilation.ofTrees trees).declaredSymbols := by
  have htree : ∀ t ∈ trees.zipIdx,
      (t.1.file.placed t.2 (ofTrees trees).globalUsings).map (·.symbol) =
        (t.1.types.map fun d ↦ (t.2, d)).filterMap
          fun e ↦ (ofTrees trees).model.declaredSymbol? e.1 e.2 := by
    intro t ht
    have hplaced : t.1.types =
        (t.1.file.placed t.2 (ofTrees trees).globalUsings).map (·.declaration) :=
      (map_declaration_placedOf _ _ _).symm
    rw [hplaced, List.map_map, List.filterMap_map]
    exact (List.filterMap_eq_map_iff_forall_eq_some.2 fun e he ↦
      declaredSymbol?_of_placed hordinals (List.mem_zipIdx_iff_getElem?.1 ht) he).symm
  calc (ofTrees trees).entries.map (·.symbol)
      = trees.zipIdx.flatMap fun t ↦
          (t.1.file.placed t.2 (ofTrees trees).globalUsings).map (·.symbol) := List.map_flatMap
    _ = trees.zipIdx.flatMap fun t ↦ (t.1.types.map fun d ↦ (t.2, d)).filterMap
          fun e ↦ (ofTrees trees).model.declaredSymbol? e.1 e.2 := List.flatMap_congr htree
    _ = (Compilation.ofTrees trees).declaredSymbols := List.filterMap_flatMap.symm

/-- Its symbol is made from the namespaces in which a declaration stands. -/
theorem declaredSymbol?_of_standsInside
    (hordinals : ∀ tree ∈ trees, (tree.types.map (·.ordinal)).Nodup)
    {number : Nat} {tree : SourceTree} (htree : trees[number]? = some tree)
    {around : List Enclosure} {d : TypeDeclaration}
    (h : StandsInside tree.file.members around d) :
    (ofTrees trees).model.declaredSymbol? number d =
      some (.ofDeclaration (.join (around.map (·.name))) d) := by
  have hglobal : (Level.mk .global
      (Level.localUsings tree.file.usings ++ (ofTrees trees).globalUsings)).ns = .global := rfl
  have hinnermost := Level.innermost_inside hglobal around
  rw [← hinnermost]
  exact declaredSymbol?_of_placed hordinals htree (h.mem_placedOf number _)

/-- **Every declaration that is read has its own symbol.** The `k`-th type of each tree has the
ordinal `k`, and the symbol with the name, the kind and the number of type parameters that are
written, in the namespace with the names of the namespaces around it. The table counts the different
ids, and gives for each id the symbol of its first declaration. -/
theorem declaredSymbol?_of_parseAll {sources : List (String × String)}
    (h : parseAll sources = .ok trees) :
    let table := ofTrees trees
    let symbols := (Compilation.ofTrees trees).declaredSymbols
    (∀ number tree, trees[number]? = some tree → ∀ k d, tree.types[k]? = some d →
      d.ordinal = k ∧ (∃ around, StandsInside tree.file.members around d) ∧
      ∀ around, StandsInside tree.file.members around d →
        let ns := Namespace.join (around.map (·.name))
        table.model.declaredSymbol? number d =
          some ⟨.ofParts ns d.name d.arity, d.name, ns, d.kind, d.arity⟩) ∧
    table.size = (symbols.map (·.id)).toFinset.card ∧
    ∀ id, table.symbol? id = symbols.find? (·.id = id) := by
  have hparsed := map_ordinal_of_parseAll h
  have hordinals : ∀ tree ∈ trees, (tree.types.map (·.ordinal)).Nodup := by
    intro tree htree
    rw [hparsed tree htree]
    exact List.nodup_range
  have hsymbols := map_symbol_entries hordinals
  refine ⟨fun number tree htree k d hd ↦ ⟨?_, ?_, fun around haround ↦ ?_⟩, ?_, fun id ↦ ?_⟩
  · have hk : (tree.types.map (·.ordinal))[k]? = some d.ordinal := by
      rw [List.getElem?_map, hd]
      rfl
    rw [hparsed tree (List.mem_of_getElem? htree)] at hk
    exact (List.getElem?_eq_some_iff.1 hk).elim fun _ heq ↦ by simpa using heq.symm
  · have hmem : d ∈ (tree.file.placed number (ofTrees trees).globalUsings).map (·.declaration) := by
      rw [SourceFile.placed, map_declaration_placedOf]
      exact List.mem_of_getElem? hd
    obtain ⟨e, he, rfl⟩ := List.mem_map.1 hmem
    obtain ⟨around, haround, -⟩ := exists_standsInside he
    exact ⟨around, haround⟩
  · exact declaredSymbol?_of_standsInside hordinals htree haround
  · rw [← hsymbols, List.map_map, size, ids, ← List.toFinset_card_of_nodup (nodup_eraseDups _)]
    congr 1
    ext id
    simp [List.mem_eraseDups]
  · rw [symbol?, ← hsymbols, List.find?_map]
    rfl

/-- Two files that continue one type, in namespaces of both forms. -/
def continuedSample : List (String × String) :=
  [("A.cs",
    "namespace P.Q \x7b partial class A<T>; public X(); namespace R \x7b enum E; \x7d \x7d " ++
      "class S;"),
   ("B.cs", "namespace P.Q; public partial class A<U>;")]

/-- Four declarations have three ids; the second type of the first file has the ordinal one. -/
theorem declaredSymbol?_of_parseAll_continuedSample :
    ∃ trees, parseAll continuedSample = .ok trees ∧
      (Compilation.ofTrees trees).declaredSymbols.map (·.id) =
        [⟨"P.Q.A`1"⟩, ⟨"P.Q.R.E"⟩, ⟨"S"⟩, ⟨"P.Q.A`1"⟩] ∧
      (ofTrees trees).size = 3 ∧
      ∀ tree, trees[0]? = some tree → ∀ d, tree.types[1]? = some d → d.ordinal = 1 ∧
        ∀ around, StandsInside tree.file.members around d →
          let ns := Namespace.join (around.map (·.name))
          (ofTrees trees).model.declaredSymbol? 0 d =
            some ⟨.ofParts ns d.name d.arity, d.name, ns, d.kind, d.arity⟩ := by
  have hids : (parseAll continuedSample).toOption.map (fun trees ↦
      (Compilation.ofTrees trees).declaredSymbols.map (·.id)) =
        some [⟨"P.Q.A`1"⟩, ⟨"P.Q.R.E"⟩, ⟨"S"⟩, ⟨"P.Q.A`1"⟩] := by decide +kernel
  obtain ⟨trees, htrees, hids⟩ := Option.map_eq_some_iff.1 hids
  obtain ⟨hdeclared, hsize, -⟩ := declaredSymbol?_of_parseAll (eq_ok_of_toOption htrees)
  refine ⟨trees, eq_ok_of_toOption htrees, hids, ?_, fun tree htree d hd ↦ ?_⟩
  · rw [hsize, hids]
    decide
  · obtain ⟨hordinal, -, hsymbol⟩ := hdeclared 0 tree htree 1 d hd
    exact ⟨hordinal, hsymbol⟩

end DeclarationTable

end DoubleDispatch
