import DoubleDispatch.Proofs.Binding.SymbolIds
import DoubleDispatch.Proofs.Hierarchy.Discovery

/-!
# Participants and their ids

What is found in a program that answers from its own trees has the id of its namespace, its name and
its type parameters (`Compilation.Found.id_eq`). Its name is an identifier, so the id says what the
participant is (`SymbolId.ofParts_inj`).
-/

namespace DoubleDispatch

/-- A declaration that stands in a tree is one of its types. -/
theorem StandsAt.mem_typesOf {ms : List Member} {path : List Nat} {d : TypeDeclaration}
    (h : StandsAt ms path d) : d ∈ typesOf ms := by
  obtain ⟨k, rest, rfl⟩ := h.exists_cons
  rw [← map_snd_placesFrom 0]
  exact List.mem_map.2 ⟨(k :: rest, d), (mem_placesFrom_iff 0 _ _).2 ⟨k, rest, by simp, h⟩, rfl⟩

namespace DeclarationTable

/-- The symbol of a declaration is made from it and the namespace around it. -/
theorem exists_declaredSymbol?_ofTrees {trees : List SourceTree} {number : Nat} {tree : SourceTree}
    (htree : trees[number]? = some tree) (hnodup : (tree.types.map (·.ordinal)).Nodup)
    {d : TypeDeclaration} (hd : d ∈ tree.types) :
    ∃ ns, (ofTrees trees).model.declaredSymbol? number d = some (.ofDeclaration ns d) := by
  rw [SourceTree.types, SourceFile.types, ← map_declaration_placedOf number
    [⟨.global, Level.localUsings tree.file.usings ++ (ofTrees trees).globalUsings⟩]] at hd
  obtain ⟨e, he, rfl⟩ := List.mem_map.1 hd
  refine ⟨Level.innermost e.levels, ?_⟩
  rw [← (mem_placedOf he).2]
  exact congrArg (Option.map _) (get?_ofTrees htree hnodup he)

end DeclarationTable

/-- The id of what is found in trees says its namespace, its name and its type parameters. -/
theorem Compilation.Found.id_eq {trees : List SourceTree}
    (hnodup : ∀ tree ∈ trees, (tree.types.map (·.ordinal)).Nodup)
    {qualifies : Nat → TypeDeclaration → Prop} {participants : List Participant}
    (hfound : (ofTrees trees).Found qualifies participants) {p : Participant}
    (hp : p ∈ participants) :
    p.id = .ofParts p.ns p.name p.typeParameters.length := by
  obtain ⟨place, -, d, symbol, ⟨tree, htree, hstands⟩, hsymbol, hname, hns, hid, -, hparameters⟩ :=
    hfound.shown p hp
  obtain ⟨ns, hdeclared⟩ := DeclarationTable.exists_declaredSymbol?_ofTrees htree
    (hnodup tree (List.mem_of_getElem? htree)) hstands.mem_typesOf
  obtain rfl : Symbol.ofDeclaration ns d = symbol :=
    Option.some.inj (hdeclared.symm.trans hsymbol)
  rw [hid, hns, hname, hparameters]
  rfl

/-- What is found in files that are read has a name. -/
theorem Compilation.Found.isIdentifier_name {trees : List SourceTree}
    (hnames : ∀ tree ∈ trees, ∀ d ∈ tree.types, Text.isIdentifier d.name.toList)
    {qualifies : Nat → TypeDeclaration → Prop} {participants : List Participant}
    (hfound : (ofTrees trees).Found qualifies participants) {p : Participant}
    (hp : p ∈ participants) : Text.isIdentifier p.name.toList := by
  obtain ⟨place, -, d, symbol, ⟨tree, htree, hstands⟩, -, hname, -⟩ := hfound.shown p hp
  rw [hname]
  exact hnames tree (List.mem_of_getElem? htree) d hstands.mem_typesOf

end DoubleDispatch
