import DoubleDispatch.Binding.Table

/-!
# Compilations

The trees of a program, numbered by their place in the list, and a semantic model for them.
-/

namespace DoubleDispatch

/-- Trees in the order they are visited, and the answers about them. -/
structure Compilation where
  trees : List SourceTree
  model : SemanticModel

namespace Compilation

/-- The compilation of trees whose questions their own declarations answer. -/
def ofTrees (trees : List SourceTree) : Compilation :=
  ⟨trees, (DeclarationTable.ofTrees trees).model⟩

/-- The trees with their numbers. -/
def numbered (c : Compilation) : List (SourceTree × Nat) := c.trees.zipIdx

/-- The tree with the given number. -/
def tree? (c : Compilation) (number : Nat) : Option SourceTree := c.trees[number]?

/-- Every type declaration with the number of its tree, trees in order, each in source order. -/
def declarations (c : Compilation) : List (Nat × TypeDeclaration) :=
  c.numbered.flatMap fun (tree, number) ↦ tree.types.map (number, ·)

end Compilation

/-- Reads files in order; the first that cannot be read decides. -/
def parseAll (sources : List (String × String)) : Except SourceError (List SourceTree) :=
  sources.mapM fun (path, source) ↦ SourceTree.parse path source

end DoubleDispatch
