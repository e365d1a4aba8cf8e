import DoubleDispatch.Symbol

/-!
# Semantic models

A semantic model answers three questions about a type declaration in a numbered tree: which symbol
it declares, which type one of its attributes names, and which type one of its base entries names.
It may leave a question unanswered, because the name is unknown or ambiguous.
-/

namespace DoubleDispatch

/-- Answers to questions about the declarations of numbered trees. -/
structure SemanticModel where
  declaredSymbol? : Nat → TypeDeclaration → Option Symbol
  attributeType? : Nat → TypeDeclaration → Attribute → Option SymbolId
  baseType? : Nat → TypeDeclaration → BaseEntry → Option SymbolId

end DoubleDispatch
