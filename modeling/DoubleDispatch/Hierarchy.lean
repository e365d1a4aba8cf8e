import DoubleDispatch.Source.Location
import DoubleDispatch.Symbol

/-!
# Hierarchies

A marked interface, its root, together with the types that implement it. For each hierarchy two
contracts are generated, one whose visits give a value and one whose visits give none.
-/

namespace DoubleDispatch

/-- A root or an implementing type, as the first of its declarations shows it. The accessibility
may come from another one. -/
structure Participant where
  name : String
  ns : Namespace
  id : SymbolId
  kind : TypeKind
  accessibility : Option String
  typeParameters : List String
  location : Location
deriving DecidableEq, Repr, Inhabited

namespace Participant

/-- Whether everybody may see the type. -/
def isPublic (p : Participant) : Bool := p.accessibility == some "public"

/-- The name of both contracts of a root. -/
def visitorName (root : Participant) : String := root.name ++ "Visitor"

end Participant

/-- The two contracts of a hierarchy. -/
inductive Contract where
  /-- Visits give a value. -/
  | value
  /-- Visits give nothing. -/
  | void
deriving DecidableEq, Repr, Inhabited

namespace Contract

/-- Both contracts, in the order they are written. -/
def all : List Contract := [value, void]

/-- How the contract is referred to. -/
def reference (contract : Contract) (root : Participant) : String :=
  match contract with
  | value => root.visitorName ++ "<T>"
  | void => root.visitorName

/-- What a visit gives. -/
def returnType : Contract → String
  | value => "T"
  | void => "void"

/-- The type parameters that the value of a visit needs. -/
def typeParameters : Contract → List String
  | value => ["T"]
  | void => []

end Contract

/-- A root, the types that implement it, and the namespaces that its contracts import. -/
structure Hierarchy where
  root : Participant
  types : List Participant
  usings : List String
deriving DecidableEq, Repr, Inhabited

namespace Hierarchy

/-- Whether the contracts must be public: they stand in the signatures of the root and of every
implementing type, so one public type among these is enough. -/
def contractsPublic (h : Hierarchy) : Bool := h.root.isPublic || h.types.any (·.isPublic)

/-- The types that public contracts mention although not everybody may see them. -/
def lessAccessible (h : Hierarchy) : List Participant :=
  h.types.filter fun p ↦ h.contractsPublic && !p.isPublic

end Hierarchy

end DoubleDispatch
