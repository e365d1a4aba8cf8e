import DoubleDispatch.Compilation
import DoubleDispatch.Hierarchy
import DoubleDispatch.Marker
import DoubleDispatch.Settings

/-!
# Finding hierarchies

Which interfaces of a compilation are roots, and which types implement one. Partial declarations of
one symbol are one participant, which stands where its first qualifying declaration does; it has
the accessibility that this declaration states, or else the first that any declaration states.
-/

namespace DoubleDispatch

/-- A type declaration in its tree. -/
structure Site where
  tree : SourceTree
  number : Nat
  declaration : TypeDeclaration
deriving Repr, Inhabited

namespace Site

/-- The place of the declared name. -/
def location (s : Site) : Location := s.tree.location s.declaration.nameSpan

/-- The symbol declared here. -/
def symbol? (m : SemanticModel) (s : Site) : Option Symbol :=
  m.declaredSymbol? s.number s.declaration

/-- The participant that the declaration shows, if the model knows its symbol. -/
def participant? (m : SemanticModel) (s : Site) : Option Participant :=
  (s.symbol? m).map fun symbol ↦ {
    name := s.declaration.name
    ns := symbol.ns
    id := symbol.id
    kind := s.declaration.kind
    accessibility := s.declaration.accessibility?
    typeParameters := s.declaration.typeParameters
    location := s.location
  }

/-- Whether an attribute of the declaration is the marker. -/
def hasMarker (m : SemanticModel) (s : Site) (a : Attribute) : Bool :=
  m.attributeType? s.number s.declaration a == some Marker.id

/-- Whether the declaration carries the marker. -/
def isMarked (m : SemanticModel) (s : Site) : Bool := s.declaration.attributes.any (s.hasMarker m)

/-- Whether the declaration is one of an interface. -/
def isInterface (s : Site) : Bool := s.declaration.kind == .interfaceType

/-- Whether the declaration is one of a type that can implement an interface. -/
def isImplementor (s : Site) : Bool := s.declaration.kind.isImplementor

/-- Whether the declaration makes its symbol a root. A type that only its own file sees is none. -/
def isRootFragment (m : SemanticModel) (s : Site) : Bool :=
  s.isInterface && s.isMarked m && !s.declaration.isFileLocal

/-- Whether a base entry names a root. -/
def namesRoot (matching : Matching) (m : SemanticModel) (root : Participant) (s : Site)
    (b : BaseEntry) : Bool :=
  match matching with
  | .syntactic => b.simpleName? == some root.name
  | .semantic => m.baseType? s.number s.declaration b == some root.id

/-- Whether the base list names a root. -/
def listsRoot (matching : Matching) (m : SemanticModel) (root : Participant) (s : Site) : Bool :=
  s.declaration.bases.any (s.namesRoot matching m root)

/-- Whether the declaration makes its symbol an implementing type of a root. -/
def isTypeFragment (matching : Matching) (m : SemanticModel) (root : Participant) (s : Site) :
    Bool :=
  s.isImplementor && s.listsRoot matching m root && !s.declaration.isFileLocal

end Site

/-- The type declarations of a numbered tree. -/
def SourceTree.sites (tree : SourceTree) (number : Nat) : List Site :=
  tree.types.map (⟨tree, number, ·⟩)

/-- The type declarations of a compilation, trees in order, each in source order. -/
def Compilation.sites (c : Compilation) : List Site :=
  c.numbered.flatMap fun (tree, number) ↦ tree.sites number

/-- The participants without those whose symbol an earlier one has. -/
def firstOfEach : List Participant → List Participant
  | [] => []
  | p :: ps => p :: (firstOfEach ps).filter (·.id != p.id)

/-- The accessibility that the first of the declarations of a symbol states which states one. -/
def statedAccessibility? (m : SemanticModel) (sites : List Site) (id : SymbolId) :
    Option String :=
  sites.findSome? fun s ↦
    match s.declaration.accessibility? with
    | none => none
    | some words => if (s.symbol? m).map (·.id) = some id then some words else none

/-- The participant with the accessibility that one of the given declarations states, if it states
none itself. -/
def Participant.completed (m : SemanticModel) (sites : List Site) (p : Participant) :
    Participant :=
  { p with accessibility := p.accessibility <|> statedAccessibility? m sites p.id }

namespace Compilation

/-- The roots, in the order of their first marked declarations. -/
def roots (c : Compilation) : List Participant :=
  let fragments := c.sites.filter (·.isRootFragment c.model)
  (firstOfEach (fragments.filterMap (·.participant? c.model))).map
    (·.completed c.model (c.sites.filter (·.isInterface)))

/-- The types that implement a root, in the order of their first qualifying declarations. -/
def implementors (c : Compilation) (matching : Matching) (root : Participant) :
    List Participant :=
  let fragments := c.sites.filter (·.isTypeFragment matching c.model root)
  (firstOfEach (fragments.filterMap (·.participant? c.model))).map
    (·.completed c.model (c.sites.filter (·.isImplementor)))

/-- The namespaces of the types other than that of the root and the global one, each once. -/
def imports (root : Participant) (types : List Participant) : List String :=
  ((types.filter (·.ns != root.ns)).filterMap (·.ns.name?)).eraseDups

/-- The hierarchy of a root. -/
def hierarchy (c : Compilation) (matching : Matching) (root : Participant) : Hierarchy :=
  let types := c.implementors matching root
  ⟨root, types, imports root types⟩

end Compilation

end DoubleDispatch
