import DoubleDispatch.Emission.Item
import DoubleDispatch.Hierarchy
import DoubleDispatch.Text.Split

/-!
# What is generated for a hierarchy

Every implementing type is continued by a partial declaration that adds one `Accept` method for
each contract. The root is continued by the signatures of these methods, followed by the contracts,
which have a `Visit` method for each implementing type.
-/

namespace DoubleDispatch

/-- The words of a stated accessibility. -/
def accessibilityWords (accessibility : Option String) : List String :=
  match accessibility with
  | some words => (Text.words words.toList).map String.ofList
  | none => []

/-- The modifiers of a declaration that continues a type. -/
def partialModifiers (accessibility : Option String) : List String :=
  accessibilityWords accessibility ++ ["partial"]

namespace Contract

/-- The method by which a type takes a visitor. -/
def acceptMethod (contract : Contract) (root : Participant) (modifiers : List String)
    (expression : Option String) : Method where
  modifiers := modifiers
  returnType := contract.returnType
  name := "Accept"
  typeParameters := contract.typeParameters
  parameters := [⟨contract.reference root, "visitor"⟩]
  expression := expression

/-- The method by which a visitor visits a type. -/
def visitMethod (contract : Contract) (type : Participant) : Method where
  modifiers := []
  returnType := contract.returnType
  name := "Visit"
  typeParameters := []
  parameters := [⟨type.name, "node"⟩]
  expression := none

/-- The declaration of the contract. -/
def declaration (contract : Contract) (h : Hierarchy) : TypeBlock where
  modifiers := if h.contractsPublic then ["public"] else accessibilityWords h.root.accessibility
  keyword := "interface"
  name := h.root.visitorName
  typeParameters := contract.typeParameters
  methods := h.types.map contract.visitMethod

end Contract

namespace Participant

/-- The declaration that continues a type. -/
def continuation (p : Participant) (methods : List Method) : TypeBlock where
  modifiers := partialModifiers p.accessibility
  keyword := p.kind.keyword
  name := p.name
  typeParameters := p.typeParameters
  methods := methods

/-- The file that continues an implementing type. -/
def augmentation (type root : Participant) : GeneratedFile where
  usings := []
  items :=
    let methods := Contract.all.map
      (·.acceptMethod root ["public"] (some "visitor.Visit(this)"))
    Item.within type.ns.name? [.type (type.continuation methods)]

/-- The bases of file names that an implementing type asks for, the most preferred first. -/
def candidates (type root : Participant) : List String :=
  match type.ns.name? with
  | some ns => [type.name, ns ++ "." ++ type.name, ns ++ "." ++ type.name ++ "." ++ root.name]
  | none => [type.name, type.name ++ "." ++ root.name]

/-- The bases of file names that a root asks for, the most preferred first. -/
def rootCandidates (root : Participant) : List String :=
  match root.ns.name? with
  | some ns => [root.visitorName, ns ++ "." ++ root.visitorName]
  | none => [root.visitorName]

end Participant

/-- A text that still lacks its name. -/
structure PendingArtifact where
  candidates : List String
  text : String
deriving DecidableEq, Repr, Inhabited

namespace Hierarchy

/-- The file that continues the root and declares the contracts. -/
def rootFile (h : Hierarchy) : GeneratedFile where
  usings := h.usings
  items :=
    let signatures := Contract.all.map (·.acceptMethod h.root [] none)
    let root := { h.root with kind := .interfaceType }
    let blocks := root.continuation signatures :: Contract.all.map (·.declaration h)
    Item.within h.root.ns.name? (blocks.map .type)

/-- What is generated: for the types in order, then for the root. Nothing is generated for a root
that no type implements. -/
def pending (h : Hierarchy) : List PendingArtifact :=
  if h.types.isEmpty then []
  else
    h.types.map (fun p ↦ ⟨p.candidates h.root, (p.augmentation h.root).render⟩) ++
      [⟨h.root.rootCandidates, h.rootFile.render⟩]

end Hierarchy

end DoubleDispatch
