import DoubleDispatch.Hierarchy.Discovery
import DoubleDispatch.Pass.Event

/-!
# The events behind a discovery

Which questions are asked of the model, and what is logged, while roots and implementing types are
found. The traces are cut at the trees of the compilation, since a pass looks at its cancellation
token before each tree.
-/

namespace DoubleDispatch

/-- The elements up to and including the first with a property: those that a search looks at. -/
def searched {α : Type} (p : α → Bool) : List α → List α
  | [] => []
  | a :: as => if p a then [a] else a :: searched p as

namespace Site

/-- The question which symbol is declared here. -/
def symbolQuestion (s : Site) : Event := .asked (.symbol s.number s.declaration)

/-- The questions about attributes, up to the one that is the marker. -/
def markerQuestions (m : SemanticModel) (s : Site) : List Event :=
  (searched (s.hasMarker m) s.declaration.attributes).map fun a ↦
    .asked (.attributeType s.number s.declaration a)

/-- The questions about base entries, up to the one that names the root. -/
def rootQuestions (matching : Matching) (m : SemanticModel) (root : Participant) (s : Site) :
    List Event :=
  match matching with
  | .syntactic => []
  | .semantic =>
    (searched (s.namesRoot .semantic m root) s.declaration.bases).map fun b ↦
      .asked (.baseType s.number s.declaration b)

/-- The question asked of a declaration that states an accessibility, namely whose it is. -/
def accessibilityQuestion (s : Site) : List Event :=
  if s.declaration.accessibility?.isSome then [s.symbolQuestion] else []

/-- What happens when a marked interface is found; `seen` are the ids of the roots before it. -/
def rootTrace (m : SemanticModel) (seen : List SymbolId) (s : Site) : List Event :=
  if s.declaration.isFileLocal then [.logged (.fileLocalRoot s.location)]
  else
    let entry := match s.symbol? m with
      | none => .unknownRoot s.declaration.name s.location
      | some symbol =>
        if seen.contains symbol.id then .mergedRoot symbol.id s.location
        else .foundRoot symbol.id s.location
    [s.symbolQuestion, .logged entry]

/-- What happens when a declaration is looked at in the search for roots. -/
def scanTrace (m : SemanticModel) (seen : List SymbolId) (s : Site) : List Event :=
  if s.isInterface then
    s.accessibilityQuestion ++ s.markerQuestions m ++
      (if s.isMarked m then s.rootTrace m seen else [])
  else []

/-- The ids of the roots once the declaration has been looked at. -/
def seenAfter (m : SemanticModel) (seen : List SymbolId) (s : Site) : List SymbolId :=
  if s.isRootFragment m then ((s.symbol? m).map (·.id)).toList ++ seen else seen

/-- What happens when a declaration is looked at in the search for the types of a root. -/
def walkTrace (matching : Matching) (m : SemanticModel) (root : Participant) (s : Site) :
    List Event :=
  if s.isImplementor then
    s.rootQuestions matching m root ++
      (if s.listsRoot matching m root && s.declaration.isFileLocal then
        [.logged (.fileLocalType root.id s.location)]
      else [])
  else []

/-- What happens when a declaration that lists the root is resolved; `seen` are the ids of the
types before it. -/
def typeTrace (m : SemanticModel) (root : Participant) (seen : List SymbolId) (s : Site) :
    List Event :=
  s.symbolQuestion ::
    match s.symbol? m with
    | none => [.logged (.unknownType s.declaration.name s.location)]
    | some symbol =>
      if seen.contains symbol.id then []
      else [.logged (.foundType root.id symbol.id s.location)]

end Site

/-- The trace of the search for roots in the declarations of one tree, and the ids of the roots
behind it. -/
def scanSites (m : SemanticModel) (seen : List SymbolId) : List Site → List Event × List SymbolId
  | [] => ([], seen)
  | s :: sites =>
    let (events, last) := scanSites m (s.seenAfter m seen) sites
    (s.scanTrace m seen ++ events, last)

/-- The traces of the search for roots, tree by tree. -/
def scanTrees (m : SemanticModel) (seen : List SymbolId) : List (SourceTree × Nat) →
    List (List Event)
  | [] => []
  | (tree, number) :: trees =>
    let (events, last) := scanSites m seen (tree.sites number)
    events :: scanTrees m last trees

/-- The trace of the resolution of the declarations that list a root. -/
def resolveTrace (m : SemanticModel) (root : Participant) (seen : List SymbolId) :
    List Site → List Event
  | [] => []
  | s :: sites =>
    s.typeTrace m root seen ++
      resolveTrace m root (((s.symbol? m).map (·.id)).toList ++ seen) sites

namespace Compilation

/-- The traces of the search for roots, tree by tree. -/
def scanTraces (c : Compilation) : List (List Event) := scanTrees c.model [] c.numbered

/-- The traces of the search for the types of a root, tree by tree, each with the path of its
tree. -/
def walkTraces (c : Compilation) (matching : Matching) (root : Participant) :
    List (String × List Event) :=
  c.numbered.map fun (tree, number) ↦
    (tree.path, (tree.sites number).flatMap (·.walkTrace matching c.model root))

/-- What happens between the search for the types of a root and the end of its work. The other
declarations of the types are asked for their accessibility only if a type lacks one. -/
def hierarchyTrace (c : Compilation) (matching : Matching) (root : Participant) : List Event :=
  let fragments := c.sites.filter (·.isTypeFragment matching c.model root)
  let found := firstOfEach (fragments.filterMap (·.participant? c.model))
  let h := c.hierarchy matching root
  resolveTrace c.model root [] fragments ++
    (if found.any (·.accessibility.isNone) then
      (c.sites.filter (·.isImplementor)).flatMap (·.accessibilityQuestion)
    else []) ++
    (if h.types.isEmpty then [.logged (.noTypes root.id root.location)]
    else
      h.lessAccessible.map (fun p ↦ .logged (.lessAccessibleType root.id p.id p.location)) ++
        [.logged (.emittedHierarchy root.id h.types.length h.usings.length)])

end Compilation

end DoubleDispatch
