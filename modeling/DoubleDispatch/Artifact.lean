/-!
# Artifacts

A generated source under the name of its file, and the store that holds artifacts in the order in
which they were handed over.
-/

namespace DoubleDispatch

/-- A generated source. -/
structure Artifact where
  name : String
  text : String
deriving DecidableEq, Repr, Inhabited

/-- Artifacts in the order they were added. -/
structure ArtifactStore where
  artifacts : List Artifact
deriving DecidableEq, Repr, Inhabited

namespace ArtifactStore

/-- The store that holds nothing. -/
def empty : ArtifactStore := ⟨[]⟩

/-- The store with one more artifact at its end. -/
def add (store : ArtifactStore) (a : Artifact) : ArtifactStore := ⟨store.artifacts ++ [a]⟩

/-- The first artifact with a name. -/
def get? (store : ArtifactStore) (name : String) : Option Artifact :=
  store.artifacts.find? (·.name = name)

/-- The names in order. -/
def names (store : ArtifactStore) : List String := store.artifacts.map (·.name)

/-- The number of artifacts. -/
def size (store : ArtifactStore) : Nat := store.artifacts.length

/-- Whether the store holds nothing. -/
def isEmpty (store : ArtifactStore) : Bool := store.artifacts.isEmpty

/-- The name of an artifact that is added comes last. -/
@[simp] theorem names_add (store : ArtifactStore) (a : Artifact) :
    (store.add a).names = store.names ++ [a.name] := by
  simp [add, names]

end ArtifactStore

end DoubleDispatch
