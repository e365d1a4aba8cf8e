import DoubleDispatch.Proofs.FileTree.Walk
import DoubleDispatch.Toolkit.Standard

/-!
# What tools promise

Most of what is said of runs holds whatever the tools do. Where it matters what is listed below a
directory, the tools have to list just what is there, though in any order; the standard ones do
(`listsEntries_standard`).
-/

namespace DoubleDispatch.Toolkit

/-- In a tree of files and directories, the tools list for a directory its own path and the paths of
all that is below it, each behind the path as it was given. -/
def ListsEntries (tools : Toolkit) : Prop :=
  ∀ (t : FileTree) (p : Path) (d : Place), t.IsPlain → t.resolve p = .directory d →
    ∀ q, q ∈ tools.entries t p ↔ ∃ names, q = p.descend names ∧ t.get? (d ++ names) ≠ none

/-- **The standard tools** list what is there. -/
theorem listsEntries_standard : standard.ListsEntries :=
  fun _ _ _ h hp _ ↦ FileTree.mem_walk_iff h hp

end DoubleDispatch.Toolkit
