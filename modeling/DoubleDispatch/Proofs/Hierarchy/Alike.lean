import DoubleDispatch.Pass
import DoubleDispatch.Proofs.Binding.Readings

/-!
# Compilations that correspond

Two compilations correspond if their trees match but for names of which the same is read, and their
models give the same answers. What is found in them differs only in locations
(`Compilation.Alike.map_hierarchy_roots`), and locations are not generated
(`Hierarchy.pending_withoutLocations`).
-/

namespace DoubleDispatch

/-! ### What does not depend on locations -/

/-- The participant without the place of its declaration. -/
def Participant.withoutLocation (p : Participant) : Participant := { p with location := default }

namespace Hierarchy

/-- The hierarchy without the places of its declarations. -/
def withoutLocations (h : Hierarchy) : Hierarchy where
  root := h.root.withoutLocation
  types := h.types.map (·.withoutLocation)
  usings := h.usings

/-- Whether contracts are public does not depend on where types are declared. -/
theorem contractsPublic_withoutLocations (h : Hierarchy) :
    h.withoutLocations.contractsPublic = h.contractsPublic := by
  rw [contractsPublic, contractsPublic, withoutLocations, List.any_map]
  rfl

/-- The file of a root does not depend on where types are declared. -/
theorem rootFile_withoutLocations (h : Hierarchy) : h.withoutLocations.rootFile = h.rootFile := by
  have hdeclaration (contract : Contract) :
      contract.declaration h.withoutLocations = contract.declaration h := by
    rw [Contract.declaration, Contract.declaration, h.contractsPublic_withoutLocations,
      withoutLocations, List.map_map]
    rfl
  simp only [rootFile, hdeclaration]
  rfl

/-- **The artifacts of a hierarchy** do not depend on where its types are declared. -/
theorem pending_withoutLocations (h : Hierarchy) : h.withoutLocations.pending = h.pending := by
  rw [pending, pending, h.rootFile_withoutLocations, withoutLocations, List.isEmpty_map,
    List.map_map]
  rfl

/-- What is reported of a root does not depend on where its types are declared. -/
theorem report_withoutLocations (h : Hierarchy) (artifacts : List String) :
    h.withoutLocations.report artifacts = h.report artifacts := by
  rw [report, report, withoutLocations, List.isEmpty_map, List.map_map]
  rfl

end Hierarchy

/-- Which of several fragments is kept is told by their symbols alone. -/
theorem map_withoutLocation_firstOfEach (ps : List Participant) :
    (firstOfEach ps).map (·.withoutLocation) = firstOfEach (ps.map (·.withoutLocation)) := by
  induction ps with
  | nil => rfl
  | cons p ps ih =>
    rw [firstOfEach, List.map_cons, List.map_cons, firstOfEach, ← ih, List.filter_map]
    rfl

/-- Types are given the same accessibility if the same one is stated for each symbol. -/
theorem map_withoutLocation_completed {m m' : SemanticModel} {sites sites' : List Site}
    (h : ∀ id, statedAccessibility? m' sites' id = statedAccessibility? m sites id)
    (ps : List Participant) :
    (ps.map (·.completed m' sites')).map (·.withoutLocation) =
      (ps.map (·.withoutLocation)).map (·.completed m sites) := by
  rw [List.map_map, List.map_map]
  refine List.map_congr_left fun p _ ↦ ?_
  simp only [Function.comp_apply, Participant.completed, Participant.withoutLocation, h]

theorem Compilation.imports_withoutLocation (root : Participant) (types : List Participant) :
    imports root (types.map (·.withoutLocation)) = imports root types := by
  rw [imports, imports, List.filter_map, List.filterMap_map]
  rfl

/-! ### Sites -/

/-- Declarations that match, in trees with the same number. -/
structure Site.Alike (s s' : Site) : Prop where
  number : s'.number = s.number
  declaration : s.declaration.Matches .readAlike s'.declaration

/-- Compilations that correspond. -/
structure Compilation.Alike (c c' : Compilation) : Prop where
  trees : List.Forall₂ (fun tree tree' : SourceTree ↦ tree.file.Matches .readAlike tree'.file)
    c.trees c'.trees
  model : c.model.Agree c'.model

namespace Site.Alike

variable {m m' : SemanticModel} {s s' : Site}

/-- A declaration has the same symbol in models that agree. -/
theorem symbol?_eq (hm : m.Agree m') (h : s.Alike s') : s'.symbol? m' = s.symbol? m := by
  rw [symbol?, symbol?, h.number, hm.declaredSymbol? s.number h.declaration]

/-- A declaration takes part alike in models that agree, but for where it stands. -/
theorem participant?_eq (hm : m.Agree m') (h : s.Alike s') :
    (s'.participant? m').map (·.withoutLocation) = (s.participant? m).map (·.withoutLocation) := by
  have haccessibility : s'.declaration.accessibility? = s.declaration.accessibility? := by
    rw [TypeDeclaration.accessibility?, TypeDeclaration.accessibility?, h.declaration.modifiers]
  rw [participant?, participant?, h.symbol?_eq hm, Option.map_map, Option.map_map]
  refine congrArg (Option.map · _) (funext fun symbol ↦ ?_)
  simp only [Function.comp_apply, Participant.withoutLocation, h.declaration.name,
    h.declaration.kind, h.declaration.typeParameters, haccessibility]

theorem isInterface_eq (h : s.Alike s') : s'.isInterface = s.isInterface := by
  rw [isInterface, isInterface, h.declaration.kind]

theorem isImplementor_eq (h : s.Alike s') : s'.isImplementor = s.isImplementor := by
  rw [isImplementor, isImplementor, h.declaration.kind]

theorem isFileLocal_eq (h : s.Alike s') :
    s'.declaration.isFileLocal = s.declaration.isFileLocal := by
  rw [TypeDeclaration.isFileLocal, TypeDeclaration.hasModifier, TypeDeclaration.isFileLocal,
    TypeDeclaration.hasModifier, h.declaration.modifiers]

/-- A declaration is one of a root exactly if its like is. -/
theorem isRootFragment_eq (hm : m.Agree m') (h : s.Alike s') :
    s'.isRootFragment m' = s.isRootFragment m := by
  have hmarked : s'.isMarked m' = s.isMarked m :=
    any_eq_of_forall₂ h.declaration.attributes fun a a' ha ↦ by
      rw [hasMarker, hasMarker, h.number, hm.attributeType? s.number h.declaration ha]
  rw [isRootFragment, isRootFragment, h.isInterface_eq, hmarked, h.isFileLocal_eq]

/-- A declaration is one of a type of a root exactly if its like is, for each way of matching. -/
theorem isTypeFragment_eq (hm : m.Agree m') (matching : Matching) (root : Participant)
    (h : s.Alike s') : s'.isTypeFragment matching m' root = s.isTypeFragment matching m root := by
  have hlists : s'.listsRoot matching m' root = s.listsRoot matching m root := by
    refine any_eq_of_forall₂ h.declaration.bases fun b b' hb ↦ ?_
    cases matching with
    | syntactic =>
      have hname : b'.simpleName? = b.simpleName? := hb.2
      rw [namesRoot, namesRoot, hname]
    | semantic =>
      rw [namesRoot, namesRoot, h.number, hm.baseType? s.number h.declaration hb]
  rw [isTypeFragment, isTypeFragment, h.isImplementor_eq, hlists, h.isFileLocal_eq]

end Site.Alike

/-! ### Hierarchies -/

namespace Compilation.Alike

variable {c c' : Compilation}

/-- Compilations that are alike have declarations that are, one by one. -/
theorem sites (h : c.Alike c') : List.Forall₂ Site.Alike c.sites c'.sites := by
  refine List.rel_flatMap (forall₂_zipIdx h.trees 0) fun p p' hp ↦ ?_
  obtain ⟨tree, number⟩ := p
  obtain ⟨tree', number'⟩ := p'
  obtain ⟨hfile, rfl⟩ := hp
  show List.Forall₂ _ (tree.types.map _) (tree'.types.map _)
  rw [List.forall₂_map_left_iff, List.forall₂_map_right_iff]
  exact (typesOf_of_membersMatch hfile.members).imp fun _ _ hd ↦ ⟨rfl, hd⟩

/-- The same accessibility is stated for a symbol, among declarations that are chosen alike. -/
theorem statedAccessibility?_eq (h : c.Alike c') {p p' : Site → Bool}
    (hp : ∀ s s', s.Alike s' → p' s' = p s) (id : SymbolId) :
    statedAccessibility? c'.model (c'.sites.filter p') id =
      statedAccessibility? c.model (c.sites.filter p) id := by
  have hsites : List.Forall₂ Site.Alike (c.sites.filter p) (c'.sites.filter p') :=
    List.rel_filter (fun s s' hs ↦ by simp [hp s s' hs]) h.sites
  refine findSome?_eq_of_forall₂ hsites fun s s' hs ↦ ?_
  have haccessibility : s'.declaration.accessibility? = s.declaration.accessibility? := by
    rw [TypeDeclaration.accessibility?, TypeDeclaration.accessibility?, hs.declaration.modifiers]
  rw [haccessibility, hs.symbol?_eq h.model]

/-- What a search finds differs only in locations. -/
theorem map_withoutLocation_found (h : c.Alike c') {p p' q q' : Site → Bool}
    (hp : ∀ s s', s.Alike s' → p' s' = p s) (hq : ∀ s s', s.Alike s' → q' s' = q s) :
    ((firstOfEach ((c'.sites.filter p').filterMap (·.participant? c'.model))).map
        (·.completed c'.model (c'.sites.filter q'))).map (·.withoutLocation) =
      ((firstOfEach ((c.sites.filter p).filterMap (·.participant? c.model))).map
        (·.completed c.model (c.sites.filter q))).map (·.withoutLocation) := by
  have hshown : ((c'.sites.filter p').filterMap (·.participant? c'.model)).map (·.withoutLocation) =
      ((c.sites.filter p).filterMap (·.participant? c.model)).map (·.withoutLocation) := by
    rw [List.map_filterMap, List.map_filterMap]
    exact filterMap_filter_eq h.sites hp fun s s' hs ↦ hs.participant?_eq h.model
  rw [map_withoutLocation_completed (h.statedAccessibility?_eq hq),
    map_withoutLocation_completed (m := c.model) fun _ ↦ rfl, map_withoutLocation_firstOfEach,
    map_withoutLocation_firstOfEach, hshown]

/-- **The roots are the same** in compilations that are alike, but for their locations. -/
theorem map_withoutLocation_roots (h : c.Alike c') :
    c'.roots.map (·.withoutLocation) = c.roots.map (·.withoutLocation) :=
  h.map_withoutLocation_found (fun _ _ hs ↦ hs.isRootFragment_eq h.model)
    fun _ _ hs ↦ hs.isInterface_eq

/-- **The types of a root are the same** in compilations that are alike, but for their locations. -/
theorem map_withoutLocation_implementors (h : c.Alike c') (matching : Matching)
    (root : Participant) :
    (c'.implementors matching root).map (·.withoutLocation) =
      (c.implementors matching root).map (·.withoutLocation) :=
  h.map_withoutLocation_found (fun _ _ hs ↦ hs.isTypeFragment_eq h.model matching root)
    fun _ _ hs ↦ hs.isImplementor_eq

/-- **Hierarchies of compilations that correspond differ only in locations.** -/
theorem map_hierarchy_roots (h : c.Alike c') (matching : Matching) :
    (c'.roots.map (c'.hierarchy matching)).map (·.withoutLocations) =
      (c.roots.map (c.hierarchy matching)).map (·.withoutLocations) := by
  have hhierarchy (root : Participant) : (c'.hierarchy matching root).withoutLocations =
      (c.hierarchy matching root.withoutLocation).withoutLocations := by
    have htypes := h.map_withoutLocation_implementors matching root
    have husings : imports root (c'.implementors matching root) =
        imports root (c.implementors matching root) := by
      rw [← imports_withoutLocation, htypes, imports_withoutLocation]
    simp only [hierarchy, Hierarchy.withoutLocations, htypes, husings]
    rfl
  have hmap (roots : List Participant) :
      roots.map (fun root ↦ (c.hierarchy matching root.withoutLocation).withoutLocations) =
        (roots.map (·.withoutLocation)).map
          fun root ↦ (c.hierarchy matching root).withoutLocations := by
    rw [List.map_map]
    rfl
  rw [List.map_map, List.map_map]
  simp only [Function.comp_def, hhierarchy]
  rw [hmap, h.map_withoutLocation_roots, ← hmap]
  rfl

end Compilation.Alike

end DoubleDispatch
