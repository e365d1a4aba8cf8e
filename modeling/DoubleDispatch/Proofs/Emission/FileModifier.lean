import DoubleDispatch.Proofs.Hierarchy.Discovery
import DoubleDispatch.Proofs.Pass.Artifacts

/-!
# Where generated declarations carry the `file` modifier

Declarations with the `file` modifier make no symbol a root or an implementing type. But a symbol
whose first qualifying declaration states no accessibility takes the first one that any of its
declarations states, and there those with the `file` modifier count. This is the only way in which
the modifier gets into a generated file (`Compilation.TakesFile`).

The proof follows the modifiers back. The blocks of a generated file repeat the words of the
accessibility of a participant; this is the one its declaration states, or what
`statedAccessibility?` finds; and both are the accessibility of a declaration that stands first
among those of the symbol, the one among the qualifying ones, the other among those that state one.
-/

namespace DoubleDispatch

/-! ### Declarations of a generated file -/

mutual

/-- The types of an item in the order they are written. -/
def Item.blocks : Item → List TypeBlock
  | .type t => [t]
  | .scope _ items => blocksOf items

/-- The types of items in the order they are written. -/
def blocksOf : List Item → List TypeBlock
  | [] => []
  | item :: items => item.blocks ++ blocksOf items

end

/-- The types of a generated file in the order they are written. -/
def GeneratedFile.blocks (file : GeneratedFile) : List TypeBlock := blocksOf file.items

theorem blocksOf_within (ns : Option String) (blocks : List TypeBlock) :
    blocksOf (Item.within ns (blocks.map .type)) = blocks := by
  have hplain : blocksOf (blocks.map .type) = blocks := by
    induction blocks with
    | nil => rfl
    | cons block blocks ih => rw [List.map_cons, blocksOf, ih]; rfl
  cases ns with
  | none => exact hplain
  | some name =>
    show blocksOf (blocks.map .type) ++ [] = blocks
    rw [List.append_nil, hplain]

theorem Participant.blocks_augmentation (type root : Participant) :
    (type.augmentation root).blocks = [type.continuation (Contract.all.map
      (·.acceptMethod root ["public"] (some "visitor.Visit(this)")))] :=
  blocksOf_within type.ns.name? [_]

namespace Hierarchy

/-- The files that are generated, for the types in order, then for the root. -/
def files (h : Hierarchy) : List GeneratedFile :=
  if h.types.isEmpty then [] else h.types.map (·.augmentation h.root) ++ [h.rootFile]

/-- The texts of the pending artifacts are the files of the hierarchy, rendered. -/
theorem map_text_pending (h : Hierarchy) : h.pending.map (·.text) = h.files.map (·.render) := by
  rw [pending, files]
  split
  · rfl
  · simp [Function.comp_def]

theorem blocks_rootFile (h : Hierarchy) :
    h.rootFile.blocks =
      Participant.continuation { h.root with kind := .interfaceType }
          (Contract.all.map (·.acceptMethod h.root [] none)) ::
        Contract.all.map (·.declaration h) :=
  blocksOf_within h.root.ns.name? (_ :: _)

end Hierarchy

/-! ### Modifiers of generated declarations -/

/-- A continuation carries `file` exactly when the accessibility of its type does. -/
theorem Participant.file_mem_continuation {p : Participant} {methods : List Method} :
    "file" ∈ (p.continuation methods).modifiers ↔ "file" ∈ accessibilityWords p.accessibility := by
  have hpartial : "file" ∉ ["partial"] := by decide
  rw [continuation, partialModifiers, List.mem_append, or_iff_left hpartial]

/-- A contract carries `file` exactly when its root does and it is not public. -/
theorem Contract.file_mem_declaration (contract : Contract) {h : Hierarchy} :
    "file" ∈ (contract.declaration h).modifiers ↔
      "file" ∈ accessibilityWords h.root.accessibility ∧ h.contractsPublic = false := by
  rw [declaration]
  cases h.contractsPublic with
  | true => simp
  | false => simp

/-- A declaration that states its accessibility states it with the `file` modifier, if it has it. -/
theorem TypeDeclaration.file_mem_accessibility? {d : TypeDeclaration} :
    "file" ∈ accessibilityWords d.accessibility? ↔ "file" ∈ d.modifiers := by
  have hfile : accessibilityModifiers.contains "file" = true := by decide
  rw [accessibilityWords_accessibility?, List.mem_filter, and_iff_left hfile]

/-! ### Stated accessibilities -/

/-- A declaration states who may see the type. -/
def TypeDeclaration.StatesAccessibility (d : TypeDeclaration) : Prop :=
  ∃ word ∈ d.modifiers, word ∈ ["public", "protected", "internal", "private", "file"]

/-- A declaration without modifiers of accessibility states none. -/
theorem TypeDeclaration.accessibility?_eq_none_iff {d : TypeDeclaration} :
    d.accessibility? = none ↔ ¬d.StatesAccessibility := by
  have hnil : d.modifiers.filter (accessibilityModifiers.contains ·) = [] ↔
      ¬d.StatesAccessibility := by
    simp [List.filter_eq_nil_iff, StatesAccessibility, accessibilityModifiers]
  rw [← hnil, accessibility?]
  split
  next hwords => exact iff_of_true rfl hwords
  next hwords => exact iff_of_false (Option.some_ne_none _) hwords

theorem TypeDeclaration.StatesAccessibility.exists_eq {d : TypeDeclaration}
    (h : d.StatesAccessibility) : ∃ words, d.accessibility? = some words := by
  rw [← Option.ne_none_iff_exists']
  exact fun hnone ↦ accessibility?_eq_none_iff.1 hnone h

namespace Compilation

variable {c : Compilation}

/-- One place at most is the first of the qualifying declarations of a symbol. -/
theorem FirstFragment.unique {qualifies : Nat → TypeDeclaration → Prop} {id : SymbolId}
    {p q : Place} (hp : c.FirstFragment qualifies id p) (hq : c.FirstFragment qualifies id q) :
    p = q := by
  rcases hp.before q hq.fragment with heq | hpq
  · exact heq.symm
  · rcases hq.before p hp.fragment with heq | hqp
    · exact heq
    · exact absurd hqp hpq.asymm

/-- At one place stands one declaration. -/
theorem StandsAt.unique {p : Place} {d d' : TypeDeclaration} (h : c.StandsAt p d)
    (h' : c.StandsAt p d') : d = d' := by
  obtain ⟨tree, htree, hstands⟩ := h
  obtain ⟨tree', htree', hstands'⟩ := h'
  obtain rfl : tree = tree' := Option.some.inj (htree.symm.trans htree')
  exact DoubleDispatch.StandsAt.unique hstands hstands'

/-- The modifier `file` reaches what is generated for a symbol: its first qualifying declaration
states no accessibility, and the first of its declarations of the given kinds that states one has
the `file` modifier. -/
structure TakesFile (c : Compilation) (qualifies : Nat → TypeDeclaration → Prop)
    (kinds : List TypeKind) (id : SymbolId) : Prop where
  silent : ∃ p d, c.FirstFragment qualifies id p ∧ c.StandsAt p d ∧ ¬d.StatesAccessibility
  file : ∃ p d, c.FirstFragment (fun _ d ↦ d.kind ∈ kinds ∧ d.StatesAccessibility) id p ∧
    c.StandsAt p d ∧ "file" ∈ d.modifiers

end Compilation

/-- The declaration is one of the symbol with the given id and states an accessibility. -/
def Site.States (m : SemanticModel) (id : SymbolId) (s : Site) : Prop :=
  (s.symbol? m).map (·.id) = some id ∧ s.declaration.StatesAccessibility

section Stated

variable {m : SemanticModel} {id : SymbolId} {s : Site}

/-- The first declaration of a type that states an accessibility decides. -/
theorem statedAccessibility?_cons_of_states (hs : s.States m id) (sites : List Site) :
    statedAccessibility? m (s :: sites) id = s.declaration.accessibility? := by
  obtain ⟨words, hwords⟩ := hs.2.exists_eq
  rw [statedAccessibility?, List.findSome?_cons, hs.1, hwords]
  simp

/-- A declaration that states none is passed over. -/
theorem statedAccessibility?_cons_of_not (hs : ¬s.States m id) (sites : List Site) :
    statedAccessibility? m (s :: sites) id = statedAccessibility? m sites id := by
  rw [statedAccessibility?, List.findSome?_cons]
  cases hwords : s.declaration.accessibility? with
  | none => rfl
  | some words =>
    have hstates : s.declaration.StatesAccessibility := by
      by_contra hnot
      rw [TypeDeclaration.accessibility?_eq_none_iff.2 hnot] at hwords
      cases hwords
    have hid : (s.symbol? m).map (·.id) ≠ some id := fun hid ↦ hs ⟨hid, hstates⟩
    simp [hid, statedAccessibility?]

/-- Among sites at increasing places, the first one of the symbol that states an accessibility
decides. -/
theorem statedAccessibility?_eq_some_iff {entries : List (Compilation.Place × Site)}
    (hentries : entries.Pairwise fun e e' ↦ e.1.Before e'.1) {words : String} :
    statedAccessibility? m (entries.map (·.2)) id = some words ↔
      ∃ e ∈ entries, e.2.States m id ∧ e.2.declaration.accessibility? = some words ∧
        ∀ e' ∈ entries, e'.2.States m id → e'.1 = e.1 ∨ e.1.Before e'.1 := by
  induction entries with
  | nil => simp [statedAccessibility?]
  | cons first later ih =>
    obtain ⟨hfirst, hlater⟩ := List.pairwise_cons.1 hentries
    rw [List.map_cons]
    by_cases hs : first.2.States m id
    · rw [statedAccessibility?_cons_of_states hs]
      constructor
      · intro hwords
        refine ⟨first, List.mem_cons_self, hs, hwords, fun e' he' _ ↦ ?_⟩
        rcases List.mem_cons.1 he' with rfl | he'
        · exact .inl rfl
        · exact .inr (hfirst e' he')
      · rintro ⟨e, he, -, hwords, hbefore⟩
        rcases List.mem_cons.1 he with rfl | he
        · exact hwords
        · -- A later site does not stand before the first one.
          have hlt := hfirst e he
          rcases hbefore first List.mem_cons_self hs with heq | hgt
          · rw [heq] at hlt
            exact absurd hlt hlt.asymm
          · exact absurd hgt hlt.asymm
    · rw [statedAccessibility?_cons_of_not hs, ih hlater]
      constructor
      · rintro ⟨e, he, hstates, hwords, hbefore⟩
        refine ⟨e, List.mem_cons_of_mem _ he, hstates, hwords, fun e' he' hstates' ↦ ?_⟩
        rcases List.mem_cons.1 he' with rfl | he'
        · exact absurd hstates' hs
        · exact hbefore e' he' hstates'
      · rintro ⟨e, he, hstates, hwords, hbefore⟩
        rcases List.mem_cons.1 he with rfl | he
        · exact absurd hstates hs
        · exact ⟨e, he, hstates, hwords,
            fun e' he' ↦ hbefore e' (List.mem_cons_of_mem _ he')⟩

end Stated

namespace Compilation

variable {c : Compilation} {qualifies : Nat → TypeDeclaration → Prop}
  {qualifying others : Site → Bool} {kinds : List TypeKind} {id : SymbolId}

theorem standsAt_of_mem_places {e : Place × Site} (he : e ∈ c.places) :
    c.StandsAt e.1 e.2.declaration := by
  obtain ⟨htree, -, hstands⟩ := (c.mem_places_iff e).1 he
  exact ⟨_, htree, hstands⟩

/-- The declarations of a symbol that state an accessibility are listed with their places. -/
theorem fragment_states_iff (id : SymbolId)
    (hothers : ∀ s, others s = true ↔ s.declaration.kind ∈ kinds) (p : Place) :
    c.Fragment (fun _ d ↦ d.kind ∈ kinds ∧ d.StatesAccessibility) id p ↔
      ∃ e ∈ c.places.filter fun e ↦ others e.2, e.1 = p ∧ e.2.States c.model id := by
  constructor
  · rintro ⟨d, symbol, ⟨tree, htree, hstands⟩, ⟨hkind, hstates⟩, hsymbol, rfl⟩
    have hplace := (c.mem_places_iff (p, ⟨tree, p.tree, d⟩)).2 ⟨htree, rfl, hstands⟩
    exact ⟨_, List.mem_filter.2 ⟨hplace, (hothers _).2 hkind⟩, rfl,
      congrArg (Option.map _) hsymbol, hstates⟩
  · rintro ⟨e, he, rfl, hid, hstates⟩
    obtain ⟨hplace, hkind⟩ := List.mem_filter.1 he
    obtain ⟨symbol, hsymbol, hid⟩ := Option.map_eq_some_iff.1 hid
    have hnumber := ((c.mem_places_iff e).1 hplace).2.1
    rw [Site.symbol?, hnumber] at hsymbol
    exact ⟨_, symbol, standsAt_of_mem_places hplace, ⟨(hothers _).1 hkind, hstates⟩, hsymbol, hid⟩

/-- The accessibility found for a symbol is that of the first of its declarations that states
one. -/
theorem statedAccessibility?_sites_eq_some_iff
    (hothers : ∀ s, others s = true ↔ s.declaration.kind ∈ kinds) {words : String} :
    statedAccessibility? c.model (c.sites.filter others) id = some words ↔
      ∃ p d, c.FirstFragment (fun _ d ↦ d.kind ∈ kinds ∧ d.StatesAccessibility) id p ∧
        c.StandsAt p d ∧ d.accessibility? = some words := by
  have hsites : c.sites.filter others = (c.places.filter fun e ↦ others e.2).map (·.2) := by
    rw [← c.map_snd_places, List.filter_map]
    rfl
  have hfragment := fragment_states_iff (c := c) id hothers
  rw [hsites, statedAccessibility?_eq_some_iff (c.pairwise_places.filter _)]
  constructor
  · rintro ⟨e, he, hstates, hwords, hbefore⟩
    refine ⟨e.1, _, ⟨(hfragment _).2 ⟨e, he, rfl, hstates⟩, fun q hq ↦ ?_⟩,
      standsAt_of_mem_places (List.mem_of_mem_filter he), hwords⟩
    obtain ⟨e', he', rfl, hstates'⟩ := (hfragment q).1 hq
    exact hbefore e' he' hstates'
  · rintro ⟨p, d, hfirst, hstands, hwords⟩
    obtain ⟨e, he, rfl, hstates⟩ := (hfragment p).1 hfirst.fragment
    obtain rfl := hstands.unique (standsAt_of_mem_places (List.mem_of_mem_filter he))
    exact ⟨e, he, hstates, hwords,
      fun e' he' hstates' ↦ hfirst.before _ ((hfragment _).2 ⟨e', he', rfl, hstates'⟩)⟩

/-- What a search keeps has the accessibility that its first qualifying declaration states, or else
the one found among the others. -/
theorem exists_accessibility_eq
    (hq : ∀ s, qualifying s = true ↔ qualifies s.number s.declaration) {sites : List Site}
    {participant : Participant}
    (hmem : participant ∈ (firstOfEach ((c.sites.filter qualifying).filterMap
      (·.participant? c.model))).map (·.completed c.model sites)) :
    ∃ p d, c.FirstFragment qualifies participant.id p ∧ c.StandsAt p d ∧
      participant.accessibility =
        d.accessibility?.or (statedAccessibility? c.model sites participant.id) := by
  obtain ⟨kept, hfirsts, hkept, hfirst⟩ := c.exists_kept hq
  rw [← hkept, List.map_map] at hmem
  obtain ⟨e, he, rfl⟩ := List.mem_map.1 hmem
  obtain ⟨⟨p, s⟩, hs, hsome⟩ := List.mem_filterMap.1 (hfirsts.sublist.subset he)
  obtain ⟨shown, hshown, rfl⟩ := Option.map_eq_some_iff.1 hsome
  obtain ⟨symbol, -, rfl⟩ := Option.map_eq_some_iff.1 hshown
  refine ⟨p, s.declaration, hfirst _ he, standsAt_of_mem_places (List.mem_of_mem_filter hs), ?_⟩
  exact Option.or_eq_orElse.symm

/-- **Where the modifier comes from**, for what a search keeps whose qualifying declarations do not
have it. -/
theorem file_mem_accessibility_iff
    (hq : ∀ s, qualifying s = true ↔ qualifies s.number s.declaration)
    (hfile : ∀ number d, qualifies number d → "file" ∉ d.modifiers)
    (hothers : ∀ s, others s = true ↔ s.declaration.kind ∈ kinds) {participant : Participant}
    (hmem : participant ∈ (firstOfEach ((c.sites.filter qualifying).filterMap
      (·.participant? c.model))).map (·.completed c.model (c.sites.filter others))) :
    "file" ∈ accessibilityWords participant.accessibility ↔
      c.TakesFile qualifies kinds participant.id := by
  obtain ⟨p, d, hfirst, hstands, haccessibility⟩ := exists_accessibility_eq hq hmem
  by_cases hstates : d.StatesAccessibility
  · -- Its own accessibility is without the modifier, and then that of the others does not count.
    obtain ⟨words, hwords⟩ := hstates.exists_eq
    rw [hwords, Option.some_or, ← hwords] at haccessibility
    rw [haccessibility, TypeDeclaration.file_mem_accessibility?]
    obtain ⟨d', symbol, hstands', hqualifies, -⟩ := hfirst.fragment
    obtain rfl := hstands.unique hstands'
    refine iff_of_false (hfile _ _ hqualifies) fun htakes ↦ ?_
    obtain ⟨p', d', hfirst', hstands', hsilent⟩ := htakes.silent
    obtain rfl := hfirst.unique hfirst'
    obtain rfl := hstands.unique hstands'
    exact hsilent hstates
  · rw [TypeDeclaration.accessibility?_eq_none_iff.2 hstates, Option.none_or] at haccessibility
    rw [haccessibility]
    constructor
    · intro hmem
      cases hstated : statedAccessibility? c.model (c.sites.filter others) participant.id with
      | none => rw [hstated] at hmem; cases hmem
      | some words =>
        obtain ⟨q, d', hfirst', hstands', hwords⟩ :=
          (statedAccessibility?_sites_eq_some_iff hothers).1 hstated
        rw [hstated, ← hwords, TypeDeclaration.file_mem_accessibility?] at hmem
        exact ⟨⟨p, d, hfirst, hstands, hstates⟩, ⟨q, d', hfirst', hstands', hmem⟩⟩
    · rintro ⟨-, q, d', hfirst', hstands', hmem⟩
      obtain ⟨d₁, symbol, hstands₁, ⟨-, hstates'⟩, -⟩ := hfirst'.fragment
      obtain rfl := hstands'.unique hstands₁
      obtain ⟨words, hwords⟩ := hstates'.exists_eq
      rw [(statedAccessibility?_sites_eq_some_iff hothers).2 ⟨q, d', hfirst', hstands', hwords⟩,
        ← hwords, TypeDeclaration.file_mem_accessibility?]
      exact hmem

end Compilation

/-! ### The artifacts of a pass -/

namespace Pass

variable {settings : Settings} {c : Compilation} {token : CancellationToken} {h h' : History}
  {report : PassReport}

/-- What a pass hands over are the files of the first of its hierarchies. -/
theorem MayEnd.exists_files (hm : MayEnd settings c token h report h') :
    ∃ (handed : List Artifact) (emitted : List Hierarchy),
      h'.artifacts = h.artifacts ++ handed ∧ emitted <+: hierarchies settings c ∧
      (report.outcome = .completed → emitted = hierarchies settings c) ∧
      handed.map (·.text) = emitted.flatMap fun hierarchy ↦ hierarchy.files.map (·.render) := by
  obtain ⟨n, hn⟩ := hm.exists_cutAt
  refine ⟨_, (hierarchies settings c).take n, hn.history_eq, List.take_prefix _ _, ?_, ?_⟩
  · intro ho
    rw [hn.eq_length_of_completed ho]
    exact List.take_of_length_le (List.length_map _).le
  · rw [pieces, ← groups_take, map_text_groups]
    exact List.flatMap_congr fun hierarchy _ ↦ hierarchy.map_text_pending

/-- The kinds of the types that implement a root. -/
def implementorKinds : List TypeKind := [.classType, .structType, .recordType, .recordStruct]

/-- **Which generated declarations carry the `file` modifier.** However a pass ends, what it hands
over are the files of hierarchies. The declaration that continues an implementing type carries the
modifier exactly if the type takes it from a declaration of its symbol; so does the declaration that
continues the root, and the contracts do exactly if moreover they are not public. -/
theorem file_mem_modifiers_iff (hm : MayEnd settings c token h report h') :
    ∃ (handed : List Artifact) (emitted : List Hierarchy),
      h'.artifacts = h.artifacts ++ handed ∧ emitted <+: hierarchies settings c ∧
      (report.outcome = .completed → emitted = hierarchies settings c) ∧
      handed.map (·.text) = emitted.flatMap (fun hierarchy ↦ hierarchy.files.map (·.render)) ∧
      ∀ hierarchy ∈ emitted,
        let root := hierarchy.root
        (∀ p ∈ hierarchy.types, ∀ block ∈ (p.augmentation root).blocks,
          ("file" ∈ block.modifiers ↔
            c.TakesFile (Implements settings.matching c.model root) implementorKinds p.id)) ∧
        ∃ continuation contracts, hierarchy.rootFile.blocks = continuation :: contracts ∧
          continuation.name = root.name ∧ (∀ block ∈ contracts, block.name = root.visitorName) ∧
          ("file" ∈ continuation.modifiers ↔
            c.TakesFile (MarksRoot c.model) [.interfaceType] root.id) ∧
          ∀ block ∈ contracts, "file" ∈ block.modifiers ↔
            c.TakesFile (MarksRoot c.model) [.interfaceType] root.id ∧
              hierarchy.contractsPublic = false := by
  obtain ⟨handed, emitted, hhistory, hfirst, hcompleted, htexts⟩ := hm.exists_files
  refine ⟨handed, emitted, hhistory, hfirst, hcompleted, htexts, fun hierarchy hmem ↦ ?_⟩
  obtain ⟨root, hroot, rfl⟩ := List.mem_map.1 (hfirst.subset hmem)
  have hrootFile : "file" ∈ accessibilityWords root.accessibility ↔
      c.TakesFile (MarksRoot c.model) [.interfaceType] root.id :=
    Compilation.file_mem_accessibility_iff (Site.isRootFragment_iff c.model)
      (fun _ _ hmarks ↦ hmarks.2.1) (fun s ↦ by simp [Site.isInterface]) hroot
  refine ⟨fun p hp block hblock ↦ ?_, _, _, Hierarchy.blocks_rootFile _, rfl, ?_, ?_, ?_⟩
  · rw [Participant.blocks_augmentation, List.mem_singleton] at hblock
    rw [hblock, Participant.file_mem_continuation]
    exact Compilation.file_mem_accessibility_iff
      (Site.isTypeFragment_iff settings.matching c.model root)
      (fun _ _ himplements ↦ himplements.2.1) (fun s ↦ s.declaration.kind.isImplementor_iff) hp
  · rintro block hblock
    obtain ⟨contract, -, rfl⟩ := List.mem_map.1 hblock
    rfl
  · rw [Participant.file_mem_continuation]
    exact hrootFile
  · intro block hblock
    obtain ⟨contract, -, rfl⟩ := List.mem_map.1 hblock
    rw [contract.file_mem_declaration]
    exact and_congr_left fun _ ↦ hrootFile

/-- A root and a type that state no accessibility, and in another tree an interface and a class
with their names that only this tree sees. -/
def fileSample : List (String × String) :=
  [markerSample,
   ("A.cs", "using VisitorGenerator; [VisitorNode] partial interface I; partial class C : I;"),
   ("B.cs", "file interface I; file class C;")]

/-- In the sample, the root and the type take the modifier from the declarations in the other
tree. -/
theorem file_mem_modifiers_iff_fileSample :
    ∃ trees, parseAll fileSample = .ok trees ∧
      let c := Compilation.ofTrees trees
      ∃ hierarchy ∈ hierarchies {} c, hierarchy.types.map (·.id) = [⟨"C"⟩] ∧
        c.TakesFile (MarksRoot c.model) [.interfaceType] hierarchy.root.id ∧
          ∀ p ∈ hierarchy.types,
            c.TakesFile (Implements .syntactic c.model hierarchy.root) implementorKinds p.id := by
  obtain ⟨trees, htrees, hierarchy, hmem, hids, hroot, htypes⟩ :
      ∃ trees, parseAll fileSample = .ok trees ∧
        ∃ hierarchy ∈ hierarchies {} (.ofTrees trees), hierarchy.types.map (·.id) = [⟨"C"⟩] ∧
          (∀ block ∈ hierarchy.rootFile.blocks, "file" ∈ block.modifiers) ∧
            ∀ p ∈ hierarchy.types, ∀ block ∈ (p.augmentation hierarchy.root).blocks,
              "file" ∈ block.modifiers :=
    exists_parseAll fileSample [(_, _), (_, _), (_, _)] rfl (by decide +kernel)
  have hm := mayEnd_run {} (.ofTrees trees) .never []
  obtain ⟨handed, emitted, -, -, hcompleted, -, hemitted⟩ := file_mem_modifiers_iff hm
  obtain rfl := hcompleted hm.outcome_of_never
  obtain ⟨hiff, continuation, contracts, hblocks, -, -, hcontinuation, -⟩ := hemitted _ hmem
  refine ⟨trees, htrees, hierarchy, hmem, hids, hcontinuation.1 (hroot _ ?_), fun p hp ↦ ?_⟩
  · rw [hblocks]
    exact List.mem_cons_self
  · obtain ⟨block, hblock⟩ : ∃ block, block ∈ (p.augmentation hierarchy.root).blocks := by
      rw [p.blocks_augmentation]
      exact ⟨_, List.mem_singleton_self _⟩
    exact (hiff p hp _ hblock).1 (htypes p hp _ hblock)

/-- What the pass over the sample hands over carries the modifier everywhere. -/
theorem file_emitted_fileSample :
    ∃ trees, parseAll fileSample = .ok trees ∧
      let c := Compilation.ofTrees trees
      (run {} c .never []).2.artifacts.map (·.text) =
          (hierarchies {} c).flatMap (fun hierarchy ↦ hierarchy.files.map (·.render)) ∧
        ((hierarchies {} c).flatMap fun hierarchy ↦
            hierarchy.files.flatMap fun file ↦ file.blocks.map fun b ↦ (b.name, b.modifiers)) =
          [("C", ["file", "partial"]), ("I", ["file", "partial"]), ("IVisitor", ["file"]),
            ("IVisitor", ["file"])] := by
  obtain ⟨trees, htrees, hblocks⟩ : ∃ trees, parseAll fileSample = .ok trees ∧
      ((hierarchies {} (.ofTrees trees)).flatMap fun hierarchy ↦
          hierarchy.files.flatMap fun file ↦ file.blocks.map fun b ↦ (b.name, b.modifiers)) =
        [("C", ["file", "partial"]), ("I", ["file", "partial"]), ("IVisitor", ["file"]),
          ("IVisitor", ["file"])] :=
    exists_parseAll fileSample [(_, _), (_, _), (_, _)] rfl (by decide +kernel)
  have hm := mayEnd_run {} (.ofTrees trees) .never []
  obtain ⟨handed, emitted, hhistory, -, hcompleted, htexts⟩ := hm.exists_files
  obtain rfl := hcompleted hm.outcome_of_never
  exact ⟨trees, htrees, by rw [hhistory]; exact htexts, hblocks⟩

end Pass

end DoubleDispatch
