import DoubleDispatch.Proofs.Emission.FileModifier

/-!
# Where the accessibility of generated declarations comes from

Partial declarations of one symbol need not all state who may see it, but those that do state the
same (`Compilation.AgreesOn`). Then it does not matter which of them states it: a declaration that
stands before the one that makes the symbol a root or an implementing type or behind it, in the same
tree or in another one, and that is marked, lists the root, or does neither. What is generated for
the symbol repeats these words.

A participant takes the accessibility of its first qualifying declaration, or else the first one
that a declaration of its kinds states. Either is the accessibility of a declaration that counts for
the agreement, and if there is none, then no such declaration states any
(`Compilation.AgreesOn.exists_accessibility_eq`).
-/

namespace DoubleDispatch

namespace Compilation

/-- The declaration is one of the symbol with the given id and has one of the given kinds. -/
def Declares (c : Compilation) (kinds : List TypeKind) (id : SymbolId) (d : TypeDeclaration) :
    Prop :=
  ∃ p symbol, c.StandsAt p d ∧ d.kind ∈ kinds ∧
    c.model.declaredSymbol? p.tree d = some symbol ∧ symbol.id = id

/-- The declarations of a symbol that have one of the given kinds agree on its accessibility: each
of them that states one states it with these words, and without words none of them states one. -/
structure AgreesOn (c : Compilation) (kinds : List TypeKind) (id : SymbolId)
    (words : List String) : Prop where
  eq : ∀ d, c.Declares kinds id d → d.StatesAccessibility →
    d.modifiers.filter (accessibilityModifiers.contains ·) = words
  stated : words ≠ [] → ∃ d, c.Declares kinds id d ∧ d.StatesAccessibility

variable {c : Compilation} {qualifies : Nat → TypeDeclaration → Prop}
  {qualifying others : Site → Bool} {kinds : List TypeKind} {id : SymbolId} {words : List String}

/-- A fragment is a declaration of its symbol. -/
theorem Fragment.declares {p : Place} {d : TypeDeclaration} (h : c.Fragment qualifies id p)
    (hd : c.StandsAt p d) (hkinds : ∀ number d, qualifies number d → d.kind ∈ kinds) :
    c.Declares kinds id d := by
  obtain ⟨d', symbol, hstands, hqualifies, hsymbol, hid⟩ := h
  obtain rfl := hd.unique hstands
  exact ⟨p, symbol, hd, hkinds _ _ hqualifies, hsymbol, hid⟩

/-- The declarations of a symbol are among those that the searches go through. -/
theorem declares_iff {d : TypeDeclaration} :
    c.Declares kinds id d ↔ ∃ s ∈ c.sites, s.declaration = d ∧ s.declaration.kind ∈ kinds ∧
      (s.symbol? c.model).map (·.id) = some id := by
  constructor
  · rintro ⟨p, symbol, ⟨tree, htree, hstands⟩, hkind, hsymbol, rfl⟩
    have hplace := (c.mem_places_iff (p, ⟨tree, p.tree, d⟩)).2 ⟨htree, rfl, hstands⟩
    rw [← c.map_snd_places]
    exact ⟨_, List.mem_map_of_mem hplace, rfl, hkind, congrArg (Option.map _) hsymbol⟩
  · rintro ⟨s, hs, rfl, hkind, hid⟩
    rw [← c.map_snd_places] at hs
    obtain ⟨e, he, rfl⟩ := List.mem_map.1 hs
    obtain ⟨symbol, hsymbol, hid⟩ := Option.map_eq_some_iff.1 hid
    rw [Site.symbol?, ((c.mem_places_iff e).1 he).2.1] at hsymbol
    exact ⟨e.1, symbol, standsAt_of_mem_places he, hkind, hsymbol, hid⟩

/-- Agreement is a matter of finitely many declarations. -/
theorem agreesOn_iff : c.AgreesOn kinds id words ↔
    (∀ s ∈ c.sites, s.declaration.kind ∈ kinds → (s.symbol? c.model).map (·.id) = some id →
      s.declaration.accessibility? ≠ none →
        s.declaration.modifiers.filter (accessibilityModifiers.contains ·) = words) ∧
    (words ≠ [] → ∃ s ∈ c.sites, s.declaration.kind ∈ kinds ∧
      (s.symbol? c.model).map (·.id) = some id ∧ s.declaration.accessibility? ≠ none) := by
  have hstates (d : TypeDeclaration) : d.accessibility? ≠ none ↔ d.StatesAccessibility :=
    (not_congr d.accessibility?_eq_none_iff).trans not_not
  simp only [hstates]
  constructor
  · rintro ⟨heq, hstated⟩
    refine ⟨fun s hs hkind hid ↦ heq _ (declares_iff.2 ⟨s, hs, rfl, hkind, hid⟩), fun hne ↦ ?_⟩
    obtain ⟨d, hd, hd'⟩ := hstated hne
    obtain ⟨s, hs, rfl, hkind, hid⟩ := declares_iff.1 hd
    exact ⟨s, hs, hkind, hid, hd'⟩
  · rintro ⟨heq, hstated⟩
    refine ⟨fun d hd hd' ↦ ?_, fun hne ↦ ?_⟩
    · obtain ⟨s, hs, rfl, hkind, hid⟩ := declares_iff.1 hd
      exact heq s hs hkind hid hd'
    · obtain ⟨s, hs, hkind, hid, hs'⟩ := hstated hne
      exact ⟨_, declares_iff.2 ⟨s, hs, rfl, hkind, hid⟩, hs'⟩

instance : Decidable (c.AgreesOn kinds id words) := decidable_of_iff _ agreesOn_iff.symm

/-- If a declaration states the accessibility of a symbol, some accessibility is found for it. -/
theorem Declares.statedAccessibility?_ne_none {d : TypeDeclaration} (h : c.Declares kinds id d)
    (hstates : d.StatesAccessibility)
    (hothers : ∀ s, others s = true ↔ s.declaration.kind ∈ kinds) :
    statedAccessibility? c.model (c.sites.filter others) id ≠ none := by
  obtain ⟨s, hs, rfl, hkind, hid⟩ := declares_iff.1 h
  obtain ⟨words, hwords⟩ := hstates.exists_eq
  intro hnone
  rw [statedAccessibility?, List.findSome?_eq_none_iff] at hnone
  have hsome := hnone s (List.mem_filter.2 ⟨hs, (hothers s).2 hkind⟩)
  rw [hwords] at hsome
  simp [hid] at hsome

/-- **What a search keeps has the accessibility on which the declarations agree**, as a declaration
with these words states it. -/
theorem AgreesOn.exists_accessibility_eq (h : c.AgreesOn kinds id words)
    (hq : ∀ s, qualifying s = true ↔ qualifies s.number s.declaration)
    (hkinds : ∀ number d, qualifies number d → d.kind ∈ kinds)
    (hothers : ∀ s, others s = true ↔ s.declaration.kind ∈ kinds) {participant : Participant}
    (hmem : participant ∈ (firstOfEach ((c.sites.filter qualifying).filterMap
      (·.participant? c.model))).map (·.completed c.model (c.sites.filter others)))
    (hid : participant.id = id) :
    ∃ d : TypeDeclaration, d.modifiers.filter (accessibilityModifiers.contains ·) = words ∧
      participant.accessibility = d.accessibility? := by
  obtain ⟨p, d, hfirst, hstands, haccessibility⟩ := Compilation.exists_accessibility_eq hq hmem
  rw [hid] at hfirst haccessibility
  by_cases hstates : d.StatesAccessibility
  · obtain ⟨stated, hstated⟩ := hstates.exists_eq
    refine ⟨d, h.eq d (hfirst.fragment.declares hstands hkinds) hstates, ?_⟩
    rw [haccessibility, hstated, Option.some_or]
  · have hsilent := TypeDeclaration.accessibility?_eq_none_iff.2 hstates
    rw [hsilent, Option.none_or] at haccessibility
    cases hfound : statedAccessibility? c.model (c.sites.filter others) id with
    | some stated =>
      obtain ⟨q, d', hfirst', hstands', hstated⟩ :=
        (statedAccessibility?_sites_eq_some_iff hothers).1 hfound
      obtain ⟨d₁, symbol, hstands₁, ⟨hkind, hstates'⟩, hsymbol, hid'⟩ := hfirst'.fragment
      obtain rfl := hstands'.unique hstands₁
      refine ⟨d', h.eq d' ⟨q, symbol, hstands', hkind, hsymbol, hid'⟩ hstates', ?_⟩
      rw [haccessibility, hfound, hstated]
    | none =>
      -- No declaration states an accessibility, so there are no words, and the silent one has none.
      have hwords : words = [] := by
        by_contra hne
        obtain ⟨d', hd', hstates'⟩ := h.stated hne
        exact hd'.statedAccessibility?_ne_none hstates' hothers hfound
      refine ⟨d, ?_, by rw [haccessibility, hfound, hsilent]⟩
      rw [hwords, ← accessibilityWords_accessibility?, hsilent]
      rfl

end Compilation

/-- A declaration makes a participant public exactly if its only word of accessibility is
`public`. -/
theorem Participant.isPublic_iff {p : Participant} {d : TypeDeclaration}
    (h : p.accessibility = d.accessibility?) :
    p.isPublic = true ↔ d.modifiers.filter (accessibilityModifiers.contains ·) = ["public"] := by
  rw [isPublic, beq_iff_eq, h]
  constructor
  · intro hpublic
    rw [← accessibilityWords_accessibility?, hpublic]
    decide
  · intro hwords
    rw [TypeDeclaration.accessibility?, hwords]
    rfl

/-! ### The hierarchies of a pass -/

namespace Pass

variable {settings : Settings} {c : Compilation} {token : CancellationToken} {h h' : History}
  {report : PassReport} {hierarchy : Hierarchy} {words : List String}

/-- An implementing type has the accessibility on which its declarations agree. -/
theorem exists_accessibility_of_mem_types (hmem : hierarchy ∈ hierarchies settings c)
    {p : Participant} (hp : p ∈ hierarchy.types) (hwords : c.AgreesOn implementorKinds p.id words) :
    ∃ d : TypeDeclaration, d.modifiers.filter (accessibilityModifiers.contains ·) = words ∧
      p.accessibility = d.accessibility? := by
  obtain ⟨root, -, rfl⟩ := List.mem_map.1 hmem
  exact hwords.exists_accessibility_eq (Site.isTypeFragment_iff settings.matching c.model root)
    (fun _ _ h ↦ h.1) (fun s ↦ s.declaration.kind.isImplementor_iff) hp rfl

/-- A root has the accessibility on which its declarations as an interface agree. -/
theorem exists_accessibility_root (hmem : hierarchy ∈ hierarchies settings c)
    (hwords : c.AgreesOn [.interfaceType] hierarchy.root.id words) :
    ∃ d : TypeDeclaration, d.modifiers.filter (accessibilityModifiers.contains ·) = words ∧
      hierarchy.root.accessibility = d.accessibility? := by
  obtain ⟨root, hroot, rfl⟩ := List.mem_map.1 hmem
  exact hwords.exists_accessibility_eq (Site.isRootFragment_iff c.model)
    (fun _ _ h ↦ List.mem_singleton.2 h.1) (fun s ↦ by simp [Site.isInterface]) hroot rfl

/-- The contracts of a hierarchy are public exactly if the declarations of one of its symbols agree
on `public`. -/
theorem contractsPublic_iff (hmem : hierarchy ∈ hierarchies settings c)
    (hroot : c.AgreesOn [.interfaceType] hierarchy.root.id words)
    {typeWords : SymbolId → List String}
    (htypes : ∀ p ∈ hierarchy.types, c.AgreesOn implementorKinds p.id (typeWords p.id)) :
    hierarchy.contractsPublic = true ↔
      words = ["public"] ∨ ∃ p ∈ hierarchy.types, typeWords p.id = ["public"] := by
  obtain ⟨d, hd, haccessibility⟩ := exists_accessibility_root hmem hroot
  rw [Hierarchy.contractsPublic, Bool.or_eq_true, List.any_eq_true,
    Participant.isPublic_iff haccessibility, hd]
  refine or_congr_right (exists_congr fun p ↦ and_congr_right fun hp ↦ ?_)
  obtain ⟨d', hd', haccessibility'⟩ := exists_accessibility_of_mem_types hmem hp (htypes p hp)
  rw [Participant.isPublic_iff haccessibility', hd']

/-- **Accessibility does not depend on which declaration states it.** However a pass ends, what it
hands over are the files of hierarchies. Where the declarations of an implementing type agree on its
accessibility, the declaration that continues it has these words as modifiers, and `partial` behind
them; and so has the one that continues the root, where its declarations as an interface agree. The
contracts are public exactly if the words of the root or of an implementing type are just `public`,
and otherwise they have the words of the root. -/
theorem modifiers_of_agreesOn (hm : MayEnd settings c token h report h') :
    ∃ (handed : List Artifact) (emitted : List Hierarchy),
      h'.artifacts = h.artifacts ++ handed ∧ emitted <+: hierarchies settings c ∧
      (report.outcome = .completed → emitted = hierarchies settings c) ∧
      handed.map (·.text) = emitted.flatMap (fun hierarchy ↦ hierarchy.files.map (·.render)) ∧
      ∀ hierarchy ∈ emitted,
        let root := hierarchy.root
        (∀ p ∈ hierarchy.types, ∀ words, c.AgreesOn implementorKinds p.id words →
          ∃ continuation, (p.augmentation root).blocks = [continuation] ∧
            continuation.name = p.name ∧ continuation.modifiers = words ++ ["partial"]) ∧
        ∀ words, c.AgreesOn [.interfaceType] root.id words →
          ∃ continuation contracts, hierarchy.rootFile.blocks = continuation :: contracts ∧
            continuation.name = root.name ∧ continuation.modifiers = words ++ ["partial"] ∧
            (contracts.map (·.name) = [root.visitorName, root.visitorName]) ∧
            ∀ typeWords : SymbolId → List String,
              (∀ p ∈ hierarchy.types, c.AgreesOn implementorKinds p.id (typeWords p.id)) →
              let isPublic := words = ["public"] ∨ ∃ p ∈ hierarchy.types,
                typeWords p.id = ["public"]
              ∀ contract ∈ contracts, (contract.modifiers = ["public"] ↔ isPublic) ∧
                (¬isPublic → contract.modifiers = words) := by
  obtain ⟨handed, emitted, hhistory, hfirst, hcompleted, htexts⟩ := hm.exists_files
  refine ⟨handed, emitted, hhistory, hfirst, hcompleted, htexts, fun hierarchy hemitted ↦ ?_⟩
  have hmem := hfirst.subset hemitted
  refine ⟨fun p hp words hwords ↦ ?_, fun words hwords ↦ ?_⟩
  · obtain ⟨d, rfl, haccessibility⟩ := exists_accessibility_of_mem_types hmem hp hwords
    refine ⟨_, p.blocks_augmentation _, rfl, ?_⟩
    rw [Participant.continuation, partialModifiers, haccessibility,
      accessibilityWords_accessibility?]
  · obtain ⟨d, hd, haccessibility⟩ := exists_accessibility_root hmem hwords
    have hroot : accessibilityWords hierarchy.root.accessibility = words := by
      rw [haccessibility, accessibilityWords_accessibility?, hd]
    refine ⟨_, _, hierarchy.blocks_rootFile, rfl, ?_, rfl, ?_⟩
    · rw [Participant.continuation, partialModifiers, hroot]
    · intro typeWords htypes isPublic block hblock
      obtain ⟨contract, -, rfl⟩ := List.mem_map.1 hblock
      have hpublic : hierarchy.contractsPublic = true ↔ isPublic :=
        contractsPublic_iff hmem hwords htypes
      rw [Contract.declaration, hroot]
      by_cases hp : isPublic
      · rw [if_pos (hpublic.2 hp)]
        exact ⟨iff_of_true rfl hp, fun hnot ↦ absurd hp hnot⟩
      · rw [if_neg (mt hpublic.1 hp)]
        exact ⟨iff_of_false (fun heq ↦ hp (.inl heq)) hp, fun _ ↦ rfl⟩

/-- An interface and two classes in three files: the first one states the accessibility of the
class `C`, the second one makes the interface a root and the classes its types, and the third one
states the accessibilities of the interface and of the class `D`. -/
def fragmentsSample : List (String × String) :=
  [markerSample, ("A.cs", "public sealed partial class C;"),
   ("B.cs",
    "[VisitorGenerator.VisitorNode]partial interface I; partial class D:I; partial class C:I;"),
   ("C.cs", "internal partial interface I; protected internal class D;")]

/-- The words on which the declarations of the classes of the sample agree. -/
def fragmentsWords (id : SymbolId) : List String :=
  if id = ⟨"C"⟩ then ["public"] else ["protected", "internal"]

/-- In the sample, what is generated repeats the words from the other trees, and the public class
makes the contracts public. -/
theorem modifiers_of_agreesOn_fragmentsSample :
    ∃ trees, parseAll fragmentsSample = .ok trees ∧
      let c := Compilation.ofTrees trees
      ∃ hierarchy ∈ hierarchies {} c,
        hierarchy.types.map (·.id) = [⟨"D"⟩, ⟨"C"⟩] ∧
        c.AgreesOn [.interfaceType] hierarchy.root.id ["internal"] ∧
        (∀ p ∈ hierarchy.types, c.AgreesOn implementorKinds p.id (fragmentsWords p.id)) ∧
        (∀ p ∈ hierarchy.types, ∃ continuation,
          (p.augmentation hierarchy.root).blocks = [continuation] ∧
            continuation.modifiers = fragmentsWords p.id ++ ["partial"]) ∧
        ∃ continuation contracts, hierarchy.rootFile.blocks = continuation :: contracts ∧
          continuation.modifiers = ["internal", "partial"] ∧
          ∀ contract ∈ contracts, contract.modifiers = ["public"] := by
  obtain ⟨trees, htrees, hierarchy, hmem, hids, hroot, htypes⟩ :
      ∃ trees, parseAll fragmentsSample = .ok trees ∧
        let c := Compilation.ofTrees trees
        ∃ hierarchy ∈ hierarchies {} c,
          hierarchy.types.map (·.id) = [⟨"D"⟩, ⟨"C"⟩] ∧
          c.AgreesOn [.interfaceType] hierarchy.root.id ["internal"] ∧
          ∀ p ∈ hierarchy.types, c.AgreesOn implementorKinds p.id (fragmentsWords p.id) :=
    exists_parseAll fragmentsSample [(_, _), (_, _), (_, _), (_, _)] rfl (by decide +kernel)
  have hm := mayEnd_run {} (.ofTrees trees) .never []
  obtain ⟨handed, emitted, -, -, hcompleted, -, hemitted⟩ := modifiers_of_agreesOn hm
  obtain rfl := hcompleted hm.outcome_of_never
  obtain ⟨hcontinuations, hrootFile⟩ := hemitted hierarchy hmem
  obtain ⟨continuation, contracts, hblocks, -, hmodifiers, -, hcontracts⟩ := hrootFile _ hroot
  refine ⟨trees, htrees, hierarchy, hmem, hids, hroot, htypes, fun p hp ↦ ?_, continuation,
    contracts, hblocks, hmodifiers, fun contract hcontract ↦ ?_⟩
  · obtain ⟨block, hblock, -, hwords⟩ := hcontinuations p hp _ (htypes p hp)
    exact ⟨block, hblock, hwords⟩
  · have hpublic : ∃ p ∈ hierarchy.types, fragmentsWords p.id = ["public"] := by
      have hid : (⟨"C"⟩ : SymbolId) ∈ hierarchy.types.map (·.id) := by rw [hids]; decide
      obtain ⟨p, hp, hpid⟩ := List.mem_map.1 hid
      exact ⟨p, hp, by rw [hpid]; rfl⟩
    exact (hcontracts fragmentsWords htypes contract hcontract).1.2 (.inr hpublic)

end Pass

end DoubleDispatch
