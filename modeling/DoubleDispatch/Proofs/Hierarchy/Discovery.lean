import DoubleDispatch.Proofs.Hierarchy.Places
import DoubleDispatch.Proofs.Pass.Cut

/-!
# What discovery finds

Which symbols are roots, and which implement a root, is said here by the declarations of a
compilation alone: a symbol is found if a qualifying declaration of it stands at some place
(`Compilation.Fragment`). `Compilation.Found` says that a list of participants is exactly that:
complete, sound, free of duplicates, and ordered by the first qualifying declarations.

Both searches of the code have one shape. They go through the declarations in document order, keep
those that qualify, ask the model for their symbols, and keep the first participant of each. So
one theorem, `found_of_qualifying`, serves both; it rests on what `firstOfEach` keeps of a list
whose entries stand at increasing places (`firsts_firstOfEach`).
-/

namespace DoubleDispatch

/-! ### The first entry of each symbol -/

/-- Of the listed entries, `kept` are the first ones of each symbol. -/
structure Firsts {α : Type} (before : α → α → Prop) (listed kept : List (α × Participant)) :
    Prop where
  sublist : kept.Sublist listed
  nodup : (kept.map (·.2.id)).Nodup
  covers : ∀ e ∈ listed, ∃ e' ∈ kept, e'.2.id = e.2.id
  first : ∀ e ∈ kept, ∀ e' ∈ listed, e'.2.id = e.2.id → e' = e ∨ before e.1 e'.1

namespace Firsts

variable {α : Type} {before : α → α → Prop}

theorem nil : Firsts before [] [] where
  sublist := .slnil
  nodup := List.nodup_nil
  covers := by simp
  first := by simp

/-- **One entry more in front**: it is the first one of its symbol. -/
theorem cons {e : α × Participant} {listed kept : List (α × Participant)}
    (hf : Firsts before listed kept) (hlt : ∀ e' ∈ listed, before e.1 e'.1) :
    Firsts before (e :: listed) (e :: kept.filter (·.2.id != e.2.id)) where
  sublist := (List.filter_sublist.trans hf.sublist).cons_cons e
  nodup := by
    refine List.nodup_cons.2 ⟨fun hmem ↦ ?_, hf.nodup.sublist (List.filter_sublist.map _)⟩
    obtain ⟨e', he', hid⟩ := List.mem_map.1 hmem
    simp [hid] at he'
  covers := by
    intro e' he'
    by_cases hid : e'.2.id = e.2.id
    · exact ⟨e, List.mem_cons_self, hid.symm⟩
    · rcases List.mem_cons.1 he' with rfl | he'
      · exact absurd rfl hid
      · obtain ⟨e'', he'', heq⟩ := hf.covers e' he'
        have hkeep : (e''.2.id != e.2.id) = true := by simpa [heq] using hid
        exact ⟨e'', List.mem_cons_of_mem _ (List.mem_filter.2 ⟨he'', hkeep⟩), heq⟩
  first := by
    intro e₁ he₁ e₂ he₂ hid
    rcases List.mem_cons.1 he₁ with rfl | he₁
    · rcases List.mem_cons.1 he₂ with rfl | he₂
      · exact .inl rfl
      · exact .inr (hlt e₂ he₂)
    · obtain ⟨hkept, hne⟩ := List.mem_filter.1 he₁
      rcases List.mem_cons.1 he₂ with rfl | he₂
      · simp [hid] at hne
      · exact hf.first e₁ hkept e₂ he₂ hid

end Firsts

/-- **`firstOfEach` keeps the first participant of each symbol.** -/
theorem firsts_firstOfEach {α : Type} {before : α → α → Prop} {listed : List (α × Participant)}
    (hl : listed.Pairwise fun e e' ↦ before e.1 e'.1) :
    ∃ kept, Firsts before listed kept ∧ kept.map (·.2) = firstOfEach (listed.map (·.2)) := by
  induction listed with
  | nil => exact ⟨[], .nil, rfl⟩
  | cons e listed ih =>
    obtain ⟨hlt, hl⟩ := List.pairwise_cons.1 hl
    obtain ⟨kept, hf, hmap⟩ := ih hl
    refine ⟨_, hf.cons hlt, ?_⟩
    rw [List.map_cons, List.map_cons, firstOfEach, ← hmap, List.filter_map]
    rfl

/-! ### Found symbols -/

namespace Compilation

variable (c : Compilation)

/-- A qualifying declaration of the symbol with the given id stands at a place. -/
def Fragment (qualifies : Nat → TypeDeclaration → Prop) (id : SymbolId) (p : Place) : Prop :=
  ∃ d symbol, c.StandsAt p d ∧ qualifies p.tree d ∧
    c.model.declaredSymbol? p.tree d = some symbol ∧ symbol.id = id

/-- The first place at which a qualifying declaration of a symbol stands. -/
structure FirstFragment (qualifies : Nat → TypeDeclaration → Prop) (id : SymbolId) (p : Place) :
    Prop where
  fragment : c.Fragment qualifies id p
  before : ∀ q, c.Fragment qualifies id q → q = p ∨ p.Before q

/-- A participant shows what the declaration at a place and its symbol say of it. -/
def Shows (participant : Participant) (p : Place) : Prop :=
  ∃ d symbol, c.StandsAt p d ∧ c.model.declaredSymbol? p.tree d = some symbol ∧
    participant.name = d.name ∧ participant.ns = symbol.ns ∧ participant.id = symbol.id ∧
    participant.kind = d.kind ∧ participant.typeParameters = d.typeParameters

/-- The participants are the symbols with qualifying declarations: all of them and no other, each
once and as its first qualifying declaration shows it, in the order of these declarations. -/
structure Found (qualifies : Nat → TypeDeclaration → Prop) (participants : List Participant) :
    Prop where
  mem_iff : ∀ id, id ∈ participants.map (·.id) ↔ ∃ p, c.Fragment qualifies id p
  nodup : (participants.map (·.id)).Nodup
  shown : ∀ participant ∈ participants,
    ∃ p, c.FirstFragment qualifies participant.id p ∧ c.Shows participant p
  ordered : participants.Pairwise fun first later ↦ ∃ p q,
    c.FirstFragment qualifies first.id p ∧ c.FirstFragment qualifies later.id q ∧ p.Before q

/-! ### Qualifying declarations with their places -/

/-- The participants that qualifying declarations show, each with its place. -/
def shownAt (qualifying : Site → Bool) : List (Place × Participant) :=
  (c.places.filter fun e ↦ qualifying e.2).filterMap fun e ↦
    (e.2.participant? c.model).map (e.1, ·)

theorem map_snd_shownAt (qualifying : Site → Bool) :
    (c.shownAt qualifying).map (·.2) =
      (c.sites.filter qualifying).filterMap (·.participant? c.model) := by
  rw [shownAt, ← c.map_snd_places, List.filter_map, List.filterMap_map, List.map_filterMap]
  refine congrFun (congrArg List.filterMap (funext fun e ↦ ?_)) _
  simp [Option.map_map, Function.comp_def]

/-- What is shown stands in the order of the places. -/
theorem pairwise_shownAt (qualifying : Site → Bool) :
    (c.shownAt qualifying).Pairwise fun e e' ↦ e.1.Before e'.1 := by
  refine List.Pairwise.filterMap _ (fun e e' hlt a ha a' ha' ↦ ?_) (c.pairwise_places.filter _)
  obtain ⟨_, -, rfl⟩ := Option.map_eq_some_iff.1 ha
  obtain ⟨_, -, rfl⟩ := Option.map_eq_some_iff.1 ha'
  exact hlt

variable {c} {qualifies : Nat → TypeDeclaration → Prop} {qualifying : Site → Bool}

theorem shows_of_mem_shownAt {e : Place × Participant} (he : e ∈ c.shownAt qualifying) :
    c.Shows e.2 e.1 := by
  obtain ⟨⟨p, s⟩, hs, hsome⟩ := List.mem_filterMap.1 he
  obtain ⟨participant, hshown, rfl⟩ := Option.map_eq_some_iff.1 hsome
  obtain ⟨symbol, hsymbol, rfl⟩ := Option.map_eq_some_iff.1 hshown
  obtain ⟨ht, hnumber, hstands⟩ := (c.mem_places_iff _).1 (List.mem_of_mem_filter hs)
  exact ⟨_, symbol, ⟨_, ht, hstands⟩, by rw [← hnumber]; exact hsymbol, rfl, rfl, rfl, rfl, rfl⟩

/-- The entries of a symbol are its qualifying declarations. -/
theorem fragment_iff_mem_shownAt
    (hq : ∀ s, qualifying s = true ↔ qualifies s.number s.declaration) (id : SymbolId)
    (p : Place) :
    c.Fragment qualifies id p ↔ ∃ e ∈ c.shownAt qualifying, e.1 = p ∧ e.2.id = id := by
  constructor
  · rintro ⟨d, symbol, ⟨tree, ht, hstands⟩, hd, hsymbol, rfl⟩
    have hplace := (c.mem_places_iff (p, ⟨tree, p.tree, d⟩)).2 ⟨ht, rfl, hstands⟩
    have hs : Site.symbol? c.model ⟨tree, p.tree, d⟩ = some symbol := hsymbol
    obtain ⟨participant, hshown, hid⟩ : ∃ participant,
        Site.participant? c.model ⟨tree, p.tree, d⟩ = some participant ∧
          participant.id = symbol.id := ⟨_, by rw [Site.participant?, hs]; rfl, rfl⟩
    exact ⟨(p, participant), List.mem_filterMap.2 ⟨_, List.mem_filter.2 ⟨hplace, (hq _).2 hd⟩,
      congrArg (Option.map _) hshown⟩, rfl, hid⟩
  · rintro ⟨e, he, rfl, rfl⟩
    obtain ⟨⟨p, s⟩, hs, hsome⟩ := List.mem_filterMap.1 he
    obtain ⟨participant, hshown, rfl⟩ := Option.map_eq_some_iff.1 hsome
    obtain ⟨symbol, hsymbol, rfl⟩ := Option.map_eq_some_iff.1 hshown
    obtain ⟨hplace, hqualifying⟩ := List.mem_filter.1 hs
    obtain ⟨ht, hnumber, hstands⟩ := (c.mem_places_iff _).1 hplace
    have hd := (hq s).1 hqualifying
    have hdeclared : c.model.declaredSymbol? s.number s.declaration = some symbol := hsymbol
    rw [hnumber] at hd hdeclared
    exact ⟨s.declaration, symbol, ⟨s.tree, ht, hstands⟩, hd, hdeclared, rfl⟩

/-- What a search keeps are entries that stand at the first places of their symbols. -/
theorem exists_kept (hq : ∀ s, qualifying s = true ↔ qualifies s.number s.declaration) :
    ∃ kept, Firsts Place.Before (c.shownAt qualifying) kept ∧
      kept.map (·.2) =
        firstOfEach ((c.sites.filter qualifying).filterMap (·.participant? c.model)) ∧
      ∀ e ∈ kept, c.FirstFragment qualifies e.2.id e.1 := by
  obtain ⟨kept, hfirsts, hkept⟩ := firsts_firstOfEach (c.pairwise_shownAt qualifying)
  rw [map_snd_shownAt] at hkept
  refine ⟨kept, hfirsts, hkept, fun e he ↦ ⟨?_, ?_⟩⟩
  · exact (fragment_iff_mem_shownAt hq _ _).2 ⟨e, hfirsts.sublist.subset he, rfl, rfl⟩
  · -- All places are listed, and among these the one that was kept is the first.
    intro q hfragment
    obtain ⟨e', he', rfl, hid⟩ := (fragment_iff_mem_shownAt hq _ _).1 hfragment
    exact (hfirsts.first e he e' he' hid).imp (congrArg Prod.fst) id

/-- **What a search finds.** The first participants of qualifying declarations are the symbols
with such a declaration; that they are completed by the accessibility of other declarations does
not matter. -/
theorem found_of_qualifying
    (hq : ∀ s, qualifying s = true ↔ qualifies s.number s.declaration) (others : List Site) :
    c.Found qualifies
      ((firstOfEach ((c.sites.filter qualifying).filterMap (·.participant? c.model))).map
        (·.completed c.model others)) := by
  obtain ⟨kept, hfirsts, hkept, hfirst⟩ := c.exists_kept hq
  rw [← hkept, List.map_map]
  constructor
  · intro id
    simp only [List.map_map, List.mem_map, fragment_iff_mem_shownAt hq]
    constructor
    · rintro ⟨e, he, rfl⟩
      exact ⟨e.1, e, hfirsts.sublist.subset he, rfl, rfl⟩
    · rintro ⟨p, e, he, -, rfl⟩
      obtain ⟨e', he', hid⟩ := hfirsts.covers e he
      exact ⟨e', he', hid⟩
  · rw [List.map_map]
    exact hfirsts.nodup
  · intro participant hmem
    obtain ⟨e, he, rfl⟩ := List.mem_map.1 hmem
    exact ⟨e.1, hfirst e he, shows_of_mem_shownAt (hfirsts.sublist.subset he)⟩
  · rw [List.pairwise_map]
    refine List.Pairwise.imp_of_mem ?_ ((c.pairwise_shownAt qualifying).sublist hfirsts.sublist)
    exact fun he he' hlt ↦ ⟨_, _, hfirst _ he, hfirst _ he', hlt⟩

end Compilation

/-! ### Roots and implementing types -/

/-- A declaration makes its symbol a root: it declares an interface without the `file` modifier,
and an attribute in one of its sections is the marker. -/
def MarksRoot (m : SemanticModel) (number : Nat) (d : TypeDeclaration) : Prop :=
  d.kind = .interfaceType ∧ "file" ∉ d.modifiers ∧
    ∃ part ∈ d.sections, ∃ a ∈ part.attributes,
      m.attributeType? number d a = some ⟨"VisitorGenerator.VisitorNodeAttribute"⟩

/-- A base entry names a root, by its simple name or by what the model resolves it to. -/
def NamesRoot (matching : Matching) (m : SemanticModel) (root : Participant) (number : Nat)
    (d : TypeDeclaration) (b : BaseEntry) : Prop :=
  match matching with
  | .syntactic => b.simpleName? = some root.name
  | .semantic => m.baseType? number d b = some root.id

/-- A declaration makes its symbol an implementing type of a root: it declares a class, a struct, a
record or a record struct without the `file` modifier, and a base entry names the root. -/
def Implements (matching : Matching) (m : SemanticModel) (root : Participant) (number : Nat)
    (d : TypeDeclaration) : Prop :=
  d.kind ∈ [.classType, .structType, .recordType, .recordStruct] ∧ "file" ∉ d.modifiers ∧
    ∃ b ∈ d.bases, NamesRoot matching m root number d b

theorem TypeKind.isImplementor_iff (kind : TypeKind) :
    kind.isImplementor = true ↔
      kind ∈ [TypeKind.classType, .structType, .recordType, .recordStruct] := by
  cases kind <;> decide

namespace Site

/-- The check of a root fragment decides whether the declaration marks a root. -/
theorem isRootFragment_iff (m : SemanticModel) (s : Site) :
    s.isRootFragment m = true ↔ MarksRoot m s.number s.declaration := by
  have hid : Marker.id = ⟨"VisitorGenerator.VisitorNodeAttribute"⟩ := by decide
  simp only [isRootFragment, isInterface, isMarked, hasMarker, TypeDeclaration.attributes,
    TypeDeclaration.isFileLocal, TypeDeclaration.hasModifier, MarksRoot, hid, Bool.and_eq_true,
    beq_iff_eq, Bool.not_eq_true', List.contains_eq_mem, decide_eq_false_iff_not, List.any_eq_true,
    List.mem_flatMap]
  constructor
  · rintro ⟨⟨hkind, a, ⟨part, hpart, ha⟩, hmarker⟩, hfile⟩
    exact ⟨hkind, hfile, part, hpart, a, ha, hmarker⟩
  · rintro ⟨hkind, hfile, part, hpart, a, ha, hmarker⟩
    exact ⟨⟨hkind, a, ⟨part, hpart, ha⟩, hmarker⟩, hfile⟩

/-- The check of a base entry decides whether it names the root, in either mode. -/
theorem namesRoot_iff (matching : Matching) (m : SemanticModel) (root : Participant) (s : Site)
    (b : BaseEntry) :
    s.namesRoot matching m root b = true ↔ NamesRoot matching m root s.number s.declaration b := by
  cases matching <;> exact beq_iff_eq

/-- The check of a type fragment decides whether the declaration implements the root. -/
theorem isTypeFragment_iff (matching : Matching) (m : SemanticModel) (root : Participant)
    (s : Site) :
    s.isTypeFragment matching m root = true ↔
      Implements matching m root s.number s.declaration := by
  simp only [isTypeFragment, isImplementor, TypeKind.isImplementor_iff, listsRoot, List.any_eq_true,
    namesRoot_iff, TypeDeclaration.isFileLocal, TypeDeclaration.hasModifier, Implements,
    Bool.and_eq_true, Bool.not_eq_true', List.contains_eq_mem, decide_eq_false_iff_not]
  rw [and_assoc, and_comm (b := "file" ∉ _)]

end Site

namespace Compilation

/-- The roots are the symbols that marked interfaces declare. -/
theorem found_roots (c : Compilation) : c.Found (MarksRoot c.model) c.roots :=
  found_of_qualifying (Site.isRootFragment_iff c.model) _

/-- The implementing types of a root are the symbols of the declarations that list it. -/
theorem found_implementors (c : Compilation) (matching : Matching) (root : Participant) :
    c.Found (Implements matching c.model root) (c.implementors matching root) :=
  found_of_qualifying (Site.isTypeFragment_iff matching c.model root) _

end Compilation

/-! ### Reported discoveries -/

namespace Pass

variable {settings : Settings} {c : Compilation} {token : CancellationToken} {h h' : History}
  {report : PassReport}

theorem map_reportsOf (names : ArtifactNames) (hierarchies : List Hierarchy) :
    (reportsOf names hierarchies).map (fun r ↦ (r.name, r.ns, r.implementingTypes)) =
      hierarchies.map fun h ↦ (h.root.name, h.root.ns.name?, h.types.map (·.name)) := by
  induction hierarchies generalizing names with
  | nil => rfl
  | cons hierarchy later ih =>
    rw [reportsOf_cons, List.map_cons, List.map_cons, ih]
    rfl

/-- **Discovery is complete, sound and free of duplicates.** The roots of a compilation are the
symbols with a marked interface declaration, the types of a root are the symbols with a declaration
that lists it, and a pass that completes, as one that nobody cancels does, reports exactly these, in
their order. -/
theorem reports_discovered (hm : MayEnd settings c token h report h') :
    c.Found (MarksRoot c.model) c.roots ∧
      (∀ root ∈ c.roots, c.Found (Implements settings.matching c.model root)
        (c.implementors settings.matching root)) ∧
      (token = .never → report.outcome = .completed) ∧
      (report.outcome = .completed →
        report.roots.map (fun r ↦ (r.name, r.ns, r.implementingTypes)) =
          c.roots.map fun root ↦ (root.name, root.ns.name?,
            (c.implementors settings.matching root).map (·.name))) := by
  refine ⟨c.found_roots, fun root _ ↦ c.found_implementors settings.matching root, ?_, ?_⟩
  · rintro rfl
    exact hm.outcome_of_never
  · intro ho
    obtain ⟨n, hn⟩ := hm.exists_cutAt
    rw [hn.roots_eq, hn.eq_length_of_completed ho,
      List.take_of_length_le (length_reports settings c).le, reports, map_reportsOf, hierarchies,
      List.map_map]
    rfl

/-- What is found in the sample is reported. -/
theorem reports_discovered_sample :
    ∃ trees, parseAll sample = .ok trees ∧
      let c := Compilation.ofTrees trees
      c.Found (MarksRoot c.model) c.roots ∧
        (run {} c .never []).1.roots.map (fun r ↦ (r.name, r.ns, r.implementingTypes)) =
          [("IShape", none, ["Circle"]), ("IColor", none, ["Red"])] := by
  obtain ⟨trees, htrees, hroots⟩ : ∃ trees, parseAll sample = .ok trees ∧
      let c := Compilation.ofTrees trees
      (c.roots.map fun root ↦ (root.name, root.ns.name?,
          (c.implementors .syntactic root).map (·.name))) =
        [("IShape", none, ["Circle"]), ("IColor", none, ["Red"])] :=
    exists_parseAll sample [(_, _), (_, _), (_, _)] rfl (by decide +kernel)
  obtain ⟨hfound, -, hcompleted, hreported⟩ :=
    reports_discovered (mayEnd_run {} (.ofTrees trees) .never [])
  exact ⟨trees, htrees, hfound, (hreported (hcompleted rfl)).trans hroots⟩

end Pass

end DoubleDispatch
