import DoubleDispatch.Emission
import DoubleDispatch.Proofs.Emission.Enclosing

/-!
# Generated text continues the right symbols

Where the names of a hierarchy can be read, so can the text that is generated for it. Read back, the
file of an implementing type has one declaration, with the header of that type, and its symbol in a
table of declarations is that type, whatever other trees the table is made from. The file of the
root has three interfaces: the root and the two contracts in the namespace of the root.
-/

namespace DoubleDispatch

open Piece (ends_cons)

/-! ### Hierarchies whose names can be read -/

/-- A participant as a declaration shows it: it has the name and type parameters of a declaration,
stands in a namespace that can be written, states modifiers of accessibility only, and has the id
that comes with these. -/
structure Participant.IsWellNamed (p : Participant) : Prop where
  name : Syntax.IsName p.name
  typeParameters : ∀ name ∈ p.typeParameters, Syntax.IsName name
  ns : ∀ name ∈ p.ns.name?, Syntax.IsDottedName name
  accessibility : ∀ word ∈ accessibilityWords p.accessibility, word ∈ accessibilityModifiers
  id : p.id = .ofParts p.ns p.name p.typeParameters.length

instance : DecidablePred Participant.IsWellNamed := fun p ↦
  decidable_of_iff (Syntax.IsName p.name ∧ (∀ name ∈ p.typeParameters, Syntax.IsName name) ∧
      (∀ name ∈ p.ns.name?, Syntax.IsDottedName name) ∧
      (∀ word ∈ accessibilityWords p.accessibility, word ∈ accessibilityModifiers) ∧
      p.id = .ofParts p.ns p.name p.typeParameters.length)
    ⟨fun ⟨name, typeParameters, ns, accessibility, id⟩ ↦
      ⟨name, typeParameters, ns, accessibility, id⟩,
      fun h ↦ ⟨h.name, h.typeParameters, h.ns, h.accessibility, h.id⟩⟩

/-- A hierarchy all of whose names can be read. -/
structure Hierarchy.IsWellNamed (h : Hierarchy) : Prop where
  root : h.root.IsWellNamed
  types : ∀ p ∈ h.types, p.IsWellNamed
  usings : ∀ name ∈ h.usings, Syntax.IsDottedName name

instance : DecidablePred Hierarchy.IsWellNamed := fun h ↦
  decidable_of_iff (h.root.IsWellNamed ∧ (∀ p ∈ h.types, p.IsWellNamed) ∧
      ∀ name ∈ h.usings, Syntax.IsDottedName name)
    ⟨fun ⟨root, types, usings⟩ ↦ ⟨root, types, usings⟩, fun h ↦ ⟨h.root, h.types, h.usings⟩⟩

/-- Every modifier of accessibility is a word the parser reads as a modifier. -/
theorem accessibilityModifiers_subset_modifierWords :
    accessibilityModifiers ⊆ Stream.modifierWords := by decide

/-- A list of modifiers of accessibility is read as these modifiers. -/
theorem accessibilityWords_intercalate {words : List String}
    (h : ∀ word ∈ words, word ∈ accessibilityModifiers) :
    accessibilityWords (some (" ".intercalate words)) = words := by
  have hall : ∀ word ∈ accessibilityModifiers, word ≠ "" ∧ word.toList.all (!Text.isBlank ·) := by
    decide
  have hvisible : ∀ word ∈ words, word ≠ "" ∧ ∀ c ∈ word.toList, Text.isBlank c = false := by
    intro word hword
    simpa using hall word (h word hword)
  have hid : String.ofList ∘ String.toList = id := funext fun _ ↦ String.ofList_toList
  rw [accessibilityWords, Text.words_intercalate hvisible, List.map_map, hid, List.map_id]

/-- The words of the accessibility that a declaration states are its modifiers of accessibility. -/
theorem accessibilityWords_accessibility? (d : TypeDeclaration) :
    accessibilityWords d.accessibility? =
      d.modifiers.filter (accessibilityModifiers.contains ·) := by
  rw [TypeDeclaration.accessibility?]
  split
  · next hnone => rw [hnone]; rfl
  · refine accessibilityWords_intercalate fun word hword ↦ ?_
    exact List.contains_iff_mem.1 (List.mem_filter.1 hword).2

namespace Participant

variable {p : Participant}

theorem toList_visitorName (root : Participant) :
    root.visitorName.toList = root.name.toList ++ "Visitor".toList := String.toList_append

/-- The name of a contract may name a declaration, as no reserved word ends like it. -/
theorem isName_visitorName {root : Participant} (h : Syntax.IsName root.name) :
    Syntax.IsName root.visitorName := by
  have hsuffix : ∀ word ∈ Syntax.reservedWords,
      "Visitor".toList.isSuffixOf word.toList = false := by decide
  refine ⟨?_, fun hmem ↦ ?_⟩
  · rw [toList_visitorName]
    exact Text.isIdentifier_append h.1 (List.all_eq_true.1 (by decide))
  · have hfalse := hsuffix _ hmem
    rw [toList_visitorName, Bool.eq_false_iff, Ne, List.isSuffixOf_iff_suffix] at hfalse
    exact hfalse (List.suffix_append _ _)

/-- The words written for an accessibility are read as modifiers. -/
theorem IsWellNamed.accessibilityWords_subset (hp : p.IsWellNamed) :
    ∀ word ∈ accessibilityWords p.accessibility, word ∈ Stream.modifierWords :=
  fun word hword ↦ accessibilityModifiers_subset_modifierWords (hp.accessibility word hword)

end Participant

/-! ### Methods -/

namespace Contract

variable (contract : Contract) {root : Participant}

/-- The reference to a contract is content. -/
theorem isContent_reference (hroot : Syntax.IsName root.name) :
    IsContent (contract.reference root).toList := by
  have hvisitor : IsContent root.visitorName.toList :=
    .word (Participant.isName_visitorName hroot).1
  cases contract with
  | void => exact hvisitor
  | value =>
    have hname : IsContent ['T'] := .word (by decide)
    have hclose := hname.append (.mark_append (m := .greater) nofun ⟨rfl, rfl⟩ .nil)
      (ends_cons (by decide) (by decide) [])
    have harguments := IsContent.mark_append (m := .less) nofun ⟨rfl, rfl⟩ hclose
    rw [reference, String.toList_append]
    exact hvisitor.append harguments (ends_cons (by decide) (by decide) _)

theorem isIdentifier_returnType : Text.isIdentifier contract.returnType.toList := by
  cases contract <;> decide

theorem isName_typeParameters : ∀ name ∈ contract.typeParameters, Syntax.IsName name := by
  cases contract <;> decide

/-- The method that accepts a visitor is well formed. -/
theorem isWellFormed_acceptMethod (hroot : Syntax.IsName root.name) {modifiers : List String}
    {expression : Option String}
    (hmodifiers : ∀ word ∈ modifiers, Text.isIdentifier word.toList)
    (hexpression : ∀ text, expression = some text → IsContent text.toList) :
    (contract.acceptMethod root modifiers expression).IsWellFormed where
  modifiers := hmodifiers
  returnType := contract.isIdentifier_returnType
  name := (by decide : Text.isIdentifier "Accept".toList)
  typeParameters name hname := (contract.isName_typeParameters name hname).1
  parameters := List.forall_mem_singleton.2 ⟨contract.isContent_reference hroot,
    (by decide : Text.isIdentifier "visitor".toList)⟩
  expression := hexpression

/-- The method that visits a type is well formed. -/
theorem isWellFormed_visitMethod {p : Participant} (hp : Syntax.IsName p.name) :
    (contract.visitMethod p).IsWellFormed where
  modifiers := nofun
  returnType := contract.isIdentifier_returnType
  name := (by decide : Text.isIdentifier "Visit".toList)
  typeParameters := nofun
  parameters := List.forall_mem_singleton.2 ⟨.word hp.1,
    (by decide : Text.isIdentifier "node".toList)⟩
  expression := nofun

end Contract

/-- What the methods of an implementing type do: they call the visitor. -/
theorem isContent_visit : IsContent "visitor.Visit(this)".toList := by
  have hthis : IsContent ['t', 'h', 'i', 's'] := .word (by decide)
  have hvisit : IsContent ['V', 'i', 's', 'i', 't'] := .word (by decide)
  have hvisitor : IsContent ['v', 'i', 's', 'i', 't', 'o', 'r'] := .word (by decide)
  have hcall := hvisit.append (IsContent.enclose_append .paren hthis .nil)
    (ends_cons (by decide) (by decide) _)
  exact hvisitor.append (.mark_append (m := .dot) nofun ⟨rfl, rfl⟩ hcall)
    (ends_cons (by decide) (by decide) _)

/-! ### Types -/

/-- The declaration that continues a participant can be read. -/
theorem Participant.IsWellNamed.exists_block {p : Participant} (hp : p.IsWellNamed)
    {methods : List Method} (hmethods : ∀ m ∈ methods, m.IsWellFormed) :
    ∃ b : Syntax.Block, b.item = p.continuation methods ∧ b.kind = p.kind := by
  have hwords : ∀ word ∈ partialModifiers p.accessibility, word ∈ Stream.modifierWords := by
    intro word hword
    rcases List.mem_append.1 hword with hword | hword
    · exact hp.accessibilityWords_subset word hword
    · rw [List.mem_singleton.1 hword]
      decide
  obtain ⟨modifiers, hmodifiers⟩ := Syntax.exists_modifiers hwords
  obtain ⟨typeParameters, htypeParameters⟩ := Syntax.exists_names hp.typeParameters
  refine ⟨⟨modifiers, p.kind, ⟨⟨p.name, hp.name.1⟩, hp.name.2⟩, typeParameters, methods,
    hmethods⟩, ?_, rfl⟩
  rw [Syntax.Block.item, hmodifiers, htypeParameters]
  rfl

/-- The declaration of a contract can be read. -/
theorem Hierarchy.IsWellNamed.exists_block {h : Hierarchy} (hh : h.IsWellNamed)
    (contract : Contract) :
    ∃ b : Syntax.Block, b.item = contract.declaration h ∧ b.kind = .interfaceType := by
  have hwords : ∀ word ∈ (contract.declaration h).modifiers, word ∈ Stream.modifierWords := by
    intro word hword
    rw [Contract.declaration] at hword
    split at hword
    · rw [List.mem_singleton.1 hword]
      decide
    · exact hh.root.accessibilityWords_subset word hword
  have hname := Participant.isName_visitorName hh.root.name
  obtain ⟨modifiers, hmodifiers⟩ := Syntax.exists_modifiers hwords
  obtain ⟨typeParameters, htypeParameters⟩ := Syntax.exists_names contract.isName_typeParameters
  refine ⟨⟨modifiers, .interfaceType, ⟨⟨h.root.visitorName, hname.1⟩, hname.2⟩, typeParameters,
    h.types.map contract.visitMethod, ?_⟩, ?_, rfl⟩
  · rw [List.forall_mem_map]
    exact fun p hp ↦ contract.isWellFormed_visitMethod (hh.types p hp).name
  · rw [Syntax.Block.item, hmodifiers, htypeParameters]
    rfl

/-! ### Files -/

/-- In the table of any trees among which the tree is, its types have the given ids. -/
def SourceTree.Declares (tree : SourceTree) (ids : List SymbolId) : Prop :=
  ∀ before behind : List SourceTree,
    let model := (DeclarationTable.ofTrees (before ++ tree :: behind)).model
    tree.types.map (fun d ↦ (model.declaredSymbol? before.length d).map (·.id)) = ids.map some

namespace SourceTree.HoldsIn

variable {tree : SourceTree} {usings : List String} {ns : Namespace} {blocks : List Syntax.Block}

/-- The ids of the types read back from blocks are made of the names the blocks carry. -/
theorem map_id (h : tree.HoldsIn usings ns blocks) :
    tree.types.map (fun d ↦ SymbolId.ofParts ns d.name d.arity) =
      blocks.map fun b ↦ .ofParts ns b.item.name b.item.typeParameters.length := by
  rw [h.map_types (fun d ↦ SymbolId.ofParts ns d.name d.arity) fun _ ↦ rfl]
  show blocks.zipIdx.map ((fun b : Syntax.Block ↦ SymbolId.ofParts ns b.item.name
    b.item.typeParameters.length) ∘ Prod.fst) = _
  rw [← List.map_map, List.zipIdx_map_fst]

theorem declares (h : tree.HoldsIn usings ns blocks) :
    tree.Declares (blocks.map fun b ↦ .ofParts ns b.item.name b.item.typeParameters.length) := by
  intro before behind
  have htree : (before ++ tree :: behind)[before.length]? = some tree := by simp
  rw [← h.map_id, List.map_map]
  refine List.map_congr_left fun d hd ↦ ?_
  show Option.map _ (((DeclarationTable.ofTrees _).get? before.length d).map (·.symbol)) = _
  rw [h.get?_ofTrees htree hd]
  rfl

end SourceTree.HoldsIn

/-- The tree of the file that continues an implementing type. -/
theorem Participant.IsWellNamed.exists_parse_augmentation {p root : Participant}
    (hp : p.IsWellNamed) (hroot : root.IsWellNamed) (path : String) :
    ∃ tree, ∃ b : Syntax.Block,
      SourceTree.parse path (p.augmentation root).render = .ok tree ∧
        tree.HoldsIn [] p.ns [b] ∧ b.kind = p.kind ∧
        ∃ methods, b.item = p.continuation methods := by
  have hmethods : ∀ m ∈ Contract.all.map
      (·.acceptMethod root ["public"] (some "visitor.Visit(this)")), m.IsWellFormed := by
    rw [List.forall_mem_map]
    intro contract _
    refine contract.isWellFormed_acceptMethod hroot.name (by decide) ?_
    rintro text ⟨⟩
    exact isContent_visit
  obtain ⟨b, hb, hkind⟩ := hp.exists_block hmethods
  have husings : ∀ name ∈ ([] : List String), Syntax.IsDottedName name := nofun
  obtain ⟨tree, hparse, htree⟩ := Syntax.exists_parse_within path husings hp.ns [b]
  rw [List.map_singleton, hb] at hparse
  exact ⟨tree, b, hparse, htree, hkind, _, hb⟩

/-- The tree of the file that continues a root. -/
theorem Hierarchy.IsWellNamed.exists_parse_rootFile {h : Hierarchy} (hh : h.IsWellNamed)
    (path : String) :
    ∃ tree, ∃ root value void : Syntax.Block,
      SourceTree.parse path h.rootFile.render = .ok tree ∧
        tree.HoldsIn h.usings h.root.ns [root, value, void] ∧
        (∀ b ∈ [root, value, void], b.kind = .interfaceType) ∧
        (∃ methods, root.item =
          Participant.continuation { h.root with kind := .interfaceType } methods) ∧
        value.item = Contract.value.declaration h ∧ void.item = Contract.void.declaration h := by
  have hinterface : Participant.IsWellNamed { h.root with kind := .interfaceType } :=
    ⟨hh.root.name, hh.root.typeParameters, hh.root.ns, hh.root.accessibility, hh.root.id⟩
  have hmethods : ∀ m ∈ Contract.all.map (·.acceptMethod h.root [] none), m.IsWellFormed := by
    rw [List.forall_mem_map]
    exact fun contract _ ↦ contract.isWellFormed_acceptMethod hh.root.name nofun nofun
  obtain ⟨root, hroot, hrootKind⟩ := hinterface.exists_block hmethods
  obtain ⟨value, hvalue, hvalueKind⟩ := hh.exists_block .value
  obtain ⟨void, hvoid, hvoidKind⟩ := hh.exists_block .void
  obtain ⟨tree, hparse, htree⟩ :=
    Syntax.exists_parse_within path hh.usings hh.root.ns [root, value, void]
  refine ⟨tree, root, value, void, ?_, htree, ?_, ⟨_, hroot⟩, hvalue, hvoid⟩
  · simp only [List.map_cons, List.map_nil, hroot, hvalue, hvoid] at hparse
    exact hparse
  · simp [hrootKind, hvalueKind, hvoidKind]

/-- **Generated text continues the symbols it was generated for.** -/
theorem Hierarchy.reopens {h : Hierarchy} (hh : h.IsWellNamed) (path : String) :
    (∀ p ∈ h.types, ∃ tree d,
      SourceTree.parse path (p.augmentation h.root).render = .ok tree ∧ tree.types = [d] ∧
        d.kind = p.kind ∧ d.name = p.name ∧ d.typeParameters = p.typeParameters ∧
        d.modifiers = accessibilityWords p.accessibility ++ ["partial"] ∧
        tree.Declares [p.id]) ∧
    ∃ tree, SourceTree.parse path h.rootFile.render = .ok tree ∧
      tree.types.map (·.kind) = [.interfaceType, .interfaceType, .interfaceType] ∧
      tree.Declares [h.root.id, .ofParts h.root.ns h.root.visitorName 1,
        .ofParts h.root.ns h.root.visitorName 0] ∧
      tree.file.usings.map (·.withoutSpan) = h.usings.map (⟨.types, ·, false, ⟨0, 0⟩⟩) := by
  constructor
  · intro p hp
    have hwell := hh.types p hp
    obtain ⟨tree, b, hparse, htree, hkind, methods, hb⟩ :=
      hwell.exists_parse_augmentation hh.root path
    obtain ⟨d, hd, hblock⟩ := List.map_eq_singleton_iff.1 htree.types
    have hname : d.name = p.name :=
      (congrArg TypeDeclaration.name hblock).trans (congrArg TypeBlock.name hb)
    have hparameters : d.typeParameters = p.typeParameters :=
      (congrArg TypeDeclaration.typeParameters hblock).trans
        (congrArg TypeBlock.typeParameters hb)
    have hmodifiers : d.modifiers = partialModifiers p.accessibility :=
      (congrArg TypeDeclaration.modifiers hblock).trans (congrArg TypeBlock.modifiers hb)
    have hdeclares := htree.declares
    rw [List.map_singleton, hb] at hdeclares
    rw [hwell.id]
    exact ⟨tree, d, hparse, hd, (congrArg TypeDeclaration.kind hblock).trans hkind, hname,
      hparameters, hmodifiers, hdeclares⟩
  · obtain ⟨tree, root, value, void, hparse, htree, hkinds, ⟨methods, hroot⟩, hvalue, hvoid⟩ :=
      hh.exists_parse_rootFile path
    have hdeclares := htree.declares
    rw [List.map_cons, List.map_cons, List.map_singleton, hroot, hvalue, hvoid] at hdeclares
    rw [hh.root.id]
    refine ⟨tree, hparse, ?_, hdeclares, htree.usings⟩
    rw [htree.map_types TypeDeclaration.kind fun _ ↦ rfl]
    show [root.kind, value.kind, void.kind] = _
    rw [hkinds root (by simp), hkinds value (by simp), hkinds void (by simp)]

/-- A public root with one generic type in another namespace, which only its own assembly and types
derived from it may see. -/
def Hierarchy.sample : Hierarchy where
  root := {
    name := "Op"
    ns := .named "A"
    id := ⟨"A.Op"⟩
    kind := .interfaceType
    accessibility := some "public"
    typeParameters := []
    location := .ofOffset "Op.cs" "" 0
  }
  types := [{
    name := "Do"
    ns := .named "B.C"
    id := ⟨"B.C.Do`2"⟩
    kind := .recordStruct
    accessibility := some "protected internal"
    typeParameters := ["K", "V"]
    location := .ofOffset "Do.cs" "" 0
  }]
  usings := ["B.C"]

theorem Hierarchy.isWellNamed_sample : Hierarchy.sample.IsWellNamed := by decide

/-- The files of the sample continue its type and its root. -/
theorem Hierarchy.reopens_sample :
    Hierarchy.sample.IsWellNamed ∧
      (∀ p ∈ Hierarchy.sample.types, ∃ tree d,
        SourceTree.parse "Do.g.cs" (p.augmentation Hierarchy.sample.root).render = .ok tree ∧
          tree.types = [d] ∧ d.kind = .recordStruct ∧ d.typeParameters = ["K", "V"] ∧
          d.modifiers = ["protected", "internal", "partial"] ∧ tree.Declares [⟨"B.C.Do`2"⟩]) ∧
      ∃ tree, SourceTree.parse "Op.g.cs" Hierarchy.sample.rootFile.render = .ok tree ∧
        tree.Declares [⟨"A.Op"⟩, ⟨"A.OpVisitor`1"⟩, ⟨"A.OpVisitor"⟩] := by
  obtain ⟨htypes, -⟩ := Hierarchy.reopens Hierarchy.isWellNamed_sample "Do.g.cs"
  obtain ⟨-, tree, hparse, -, hdeclares, -⟩ :=
    Hierarchy.reopens Hierarchy.isWellNamed_sample "Op.g.cs"
  refine ⟨Hierarchy.isWellNamed_sample, fun p hp ↦ ?_, tree, hparse, hdeclares⟩
  obtain ⟨type, d, htype, hd, hkind, -, hparameters, hmodifiers, htypeDeclares⟩ := htypes p hp
  obtain rfl := List.mem_singleton.1 hp
  refine ⟨type, d, htype, hd, hkind, hparameters, ?_, htypeDeclares⟩
  rw [hmodifiers]
  decide

end DoubleDispatch
