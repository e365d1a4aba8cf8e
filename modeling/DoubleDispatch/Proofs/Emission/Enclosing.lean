import DoubleDispatch.Proofs.Binding.Placement
import DoubleDispatch.Proofs.Emission.Outline

/-!
# Generated types in a namespace

A generated file holds its types in at most one namespace, whose dotted name is written as one. What
is read from the file are these types, numbered in order, and each stands inside one level for every
segment of the namespace (`Syntax.exists_parse_within`).
-/

namespace DoubleDispatch

namespace Syntax

/-! ### Names -/

/-- Whether a text may name a declaration: an identifier that is no reserved word. -/
def IsName (text : String) : Prop := Text.isIdentifier text.toList ∧ text ∉ reservedWords

instance : DecidablePred IsName := fun _ ↦ inferInstanceAs (Decidable (_ ∧ _))

/-- Whether every segment of a dotted text may name a declaration. -/
def IsDottedName (text : String) : Prop := ∀ segment ∈ Level.segments text, IsName segment

instance : DecidablePred IsDottedName := fun _ ↦ inferInstanceAs (Decidable (∀ _ ∈ _, _))

/-- Texts that are names are the texts of names of the grammar. -/
theorem exists_names {texts : List String} (h : ∀ text ∈ texts, IsName text) :
    ∃ names : List Name, names.map (·.name) = texts := by
  refine ⟨texts.pmap (fun text htext ↦ ⟨⟨text, htext.1⟩, htext.2⟩) h, ?_⟩
  rw [List.map_pmap]
  exact List.pmap_eq_self.2 fun _ _ ↦ rfl

/-- A dotted name is the text of one of the grammar. -/
theorem exists_dottedName {text : String} (h : IsDottedName text) :
    ∃ n : DottedName, n.text = text := by
  obtain ⟨names, hnames⟩ := exists_names h
  cases names with
  | nil => exact absurd hnames.symm (Level.segments_ne_nil text)
  | cons first later =>
    refine ⟨⟨first, later⟩, ?_⟩
    rw [DottedName.text, DottedName.names, hnames, Level.intercalate_segments]

/-- Dotted names are the texts of dotted names of the grammar. -/
theorem exists_dottedNames {texts : List String} (h : ∀ text ∈ texts, IsDottedName text) :
    ∃ names : List DottedName, names.map (·.text) = texts := by
  induction texts with
  | nil => exact ⟨[], rfl⟩
  | cons text texts ih =>
    obtain ⟨htext, hlater⟩ := List.forall_mem_cons.1 h
    obtain ⟨n, rfl⟩ := exists_dottedName htext
    obtain ⟨names, rfl⟩ := ih hlater
    exact ⟨n :: names, rfl⟩

/-- Words that are modifiers are the names of modifiers of the grammar. -/
theorem exists_modifiers {words : List String} (h : ∀ word ∈ words, word ∈ Stream.modifierWords) :
    ∃ modifiers : List Modifier, modifiers.map (·.name) = words := by
  refine ⟨words.pmap (fun word hword ↦ ⟨word, hword⟩) h, ?_⟩
  rw [List.map_pmap]
  exact List.pmap_eq_self.2 fun _ _ ↦ rfl

/-! ### Types inside a namespace -/

namespace Outline

/-- Types one after the other. -/
def ofBlocks : List Block → Outline
  | [] => .nil
  | b :: blocks => .type b (ofBlocks blocks)

/-- Declarations inside a namespace, if one is given. -/
def within : Option DottedName → Outline → Outline
  | some name, content => .scope name content .nil
  | none, content => content

/-- The outline of some blocks has these blocks as its items. -/
theorem items_ofBlocks (blocks : List Block) :
    (ofBlocks blocks).items = blocks.map fun b ↦ .type b.item := by
  induction blocks with
  | nil => rfl
  | cons b blocks ih => rw [ofBlocks, items, ih, List.map_cons]

/-- An outline in a namespace has its items in that namespace. -/
theorem items_within (ns : Option DottedName) (content : Outline) :
    (within ns content).items = Item.within (ns.map (·.text)) content.items := by
  cases ns <;> rfl

/-- The tree of some blocks has one type for each, with consecutive ordinals. -/
theorem tree_ofBlocks (ordinal : Nat) (blocks : List Block) :
    (ofBlocks blocks).tree ordinal =
      (blocks.zipIdx ordinal).map fun (b, number) ↦ .type (b.tree number) := by
  induction blocks generalizing ordinal with
  | nil => rfl
  | cons b blocks ih => rw [ofBlocks, tree, ih, List.zipIdx_cons, List.map_cons]

end Outline

end Syntax

/-! ### Members without spans -/

/-- Members that are types but for their spans are types. -/
theorem exists_types_of_withoutSpans {ms : List Member} {types : List TypeDeclaration}
    (h : membersWithoutSpans ms = types.map .type) :
    ∃ ds : List TypeDeclaration, ms = ds.map .type ∧ ds.map (·.withoutSpans) = types := by
  induction types generalizing ms with
  | nil =>
    cases ms with
    | nil => exact ⟨[], rfl, rfl⟩
    | cons m ms => cases h
  | cons type types ih =>
    cases ms with
    | nil => cases h
    | cons m ms =>
      rw [membersWithoutSpans, List.map_cons, List.cons.injEq] at h
      obtain ⟨hm, hms⟩ := h
      obtain ⟨ds, rfl, rfl⟩ := ih hms
      cases m with
      | type d =>
        obtain rfl := Member.type.inj hm
        exact ⟨d :: ds, rfl, rfl⟩
      | scope => cases hm

/-- A member that is a namespace but for its spans is one. -/
theorem exists_scope_of_withoutSpans {ms content : List Member} {name : String}
    (h : membersWithoutSpans ms = [.scope name false [] content ⟨0, 0⟩]) :
    ∃ members span, ms = [.scope name false [] members span] ∧
      membersWithoutSpans members = content := by
  obtain _ | ⟨m, _ | ⟨m', ms⟩⟩ := ms
  · cases h
  · cases m with
    | type d => cases h
    | scope name' fileScoped usings members span =>
      simp only [membersWithoutSpans, Member.withoutSpans, List.cons.injEq, Member.scope.injEq,
        List.map_eq_nil_iff, and_true] at h
      obtain ⟨rfl, rfl, rfl, rfl⟩ := h
      exact ⟨members, span, rfl, rfl⟩
  · simp [membersWithoutSpans] at h

/-! ### Global directives -/

theorem filter_isGlobal_map_withoutSpan (usings : List UsingDirective) :
    (usings.map (·.withoutSpan)).filter (·.isGlobal) =
      (usings.filter (·.isGlobal)).map (·.withoutSpan) := by
  rw [List.filter_map]
  rfl

mutual

theorem Member.globalUsings_withoutSpans (m : Member) :
    m.withoutSpans.globalUsings = m.globalUsings.map (·.withoutSpan) := by
  match m with
  | .type d => rfl
  | .scope name fileScoped usings members span =>
    rw [Member.withoutSpans, Member.globalUsings, Member.globalUsings, List.map_append,
      globalUsingsOf_withoutSpans members]
    exact congrArg (· ++ _) (filter_isGlobal_map_withoutSpan usings)

/-- Global directives are the same but for their spans, by recursion over namespaces. -/
theorem globalUsingsOf_withoutSpans (ms : List Member) :
    globalUsingsOf (membersWithoutSpans ms) = (globalUsingsOf ms).map (·.withoutSpan) := by
  match ms with
  | [] => rfl
  | m :: ms =>
    rw [membersWithoutSpans, globalUsingsOf, globalUsingsOf, List.map_append,
      m.globalUsings_withoutSpans, globalUsingsOf_withoutSpans ms]

end

/-- An outline has no global directives. -/
theorem Syntax.Outline.globalUsingsOf_tree (o : Outline) (ordinal : Nat) :
    globalUsingsOf (o.tree ordinal) = [] := by
  induction o generalizing ordinal with
  | nil => rfl
  | type block later ih =>
    rw [tree, globalUsingsOf, ih]
    rfl
  | scope name content later ihcontent ihlater =>
    rw [tree, globalUsingsOf, ihlater, Member.globalUsings, ihcontent]
    rfl

/-- A generated file has no global directives. -/
theorem globalUsings_eq_nil_of_withoutSpans {file : SourceFile} {usings : List String}
    {o : Syntax.Outline}
    (h : file.withoutSpans = ⟨usings.map (⟨.types, ·, false, ⟨0, 0⟩⟩), o.tree 0⟩) :
    file.globalUsings = [] := by
  have hmembers : globalUsingsOf file.members = [] := by
    have hnone := globalUsingsOf_withoutSpans file.members
    rw [show membersWithoutSpans file.members = o.tree 0 from congrArg SourceFile.members h,
      o.globalUsingsOf_tree] at hnone
    exact List.map_eq_nil_iff.1 hnone.symm
  have husings : file.usings.filter (·.isGlobal) = [] := by
    have hnone := filter_isGlobal_map_withoutSpan file.usings
    rw [show file.usings.map (·.withoutSpan) = _ from congrArg SourceFile.usings h,
      List.filter_map, List.filter_eq_nil_iff.2 (by simp)] at hnone
    exact List.map_eq_nil_iff.1 hnone.symm
  rw [SourceFile.globalUsings, hmembers, husings]
  rfl

/-! ### Trees of types in a namespace -/

/-- The types among members that are all types are these. -/
theorem typesOf_map_type (ds : List TypeDeclaration) : typesOf (ds.map .type) = ds := by
  induction ds with
  | nil => rfl
  | cons d ds ih =>
    rw [List.map_cons, typesOf, ih]
    rfl

/-- Types that stand in no namespace of their own are all placed at the same levels. -/
theorem placedOf_map_type (tree : Nat) (levels : List Level) (ds : List TypeDeclaration) :
    placedOf tree levels (ds.map .type) =
      ds.map fun d ↦ ⟨tree, d, .ofDeclaration (Level.innermost levels) d, levels⟩ := by
  induction ds with
  | nil => rfl
  | cons d ds ih =>
    rw [List.map_cons, placedOf, ih]
    rfl

/-- What types in a namespace are read as, and where they stand. -/
theorem Syntax.Outline.placedOf_within {ms : List Member} {scope : Option DottedName}
    {ns : Namespace} {blocks : List Block} (hscope : scope.map (·.text) = ns.name?)
    (h : membersWithoutSpans ms = (within scope (ofBlocks blocks)).tree 0) :
    (typesOf ms).map (·.withoutSpans) = blocks.zipIdx.map (fun (b, number) ↦ b.tree number) ∧
      ∀ number level, placedOf number [level] ms = (typesOf ms).map fun d ↦
        ⟨number, d, .ofDeclaration (Level.innermost (Level.around ns level)) d,
          Level.around ns level⟩ := by
  -- Where only types are written, only types are read, which differ from these in their spans.
  have htypes {members : List Member}
      (hmembers : membersWithoutSpans members = (ofBlocks blocks).tree 0) :
      ∃ ds : List TypeDeclaration, members = ds.map .type ∧
        ds.map (·.withoutSpans) = blocks.zipIdx.map fun (b, number) ↦ b.tree number := by
    rw [tree_ofBlocks] at hmembers
    refine exists_types_of_withoutSpans (hmembers.trans ?_)
    rw [List.map_map]
    rfl
  cases ns with
  | global =>
    obtain rfl : scope = none := Option.map_eq_none_iff.1 hscope
    obtain ⟨ds, rfl, hds⟩ := htypes h
    rw [typesOf_map_type]
    exact ⟨hds, fun number level ↦ placedOf_map_type number [level] ds⟩
  | named name =>
    obtain ⟨n, rfl, rfl⟩ := Option.map_eq_some_iff.1 hscope
    obtain ⟨members, span, rfl, hmembers⟩ := exists_scope_of_withoutSpans h
    obtain ⟨ds, rfl, hds⟩ := htypes hmembers
    have htypesOf : typesOf [.scope n.text false [] (ds.map .type) span] = ds := by
      rw [typesOf, Member.types, typesOf_map_type]
      exact List.append_nil ds
    rw [htypesOf]
    refine ⟨hds, fun number level ↦ ?_⟩
    rw [placedOf, Member.placed, placedOf_map_type]
    exact List.append_nil _

/-- A tree that imports some namespaces, none of them globally, and holds types in one namespace. -/
structure SourceTree.HoldsIn (tree : SourceTree) (usings : List String) (ns : Namespace)
    (blocks : List Syntax.Block) : Prop where
  usings : tree.file.usings.map (·.withoutSpan) = usings.map (⟨.types, ·, false, ⟨0, 0⟩⟩)
  globalUsings : tree.file.globalUsings = []
  types : tree.types.map (·.withoutSpans) = blocks.zipIdx.map fun (b, number) ↦ b.tree number
  placed : ∀ number globals, tree.file.placed number globals = tree.types.map fun d ↦
    ⟨number, d, .ofDeclaration ns d,
      Level.around ns ⟨.global, Level.localUsings tree.file.usings ++ globals⟩⟩

namespace SourceTree.HoldsIn

variable {tree : SourceTree} {usings : List String} {ns : Namespace} {blocks : List Syntax.Block}

/-- What does not depend on spans is that of the generated types. -/
theorem map_types {α : Type} (h : tree.HoldsIn usings ns blocks) (f : TypeDeclaration → α)
    (hf : ∀ d : TypeDeclaration, f d.withoutSpans = f d) :
    tree.types.map f = blocks.zipIdx.map fun (b, number) ↦ f (b.tree number) := by
  have hmap := congrArg (List.map f) h.types
  rw [List.map_map, List.map_map] at hmap
  exact (List.map_congr_left fun d _ ↦ (hf d).symm).trans hmap

/-- The types of a generated tree have ordinals of their own. -/
theorem nodup_ordinals (h : tree.HoldsIn usings ns blocks) :
    (tree.types.map (·.ordinal)).Nodup := by
  have hordinals : tree.types.map (·.ordinal) = blocks.zipIdx.map (·.2) :=
    h.map_types (·.ordinal) fun _ ↦ rfl
  rw [hordinals, List.zipIdx_map_snd]
  exact List.nodup_range'

/-- **Every type of a generated tree is placed** in the namespace that the tree is for. -/
theorem mem_placed (h : tree.HoldsIn usings ns blocks) {d : TypeDeclaration} (hd : d ∈ tree.types)
    (number : Nat) (globals : List UsingDirective) :
    ⟨number, d, .ofDeclaration ns d,
        Level.around ns ⟨.global, Level.localUsings tree.file.usings ++ globals⟩⟩ ∈
      tree.file.placed number globals := by
  rw [h.placed]
  exact List.mem_map_of_mem hd

/-- In the table of any trees, the types stand in the namespace, with the imports of their own file
and the global ones outside it. -/
theorem get?_ofTrees (h : tree.HoldsIn usings ns blocks) {trees : List SourceTree} {number : Nat}
    (htree : trees[number]? = some tree) {d : TypeDeclaration} (hd : d ∈ tree.types) :
    (DeclarationTable.ofTrees trees).get? number d = some ⟨number, d, .ofDeclaration ns d,
      Level.around ns ⟨.global, Level.localUsings tree.file.usings ++
        (DeclarationTable.ofTrees trees).globalUsings⟩⟩ :=
  DeclarationTable.get?_ofTrees htree h.nodup_ordinals (h.mem_placed hd _ _)

end SourceTree.HoldsIn

/-- **A generated file with types in one namespace is read back.** -/
theorem Syntax.exists_parse_within (path : String) {usings : List String} {ns : Namespace}
    (husings : ∀ name ∈ usings, IsDottedName name) (hns : ∀ name ∈ ns.name?, IsDottedName name)
    (blocks : List Block) :
    ∃ tree, SourceTree.parse path (GeneratedFile.mk usings
        (Item.within ns.name? (blocks.map fun b ↦ .type b.item))).render = .ok tree ∧
      tree.HoldsIn usings ns blocks := by
  obtain ⟨imported, rfl⟩ := exists_dottedNames husings
  obtain ⟨scope, hscope⟩ : ∃ scope : Option DottedName, scope.map (·.text) = ns.name? := by
    cases ns with
    | global => exact ⟨none, rfl⟩
    | named name =>
      obtain ⟨n, rfl⟩ := exists_dottedName (hns name rfl)
      exact ⟨some n, rfl⟩
  obtain ⟨file, hparse, hfile⟩ :=
    (Outline.within scope (.ofBlocks blocks)).exists_parse_render imported
  rw [Outline.items_within, Outline.items_ofBlocks, hscope] at hparse
  obtain ⟨htypes, hplaced⟩ :=
    Outline.placedOf_within hscope (congrArg SourceFile.members hfile)
  have hfile : file.withoutSpans = ⟨(imported.map (·.text)).map (⟨.types, ·, false, ⟨0, 0⟩⟩),
      (Outline.within scope (.ofBlocks blocks)).tree 0⟩ := by
    rw [hfile, List.map_map]
    rfl
  refine ⟨⟨path, _, file⟩, by rw [SourceTree.parse, hparse], congrArg SourceFile.usings hfile,
    globalUsings_eq_nil_of_withoutSpans hfile, htypes, fun number globals ↦ ?_⟩
  · show placedOf number [⟨.global, Level.localUsings file.usings ++ globals⟩] file.members = _
    rw [hplaced, Level.innermost_around ns rfl]
    rfl

end DoubleDispatch
