import DoubleDispatch.Proofs.Binding.TypeBinding

/-!
# Trees in another order

What the table of a program answers does not depend on the order of its trees, although much in it
is decided by what comes first: the entry that stands for an id, the aliases of a level, and the
numbers of the trees. The declared types are the same (`Reordered.declares_iff`). The levels around
a declaration have the same directives, of which only the global ones are reordered, and these are
asked behind those of the file (`Level.SaysSame`). So a declaration has the same answers under
either of its numbers (`Reordered.answersAlike`).

An alias is the one exception that the rules of scope make, so it is excluded: no two global
directives may give one name different targets.
-/

namespace DoubleDispatch

/-- The same trees in another order, with ordinals that tell the types of a tree apart, and without
global aliases that differ in their target only. -/
structure Reordered (trees trees' : List SourceTree) : Prop where
  perm : trees.Perm trees'
  ordinals : ∀ tree ∈ trees, (tree.types.map (·.ordinal)).Nodup
  aliases : ∀ name, IsUnambiguousAlias (trees.flatMap (·.file.globalUsings)) name

/-! ### Levels that say the same -/

/-- Levels that say the same about every name: the same directives in some order, and for each alias
the same one comes first. -/
structure Level.SaysSame (level level' : Level) : Prop where
  ns : level'.ns = level.ns
  usings : SameDirectives level.usings level'.usings
  alias_eq : ∀ name, DeclarationTable.aliasTarget? level'.usings name =
    DeclarationTable.aliasTarget? level.usings name

namespace Level

variable {levels levels' : List Level}

theorem SaysSame.refl (level : Level) : level.SaysSame level :=
  ⟨rfl, .refl _, fun _ ↦ rfl⟩

/-- Levels that say the same are in one innermost namespace. -/
theorem innermost_saysSame (h : List.Forall₂ SaysSame levels levels') :
    innermost levels' = innermost levels := by
  cases h with
  | nil => rfl
  | cons hlevel _ => exact hlevel.ns

/-- A namespace entered from levels that say the same leads to levels that do. -/
theorem enter_saysSame (h : List.Forall₂ SaysSame levels levels') (usings : List UsingDirective)
    (segments : List String) :
    List.Forall₂ SaysSame (enter levels usings segments) (enter levels' usings segments) := by
  fun_induction enter levels usings segments generalizing levels' with
  | case1 => exact h
  | case2 levels segment =>
    rw [enter, innermost_saysSame h]
    exact .cons (.refl _) h
  | case3 levels segment segments hne ih =>
    rw [enter, innermost_saysSame h]
    · exact ih (.cons (.refl _) h)
    · exact hne

/-- Inside the same namespaces, levels differ as much as those around these do. -/
theorem inside_saysSame (h : List.Forall₂ SaysSame levels levels') (around : List Enclosure) :
    List.Forall₂ SaysSame (inside levels around) (inside levels' around) := by
  induction around generalizing levels levels' with
  | nil => exact h
  | cons e around ih => exact ih (enter_saysSame h _ _)

end Level

namespace DeclarationTable

variable {usings usings' : List UsingDirective} {name : String}

theorem aliasTarget?_append : aliasTarget? (usings ++ usings') name =
    (aliasTarget? usings name).or (aliasTarget? usings' name) := by
  rw [aliasTarget?, List.find?_append, Option.map_or]
  rfl

/-- Where aliases are unambiguous, the order of directives does not matter to them. -/
theorem aliasTarget?_of_same (h : SameDirectives usings usings')
    (hname : IsUnambiguousAlias usings name) :
    aliasTarget? usings' name = aliasTarget? usings name := by
  ext target
  rw [aliasTarget?_eq_some_iff, aliasTarget?_eq_some_iff]
  exact ⟨fun hfirst ↦ hfirst.of_same h.symm (hname.of_same h), fun hfirst ↦ hfirst.of_same h hname⟩

end DeclarationTable

/-- The file level of a tree has the directives of its file first. -/
theorem Reordered.fileLevel_saysSame {trees trees' : List SourceTree} (h : Reordered trees trees')
    (usings : List UsingDirective) :
    Level.SaysSame ⟨.global, usings ++ trees.flatMap (·.file.globalUsings)⟩
      ⟨.global, usings ++ trees'.flatMap (·.file.globalUsings)⟩ := by
  have hglobals : SameDirectives (trees.flatMap (·.file.globalUsings))
      (trees'.flatMap (·.file.globalUsings)) := (h.perm.flatMap_right _).map _
  refine ⟨rfl, ?_, fun name ↦ ?_⟩
  · rw [SameDirectives, List.map_append, List.map_append]
    exact hglobals.append_left _
  · rw [DeclarationTable.aliasTarget?_append, DeclarationTable.aliasTarget?_append,
      DeclarationTable.aliasTarget?_of_same hglobals (h.aliases name)]

/-! ### Tables that say the same -/

namespace DeclarationTable

variable {table table' : DeclarationTable} {level level' : Level} {levels levels' : List Level}

/-- Tables declare the same types. -/
def SameTypes (table table' : DeclarationTable) : Prop :=
  ∀ id, table.Declares id ↔ table'.Declares id

/-- Tables of the same types find the same. -/
theorem SameTypes.lookup?_eq (h : table.SameTypes table') (text : String) :
    table'.lookup? text = table.lookup? text := by
  ext id
  rw [lookup?_eq_some_iff, lookup?_eq_some_iff, h]

/-- What imports say depends only on which types they offer. -/
theorem verdictOfImports_congr {ids ids' : List SymbolId} (h : ∀ id, id ∈ ids ↔ id ∈ ids') :
    verdictOfImports ids' = verdictOfImports ids := by
  refine Verdict.eq_of_ofAnswer_iff fun answer ↦ ?_
  cases answer with
  | some id => simp only [Verdict.ofAnswer, verdictOfImports_eq_found_iff, h]
  | none => simp only [Verdict.ofAnswer, verdictOfImports_eq_nothing_iff, h]

/-- Directives in another order come to the same verdict, as two finds refuse whichever is first. -/
theorem SameTypes.verdictOfImports_eq (h : table.SameTypes table')
    {usings usings' : List UsingDirective} (husings : SameDirectives usings usings')
    (name : String) : verdictOfImports (table'.imports usings' name) =
      verdictOfImports (table.imports usings name) := by
  refine verdictOfImports_congr fun id ↦ ?_
  rw [mem_imports_iff, mem_imports_iff]
  exact ⟨fun himports ↦ himports.of_same h husings,
    fun himports ↦ himports.of_same (fun id ↦ (h id).symm) husings.symm⟩

/-- A level says the same about a name, whatever its form. -/
theorem SameTypes.verdict_eq (h : table.SameTypes table') (hlevel : level.SaysSame level')
    (r : Reference) : table'.verdict r level' = table.verdict r level := by
  have halias (target : String) (rest : List String) (arity : Nat) :
      table'.verdictOfAlias target rest arity = table.verdictOfAlias target rest arity := by
    simp only [verdictOfAlias, h.lookup?_eq]
  have husings : table'.verdictOfUsings level'.usings r = table.verdictOfUsings level.usings r := by
    simp only [verdictOfUsings, hlevel.alias_eq, halias, h.verdictOfImports_eq hlevel.usings]
  simp only [verdict, hlevel.alias_eq, hlevel.ns, h.lookup?_eq, husings]

/-- References resolve alike in tables of the same types, at levels that say the same. -/
theorem SameTypes.resolveReference?_eq (h : table.SameTypes table')
    (hlevels : List.Forall₂ Level.SaysSame levels levels') (r : Reference) :
    table'.resolveReference? levels' r = table.resolveReference? levels r := by
  have hverdicts : levels'.map (table'.verdict r) = levels.map (table.verdict r) :=
    map_eq_of_forall₂ hlevels fun _ _ hlevel ↦ h.verdict_eq hlevel r
  rw [resolveReference?, resolveReference?, h.lookup?_eq, hverdicts]

/-- A type is declared if a declaration of it stands in one of the trees. -/
theorem declares_ofTrees_iff {trees : List SourceTree} {id : SymbolId} :
    (ofTrees trees).Declares id ↔ ∃ tree ∈ trees, ∃ around d,
      StandsInside tree.file.members around d ∧
      (Symbol.ofDeclaration (.join (around.map (·.name))) d).id = id := by
  have hinnermost (usings : List UsingDirective) (around : List Enclosure) :
      Level.innermost (Level.inside [⟨.global, usings⟩] around) = .join (around.map (·.name)) := by
    have hfile : (Level.mk .global usings).ns = .global := rfl
    exact Level.innermost_inside hfile around
  constructor
  · rintro ⟨e, he, rfl⟩
    obtain ⟨number, tree, htree, hplaced⟩ := mem_entries_ofTrees.1 he
    obtain ⟨around, hinside, hlevels⟩ := exists_standsInside hplaced
    refine ⟨tree, List.mem_of_getElem? htree, around, e.declaration, hinside, ?_⟩
    rw [(mem_placedOf hplaced).2, hlevels, hinnermost]
  · rintro ⟨tree, hmem, around, d, hinside, rfl⟩
    obtain ⟨number, htree⟩ := List.getElem?_of_mem hmem
    have hplaced := hinside.mem_placedOf number
      [⟨.global, Level.localUsings tree.file.usings ++ (ofTrees trees).globalUsings⟩]
    refine ⟨_, mem_entries_ofTrees.2 ⟨number, tree, htree, hplaced⟩, ?_⟩
    rw [PlacedDeclaration.ofLevels, hinnermost]

end DeclarationTable

/-! ### Answers under another number -/

/-- Two models answer all questions about a declaration alike, under the number that its tree has
for each of them. -/
structure AnswersAlike (m m' : SemanticModel) (number number' : Nat) (d : TypeDeclaration) :
    Prop where
  declaredSymbol?_eq : m'.declaredSymbol? number' d = m.declaredSymbol? number d
  attributeType?_eq : ∀ a, m'.attributeType? number' d a = m.attributeType? number d a
  baseType?_eq : ∀ b, m'.baseType? number' d b = m.baseType? number d b

namespace Reordered

variable {trees trees' : List SourceTree}

theorem symm (h : Reordered trees trees') : Reordered trees' trees where
  perm := h.perm.symm
  ordinals := fun tree htree ↦ h.ordinals tree (h.perm.mem_iff.2 htree)
  aliases := fun name ↦ (h.aliases name).of_same ((h.perm.flatMap_right _).map _)

/-- Trees in another order declare the same types. -/
theorem sameTypes (h : Reordered trees trees') :
    (DeclarationTable.ofTrees trees).SameTypes (.ofTrees trees') := by
  intro id
  simp only [DeclarationTable.declares_ofTrees_iff, h.perm.mem_iff]

/-- A declaration has an entry under each of its numbers, and the levels of both say the same. -/
theorem exists_entries (h : Reordered trees trees') {tree : SourceTree} {number number' : Nat}
    (htree : trees[number]? = some tree) (htree' : trees'[number']? = some tree)
    {d : TypeDeclaration} (hd : d ∈ tree.types) :
    ∃ levels levels', List.Forall₂ Level.SaysSame levels levels' ∧
      (DeclarationTable.ofTrees trees).get? number d = some (.ofLevels number levels d) ∧
      (DeclarationTable.ofTrees trees').get? number' d = some (.ofLevels number' levels' d) := by
  have hplaced := map_declaration_placedOf number [] tree.file.members
  rw [SourceTree.types, SourceFile.types, ← hplaced] at hd
  obtain ⟨e, he, rfl⟩ := List.mem_map.1 hd
  obtain ⟨around, hinside, -⟩ := exists_standsInside he
  have hlevels := h.fileLevel_saysSame (Level.localUsings tree.file.usings)
  refine ⟨_, _, Level.inside_saysSame (.cons hlevels .nil) around, ?_, ?_⟩
  · exact DeclarationTable.get?_ofTrees htree (h.ordinals tree (List.mem_of_getElem? htree))
      (hinside.mem_placedOf number _)
  · exact DeclarationTable.get?_ofTrees htree' (h.symm.ordinals tree (List.mem_of_getElem? htree'))
      (hinside.mem_placedOf number' _)

/-- **The table of reordered trees answers alike.** -/
theorem answersAlike (h : Reordered trees trees') {tree : SourceTree} {number number' : Nat}
    (htree : trees[number]? = some tree) (htree' : trees'[number']? = some tree)
    {d : TypeDeclaration} (hd : d ∈ tree.types) :
    AnswersAlike (DeclarationTable.ofTrees trees).model (DeclarationTable.ofTrees trees').model
      number number' d := by
  obtain ⟨levels, levels', hlevels, hget, hget'⟩ := h.exists_entries htree htree' hd
  have hresolve (text : String) : (DeclarationTable.ofTrees trees').resolve? number' d text =
      (DeclarationTable.ofTrees trees).resolve? number d text := by
    rw [DeclarationTable.resolve?, DeclarationTable.resolve?, hget, hget']
    cases Reference.parse? text with
    | none => rfl
    | some r => exact h.sameTypes.resolveReference?_eq hlevels r
  refine ⟨?_, fun a ↦ ?_, fun b ↦ ?_⟩
  · simp only [DeclarationTable.model, hget, hget', Option.map_some, PlacedDeclaration.ofLevels,
      Level.innermost_saysSame hlevels]
  · simp only [DeclarationTable.model, DeclarationTable.resolveAttribute?, hresolve]
  · rw [DeclarationTable.baseType?_model, DeclarationTable.baseType?_model, hresolve]

end Reordered

end DoubleDispatch
