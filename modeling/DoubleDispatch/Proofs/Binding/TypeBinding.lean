import DoubleDispatch.Proofs.Binding.ScopeRules

/-!
# Binding of type names

In a program that is read, a type name at a declaration binds by the rules of scope: the first of
the levels around the declaration that decides it gives its meaning
(`DeclarationTable.baseType?_of_parseAll`). So a meaning is always a declared type, and two programs
that declare the same types give a name the same meaning if their levels resemble each other up to
one that decides. The order of the directives of a level plays no part either, but for one case: of
several alias directives with one name the first one counts
(`DeclarationTable.baseType?_reordered_aliasSample`).
-/

namespace DoubleDispatch

/-! ### Levels with the same directives -/

/-- What a directive says, wherever it stands. -/
def UsingDirective.content (u : UsingDirective) : UsingKind × String := (u.kind, u.target)

/-- The directives of both lists say the same, in some order. -/
def SameDirectives (usings usings' : List UsingDirective) : Prop :=
  (usings.map (·.content)).Perm (usings'.map (·.content))

/-- No two alias directives give the name different targets. -/
def IsUnambiguousAlias (usings : List UsingDirective) (name : String) : Prop :=
  ∀ u ∈ usings, ∀ v ∈ usings, u.kind = .alias name → v.kind = .alias name → u.target = v.target

section

variable {usings usings' : List UsingDirective} {name target : String}

/-- Each directive has one that says the same among others. -/
theorem SameDirectives.exists_mem (h : SameDirectives usings usings') {u : UsingDirective}
    (hu : u ∈ usings) : ∃ u' ∈ usings', u'.kind = u.kind ∧ u'.target = u.target := by
  have hmem : u.content ∈ usings'.map (·.content) := h.mem_iff.1 (List.mem_map_of_mem hu)
  obtain ⟨u', hu', hcontent⟩ := List.mem_map.1 hmem
  exact ⟨u', hu', congrArg Prod.fst hcontent, congrArg Prod.snd hcontent⟩

/-- That directives say the same does not depend on which come first. -/
theorem SameDirectives.symm (h : SameDirectives usings usings') : SameDirectives usings' usings :=
  List.Perm.symm h

/-- An alias is unambiguous among any directives that say the same. -/
theorem IsUnambiguousAlias.of_same (hname : IsUnambiguousAlias usings name)
    (h : SameDirectives usings usings') : IsUnambiguousAlias usings' name := by
  intro u hu v hv hukind hvkind
  obtain ⟨u', hu', hkind, htarget⟩ := h.symm.exists_mem hu
  obtain ⟨v', hv', hkind', htarget'⟩ := h.symm.exists_mem hv
  rw [← htarget, ← htarget']
  exact hname u' hu' v' hv' (hkind.trans hukind) (hkind'.trans hvkind)

/-- The first alias with a name is one of the aliases with it, and all of these are alike. -/
theorem FirstAlias.of_same (hfirst : FirstAlias usings name target)
    (h : SameDirectives usings usings') (hname : IsUnambiguousAlias usings name) :
    FirstAlias usings' name target := by
  obtain ⟨before, u, behind, heq, -, hkind, rfl⟩ := hfirst
  obtain ⟨u', hu', hkind', htarget⟩ := h.exists_mem (u := u) (by simp [heq])
  have hfound : (usings'.find? (·.kind = .alias name)).isSome :=
    List.find?_isSome.2 ⟨u', hu', by simpa using hkind'.trans hkind⟩
  obtain ⟨v, hv⟩ := Option.isSome_iff_exists.1 hfound
  obtain ⟨hvkind, before', behind', heq', hbefore'⟩ := List.find?_eq_some_iff_append.1 hv
  have hvkind : v.kind = .alias name := by simpa using hvkind
  refine ⟨before', v, behind', heq', by simpa using hbefore', hvkind, ?_⟩
  rw [← htarget]
  exact hname.of_same h v (by simp [heq']) u' hu' hvkind (hkind'.trans hkind)

/-- The first alias of a name is told by what directives say, in order. -/
theorem FirstAlias.of_map_content_eq (hfirst : FirstAlias usings name target)
    (h : usings.map (·.content) = usings'.map (·.content)) : FirstAlias usings' name target := by
  have haliasTarget (usings : List UsingDirective) : DeclarationTable.aliasTarget? usings name =
      ((usings.map (·.content)).find? (·.1 = .alias name)).map (·.2) := by
    rw [List.find?_map, Option.map_map]
    rfl
  rw [← DeclarationTable.aliasTarget?_eq_some_iff] at hfirst ⊢
  rwa [haliasTarget, ← h, ← haliasTarget]

end

/-- The level has the same namespace and says the same about names that start with the given
segment: its directives are the same, and no two aliases give that segment different targets, or
also the order of the directives is the same. -/
structure Level.Resembles (first : String) (level level' : Level) : Prop where
  ns : level'.ns = level.ns
  usings : SameDirectives level.usings level'.usings
  order : IsUnambiguousAlias level.usings first ∨
    level.usings.map (·.content) = level'.usings.map (·.content)

theorem Level.Resembles.symm {first : String} {level level' : Level}
    (h : level.Resembles first level') : level'.Resembles first level where
  ns := h.ns.symm
  usings := h.usings.symm
  order := h.order.imp (·.of_same h.usings) Eq.symm

/-- Levels that resemble each other have the same first alias of the name. -/
theorem Level.Resembles.firstAlias {first target : String} {level level' : Level}
    (h : level.Resembles first level') (hfirst : FirstAlias level.usings first target) :
    FirstAlias level'.usings first target := by
  rcases h.order with hname | hcontents
  · exact hfirst.of_same h.usings hname
  · exact hfirst.of_map_content_eq hcontents

namespace DeclarationTable

variable {table table' : DeclarationTable} {usings usings' : List UsingDirective} {first : String}
  {rest : List String} {arity : Nat} {answer : Option SymbolId}

/-- Directives that say the same import the same, where the same is declared. -/
theorem Imports.of_same {name : String} {id : SymbolId} (h : table.Imports usings name id)
    (hdeclares : ∀ id, table.Declares id ↔ table'.Declares id)
    (hsame : SameDirectives usings usings') : table'.Imports usings' name id := by
  obtain ⟨hid, u, hu, hkind, htext⟩ := h
  obtain ⟨u', hu', hkind', htarget⟩ := hsame.exists_mem hu
  exact ⟨(hdeclares id).1 hid, u', hu', hkind'.trans hkind, by rw [htext, htarget]⟩

/-- What directives decide depends on the declared types, and on the order of the directives only
by the alias that is the first with its name. -/
theorem UsingsDecide.of_same (h : table.UsingsDecide usings first rest arity answer)
    (hdeclares : ∀ id, table.Declares id ↔ table'.Declares id)
    (hsame : SameDirectives usings usings')
    (halias : ∀ target, FirstAlias usings first target → FirstAlias usings' first target) :
    table'.UsingsDecide usings' first rest arity answer := by
  have hback {name : String} {id : SymbolId} (h : table'.Imports usings' name id) :
      table.Imports usings name id := h.of_same (fun id ↦ (hdeclares id).symm) hsame.symm
  have hnoAlias (hnone : ∀ u ∈ usings, u.kind ≠ .alias first) :
      ∀ u ∈ usings', u.kind ≠ .alias first := by
    intro u hu hkind
    obtain ⟨v, hv, hkind', -⟩ := hsame.symm.exists_mem hu
    exact hnone v hv (hkind'.trans hkind)
  cases h with
  | liveAlias hfirst hread h => exact .liveAlias (halias _ hfirst) hread ((hdeclares _).1 h)
  | deadAlias hfirst h =>
    exact .deadAlias (halias _ hfirst) fun harity aliased hread hid ↦
      h harity aliased hread ((hdeclares _).2 hid)
  | aliasMember hfirst hrest h => exact .aliasMember (halias _ hfirst) hrest ((hdeclares _).1 h)
  | imported hnone h hall =>
    exact .imported (hnoAlias hnone) (h.of_same hdeclares hsame)
      fun other hother ↦ hall other (hback hother)
  | ambiguous hnone h hother hne =>
    exact .ambiguous (hnoAlias hnone) (h.of_same hdeclares hsame) (hother.of_same hdeclares hsame)
      hne

end DeclarationTable

section

variable {table table' : DeclarationTable} {first : String} {rest : List String} {arity : Nat}
  {level level' : Level}

/-- **A level decides as one that resembles it.** -/
theorem Level.Decides.of_resembles {answer : Option SymbolId}
    (h : level.Decides table first rest arity answer)
    (hdeclares : ∀ id, table.Declares id ↔ table'.Declares id)
    (hlevel : level.Resembles first level') :
    level'.Decides table' first rest arity answer := by
  have hns := hlevel.ns
  cases h with
  | declared h =>
    rw [← hns] at h ⊢
    exact .declared ((hdeclares _).1 h)
  | usings hnot h =>
    rw [← hns] at hnot
    exact .usings (fun hid ↦ hnot ((hdeclares _).2 hid))
      (h.of_same hdeclares hlevel.usings fun _ ↦ hlevel.firstAlias)

/-- Levels that resemble each other have the same verdict. -/
theorem Level.Resembles.verdict_eq (hlevel : level.Resembles first level')
    (hdeclares : ∀ id, table.Declares id ↔ table'.Declares id) :
    table'.verdict ⟨.plain, first :: rest, arity⟩ level' =
      table.verdict ⟨.plain, first :: rest, arity⟩ level := by
  refine Verdict.eq_of_ofAnswer_iff fun answer ↦ ?_
  rw [← DeclarationTable.decides_iff, ← DeclarationTable.decides_iff]
  constructor
  · exact fun h ↦ h.of_resembles (fun id ↦ (hdeclares id).symm) hlevel.symm
  · exact fun h ↦ h.of_resembles hdeclares hlevel

/-- Levels that resemble each other one by one have the same verdicts in order. -/
theorem map_verdict_eq_of_resembles {levels levels' : List Level}
    (h : List.Forall₂ (Level.Resembles first) levels levels')
    (hdeclares : ∀ id, table.Declares id ↔ table'.Declares id) :
    levels'.map (table'.verdict ⟨.plain, first :: rest, arity⟩) =
      levels.map (table.verdict ⟨.plain, first :: rest, arity⟩) := by
  induction h with
  | nil => rfl
  | cons hlevel _ ih => rw [List.map_cons, List.map_cons, ih, hlevel.verdict_eq hdeclares]

end

/-! ### Programs that are read -/

/-- The declaration stands in a tree with this number, inside these levels, innermost first. -/
def HasScope (trees : List SourceTree) (number : Nat) (d : TypeDeclaration)
    (levels : List Level) : Prop :=
  ∃ tree around, trees[number]? = some tree ∧ StandsInside tree.file.members around d ∧
    levels = Level.inside [⟨.global, Level.localUsings tree.file.usings ++
      trees.flatMap (·.file.globalUsings)⟩] around

/-- Every declaration of a table has a scope. -/
theorem hasScope_of_mem_entries {trees : List SourceTree} {e : PlacedDeclaration}
    (he : e ∈ (DeclarationTable.ofTrees trees).entries) :
    HasScope trees e.tree e.declaration e.levels := by
  obtain ⟨number, tree, htree, hplaced⟩ := DeclarationTable.mem_entries_ofTrees.1 he
  obtain rfl := (mem_placedOf hplaced).1
  obtain ⟨around, hinside, hlevels⟩ := exists_standsInside hplaced
  exact ⟨tree, around, htree, hinside, hlevels⟩

namespace DeclarationTable

variable {sources : List (String × String)} {trees : List SourceTree} {number : Nat}
  {d : TypeDeclaration} {levels : List Level} {base : BaseEntry} {first : String}
  {rest : List String} {arity : Nat}

/-- A type name means what the levels around the declaration say, one after the other. -/
theorem baseType?_eq_first? (h : parseAll sources = .ok trees) (hd : HasScope trees number d levels)
    (hbase : Reference.IsTypeName base.text (first :: rest) arity) :
    (ofTrees trees).model.baseType? number d base =
      Verdict.first? (levels.map ((ofTrees trees).verdict ⟨.plain, first :: rest, arity⟩)) := by
  obtain ⟨tree, around, htree, hinside, rfl⟩ := hd
  have hordinals : (tree.types.map (·.ordinal)).Nodup := by
    rw [map_ordinal_of_parseAll h tree (List.mem_of_getElem? htree)]
    exact List.nodup_range
  have hget := get?_ofTrees htree hordinals (hinside.mem_placedOf number _)
  have hplain : (Reference.mk .plain (first :: rest) arity).qualifier ≠ .absolute :=
    Qualifier.noConfusion
  rw [baseType?_model, resolve?, Reference.parse?_of_isTypeName hbase]
  dsimp only [PlacedDeclaration.ofLevels] at hget
  rw [hget]
  dsimp only
  rw [resolveReference?, if_neg hplain]
  rfl

/-- **A type name binds by the rules of scope.** Its meaning is what the first level says that
decides it, and it is a declared type. In another program with the same declared types the name has
the same meaning if the levels up to one that decides resemble those of the first program, and also
if all levels do. -/
theorem baseType?_of_parseAll (h : parseAll sources = .ok trees)
    (hd : HasScope trees number d levels)
    (hbase : Reference.IsTypeName base.text (first :: rest) arity) :
    let table := ofTrees trees
    let meaning := table.model.baseType? number d base
    (∀ id, meaning = some id ↔ ∃ inner level outer, levels = inner ++ level :: outer ∧
      (∀ other ∈ inner, ¬∃ answer, other.Decides table first rest arity answer) ∧
      level.Decides table first rest arity (some id)) ∧
    (∀ id, meaning = some id → table.Declares id) ∧
    ∀ sources' trees', parseAll sources' = .ok trees' →
      (∀ id, table.Declares id ↔ (ofTrees trees').Declares id) →
      ∀ number' d' levels' base', HasScope trees' number' d' levels' → base'.text = base.text →
        let meaning' := (ofTrees trees').model.baseType? number' d' base'
        (∀ front outer front' outer', levels = front ++ outer → levels' = front' ++ outer' →
          List.Forall₂ (Level.Resembles first) front front' →
          (∃ level ∈ front, ∃ answer, level.Decides table first rest arity answer) →
            meaning' = meaning) ∧
        (List.Forall₂ (Level.Resembles first) levels levels' → meaning' = meaning) := by
  intro table meaning
  have hmeaning : meaning =
      Verdict.first? (levels.map (table.verdict ⟨.plain, first :: rest, arity⟩)) :=
    baseType?_eq_first? h hd hbase
  have hrules (id : SymbolId) : meaning = some id ↔ ∃ inner level outer,
      levels = inner ++ level :: outer ∧
        (∀ other ∈ inner, ¬∃ answer, other.Decides table first rest arity answer) ∧
        level.Decides table first rest arity (some id) := by
    simp only [decides_iff, Verdict.exists_ofAnswer_iff, not_not]
    rw [hmeaning]
    exact Verdict.first?_map_eq_some_iff
  refine ⟨hrules, fun id hid ↦ ?_, ?_⟩
  · obtain ⟨inner, level, outer, -, -, hlevel⟩ := (hrules id).1 hid
    exact hlevel.declares
  · intro sources' trees' h' hdeclares number' d' levels' base' hd' htext meaning'
    have hmeaning' : meaning' =
        Verdict.first? (levels'.map ((ofTrees trees').verdict ⟨.plain, first :: rest, arity⟩)) :=
      baseType?_eq_first? h' hd' (htext ▸ hbase)
    rw [hmeaning, hmeaning']
    refine ⟨?_, fun hlevels ↦ by rw [map_verdict_eq_of_resembles hlevels hdeclares]⟩
    rintro front outer front' outer' rfl rfl hfront ⟨level, hlevel, answer, hdecides⟩
    -- Both programs ask levels that say the same, and one of them decides.
    have hdecided : ∃ v ∈ front.map (table.verdict ⟨.plain, first :: rest, arity⟩),
        v ≠ .undecided :=
      ⟨_, List.mem_map_of_mem hlevel,
        Verdict.exists_ofAnswer_iff.1 ⟨answer, decides_iff.1 hdecides⟩⟩
    rw [List.map_append, List.map_append, map_verdict_eq_of_resembles hfront hdeclares,
      Verdict.first?_append_of_mem hdecided, Verdict.first?_append_of_mem hdecided]

/-- A type name in a namespace with two aliases of its first segment. -/
def aliasSample (usings : String) : List (String × String) :=
  [("Names.cs", "namespace B \x7b interface I; \x7d namespace P \x7b " ++ usings ++
    " class C : X.I; \x7d")]

/-- What the name `X.I` means at each declaration of a program, with the levels around it. -/
def meaningsOf (sources : List (String × String)) : Option (List (List Level × Option SymbolId)) :=
  (parseAll sources).toOption.map fun trees ↦ (ofTrees trees).entries.map fun e ↦
    (e.levels, (ofTrees trees).model.baseType? e.tree e.declaration ⟨"X.I", ⟨0, 0⟩⟩)

/-- What is evaluated for sources is what their model says. -/
theorem exists_of_meaningsOf {first second : List Level × Option SymbolId}
    (h : meaningsOf sources = some [first, second]) :
    ∃ trees number d, parseAll sources = .ok trees ∧ HasScope trees number d second.1 ∧
      (ofTrees trees).model.baseType? number d ⟨"X.I", ⟨0, 0⟩⟩ = second.2 := by
  obtain ⟨trees, htrees, hmeanings⟩ := Option.map_eq_some_iff.1 h
  have hsecond : second ∈ (ofTrees trees).entries.map fun e ↦
      (e.levels, (ofTrees trees).model.baseType? e.tree e.declaration ⟨"X.I", ⟨0, 0⟩⟩) := by
    rw [hmeanings]
    simp
  obtain ⟨e, he, rfl⟩ := List.mem_map.1 hsecond
  exact ⟨trees, e.tree, e.declaration, eq_ok_of_toOption htrees, hasScope_of_mem_entries he, rfl⟩

theorem meaningsOf_aliasSample :
    meaningsOf (aliasSample "using X = B; using X = A;") = some [
      ([⟨.named "B", []⟩, ⟨.global, []⟩], none),
      ([⟨.named "P", [⟨.alias "X", "B", false, ⟨43, 55⟩⟩, ⟨.alias "X", "A", false, ⟨56, 68⟩⟩]⟩,
        ⟨.global, []⟩], some ⟨"B.I"⟩)] := by
  decide +kernel

/-- The first alias leads to a declared type, and the level with the aliases decides. -/
theorem baseType?_of_parseAll_aliasSample :
    ∃ trees number d levels, parseAll (aliasSample "using X = B; using X = A;") = .ok trees ∧
      HasScope trees number d levels ∧
      (ofTrees trees).model.baseType? number d ⟨"X.I", ⟨0, 0⟩⟩ = some ⟨"B.I"⟩ ∧
      (ofTrees trees).Declares ⟨"B.I"⟩ ∧
      ∃ inner level outer, levels = inner ++ level :: outer ∧
        level.Decides (ofTrees trees) "X" ["I"] 0 (some ⟨"B.I"⟩) := by
  have hname : Reference.IsTypeName (".".intercalate ["X", "I"]) ["X", "I"] 0 :=
    .dotted (by decide) (by decide)
  have htext : ".".intercalate ["X", "I"] = "X.I" := by decide
  obtain ⟨trees, number, d, htrees, hd, hmeaning⟩ := exists_of_meaningsOf meaningsOf_aliasSample
  obtain ⟨hrules, hdeclared, -⟩ := baseType?_of_parseAll htrees hd
    (show Reference.IsTypeName (BaseEntry.mk "X.I" ⟨0, 0⟩).text ["X", "I"] 0 from htext ▸ hname)
  obtain ⟨inner, level, outer, hlevels, -, hdecides⟩ := (hrules ⟨"B.I"⟩).1 hmeaning
  exact ⟨trees, number, d, _, htrees, hd, hmeaning, hdeclared _ hmeaning, inner, level, outer,
    hlevels, hdecides⟩

/-- With its aliases the other way round the level has the same directives, but no meaning for the
name: the alias that now is the first leads nowhere, and the other one is not asked. -/
theorem baseType?_reordered_aliasSample :
    ∃ trees trees' number number' d d' levels levels',
      parseAll (aliasSample "using X = B; using X = A;") = .ok trees ∧
      parseAll (aliasSample "using X = A; using X = B;") = .ok trees' ∧
      HasScope trees number d levels ∧ HasScope trees' number' d' levels' ∧
      List.Forall₂ (fun level level' ↦ level.ns = level'.ns ∧
        SameDirectives level.usings level'.usings) levels levels' ∧
      (ofTrees trees).model.baseType? number d ⟨"X.I", ⟨0, 0⟩⟩ = some ⟨"B.I"⟩ ∧
      (ofTrees trees').model.baseType? number' d' ⟨"X.I", ⟨0, 0⟩⟩ = none := by
  have hmeanings : meaningsOf (aliasSample "using X = A; using X = B;") = some [
      ([⟨.named "B", []⟩, ⟨.global, []⟩], none),
      ([⟨.named "P", [⟨.alias "X", "A", false, ⟨43, 55⟩⟩, ⟨.alias "X", "B", false, ⟨56, 68⟩⟩]⟩,
        ⟨.global, []⟩], none)] := by
    decide +kernel
  obtain ⟨trees, number, d, htrees, hd, hmeaning⟩ := exists_of_meaningsOf meaningsOf_aliasSample
  obtain ⟨trees', number', d', htrees', hd', hmeaning'⟩ := exists_of_meaningsOf hmeanings
  refine ⟨trees, trees', number, number', d, d', _, _, htrees, htrees', hd, hd', ?_,
    hmeaning, hmeaning'⟩
  exact .cons ⟨rfl, List.Perm.swap _ _ _⟩ (.cons ⟨rfl, .nil⟩ .nil)

end DeclarationTable

end DoubleDispatch
