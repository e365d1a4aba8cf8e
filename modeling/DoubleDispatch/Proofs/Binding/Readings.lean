import DoubleDispatch.Binding.Table
import DoubleDispatch.Proofs.Declaration.Matching
import DoubleDispatch.Proofs.Lists

/-!
# Names that are read alike

A table of declarations depends on names that are kept as they are written only by what is read of
them: references to types, simple names, and the texts of using targets (`WrittenNames.readAlike`).
Where the trees of two programs match up to such names, the tables answer all questions in the same
way (`DeclarationTable.Alike.agree`).
-/

namespace DoubleDispatch

/-- Names of which the same is read. Attribute names are the same references, as they are written
and with their suffix; base entries are the same references and have the same simple names. The
targets of using directives are also put together with other names, and have the same text. -/
def WrittenNames.readAlike : WrittenNames where
  usingTarget n n' := n' = n
  attributeName n n' := Reference.parse? n' = Reference.parse? n ∧
    Reference.parse? (withAttributeSuffix n') = Reference.parse? (withAttributeSuffix n)
  baseText n n' := Reference.parse? n' = Reference.parse? n ∧
    (BaseEntry.mk n' ⟨0, 0⟩).simpleName? = (BaseEntry.mk n ⟨0, 0⟩).simpleName?

/-- Two models give the same answers for declarations that match. -/
structure SemanticModel.Agree (m m' : SemanticModel) : Prop where
  declaredSymbol? : ∀ number {d d' : TypeDeclaration}, d.Matches .readAlike d' →
    m'.declaredSymbol? number d' = m.declaredSymbol? number d
  attributeType? : ∀ number {d d' : TypeDeclaration} {a a' : Attribute}, d.Matches .readAlike d' →
    a.Matches .readAlike a' → m'.attributeType? number d' a' = m.attributeType? number d a
  baseType? : ∀ number {d d' : TypeDeclaration} {b b' : BaseEntry}, d.Matches .readAlike d' →
    b.Matches .readAlike b' → m'.baseType? number d' b' = m.baseType? number d b

/-! ### Levels -/

/-- Levels that say the same. -/
structure Level.Alike (level level' : Level) : Prop where
  ns : level'.ns = level.ns
  usings : List.Forall₂ (UsingDirective.Matches .readAlike) level.usings level'.usings

namespace Level

variable {levels levels' : List Level} {usings usings' : List UsingDirective}

/-- The directives of one file that are read alike are still so without the global ones. -/
theorem localUsings_alike (h : List.Forall₂ (UsingDirective.Matches .readAlike) usings usings') :
    List.Forall₂ (UsingDirective.Matches .readAlike) (localUsings usings)
      (localUsings usings') :=
  List.rel_filter (fun u u' hu ↦ by simp [hu.isGlobal]) h

/-- The innermost namespace of levels that are alike is the same. -/
theorem innermost_alike (h : List.Forall₂ Alike levels levels') :
    innermost levels' = innermost levels := by
  cases h with
  | nil => rfl
  | cons hlevel _ => exact hlevel.ns

/-- Entering a namespace keeps levels alike. -/
theorem enter_alike (h : List.Forall₂ Alike levels levels')
    (husings : List.Forall₂ (UsingDirective.Matches .readAlike) usings usings')
    (segments : List String) :
    List.Forall₂ Alike (enter levels usings segments) (enter levels' usings' segments) := by
  induction segments generalizing levels levels' with
  | nil => exact h
  | cons segment segments ih =>
    cases segments with
    | nil => exact .cons ⟨by rw [innermost_alike h], localUsings_alike husings⟩ h
    | cons next segments =>
      have hlevel : Alike ⟨(innermost levels).child segment, []⟩
          ⟨(innermost levels').child segment, []⟩ := ⟨by rw [innermost_alike h], .nil⟩
      exact ih (.cons hlevel h)

end Level

/-! ### Declarations of a file -/

/-- Declarations that stand in scopes that say the same. -/
structure PlacedDeclaration.Alike (e e' : PlacedDeclaration) : Prop where
  tree : e'.tree = e.tree
  declaration : e.declaration.Matches .readAlike e'.declaration
  symbol : e'.symbol = e.symbol
  levels : List.Forall₂ Level.Alike e.levels e'.levels

/-- Declarations that are read alike have the same symbol. -/
theorem Symbol.ofDeclaration_alike {d d' : TypeDeclaration} (h : d.Matches .readAlike d')
    (ns : Namespace) : ofDeclaration ns d' = ofDeclaration ns d := by
  rw [ofDeclaration, ofDeclaration, TypeDeclaration.arity, TypeDeclaration.arity, h.name, h.kind,
    h.typeParameters]

mutual

/-- Declarations are placed alike. -/
theorem Member.placed_alike (number : Nat) {m m' : Member} (h : m.Matches .readAlike m')
    {levels levels' : List Level} (hlevels : List.Forall₂ Level.Alike levels levels') :
    List.Forall₂ PlacedDeclaration.Alike (m.placed number levels) (m'.placed number levels') :=
  match m, m', h with
  | .type _, .type _, hd =>
    .cons ⟨rfl, hd, by rw [Level.innermost_alike hlevels, Symbol.ofDeclaration_alike hd], hlevels⟩
      .nil
  | .scope .., .scope .., ⟨hname, _, husings, hmembers⟩ =>
    hname ▸ placedOf_alike number hmembers (Level.enter_alike hlevels husings _)

theorem placedOf_alike (number : Nat) {ms ms' : List Member} (h : membersMatch .readAlike ms ms')
    {levels levels' : List Level} (hlevels : List.Forall₂ Level.Alike levels levels') :
    List.Forall₂ PlacedDeclaration.Alike (placedOf number levels ms)
      (placedOf number levels' ms') :=
  match ms, ms', h with
  | [], [], _ => .nil
  | _ :: _, _ :: _, ⟨hm, hms⟩ =>
    List.rel_append (Member.placed_alike number hm hlevels) (placedOf_alike number hms hlevels)

end

mutual

theorem Member.globalUsings_alike {m m' : Member} (h : m.Matches .readAlike m') :
    List.Forall₂ (UsingDirective.Matches .readAlike) m.globalUsings m'.globalUsings :=
  match m, m', h with
  | .type _, .type _, _ => .nil
  | .scope .., .scope .., ⟨_, _, husings, hmembers⟩ =>
    List.rel_append (List.rel_filter (fun u u' hu ↦ by simp [hu.isGlobal]) husings)
      (globalUsingsOf_alike hmembers)

/-- Global directives are read alike, by recursion over namespaces. -/
theorem globalUsingsOf_alike {ms ms' : List Member} (h : membersMatch .readAlike ms ms') :
    List.Forall₂ (UsingDirective.Matches .readAlike) (globalUsingsOf ms) (globalUsingsOf ms') :=
  match ms, ms', h with
  | [], [], _ => .nil
  | _ :: _, _ :: _, ⟨hm, hms⟩ =>
    List.rel_append (Member.globalUsings_alike hm) (globalUsingsOf_alike hms)

end

/-! ### Tables -/

/-- Tables of declarations that correspond. -/
structure DeclarationTable.Alike (table table' : DeclarationTable) : Prop where
  entries : List.Forall₂ PlacedDeclaration.Alike table.entries table'.entries

namespace DeclarationTable

variable {table table' : DeclarationTable} {usings usings' : List UsingDirective}
  {levels levels' : List Level} {level level' : Level}

/-- Tables of trees that match correspond. -/
theorem alike_ofTrees {trees trees' : List SourceTree}
    (h : List.Forall₂ (fun tree tree' : SourceTree ↦ tree.file.Matches .readAlike tree'.file)
      trees trees') :
    (ofTrees trees).Alike (ofTrees trees') := by
  have hglobals : List.Forall₂ (UsingDirective.Matches .readAlike)
      (trees.flatMap (·.file.globalUsings)) (trees'.flatMap (·.file.globalUsings)) :=
    List.rel_flatMap h fun tree tree' hfile ↦
      List.rel_append (List.rel_filter (fun u u' hu ↦ by simp [hu.isGlobal]) hfile.usings)
        (globalUsingsOf_alike hfile.members)
  refine ⟨List.rel_flatMap (forall₂_zipIdx h 0) fun p p' hp ↦ ?_⟩
  obtain ⟨tree, number⟩ := p
  obtain ⟨tree', number'⟩ := p'
  obtain ⟨hfile, rfl⟩ := hp
  exact placedOf_alike _ hfile.members
    (.cons ⟨rfl, List.rel_append (Level.localUsings_alike hfile.usings) hglobals⟩ .nil)

/-- Tables that are alike declare the same names. -/
theorem Alike.lookup?_eq (h : table.Alike table') (text : String) :
    table'.lookup? text = table.lookup? text := by
  rw [lookup?, lookup?, symbol?, symbol?]
  obtain ⟨hnone, hnone'⟩ | ⟨e, e', hfound, hfound', he⟩ :=
    find?_cases h.entries (p := (·.symbol.id = ⟨text⟩)) (q := (·.symbol.id = ⟨text⟩))
      fun e e' he ↦ by rw [he.symbol]
  · rw [hnone, hnone']
  · rw [hfound, hfound', Option.map_some, Option.map_some, Option.map_some, Option.map_some,
      he.symbol]

/-- Declarations that match are found in scopes that say the same. -/
theorem Alike.get?_cases (h : table.Alike table') (number : Nat) {d d' : TypeDeclaration}
    (hd : d.Matches .readAlike d') :
    (table.get? number d = none ∧ table'.get? number d' = none) ∨
      ∃ e e', table.get? number d = some e ∧ table'.get? number d' = some e' ∧ e.Alike e' := by
  rw [get?, get?, hd.ordinal, hd.name]
  obtain ⟨hnone, hnone'⟩ | ⟨e, e', hfound, hfound', he⟩ := find?_cases h.entries
    (p := fun e ↦ e.tree = number && e.declaration.ordinal = d.ordinal)
    (q := fun e ↦ e.tree = number && e.declaration.ordinal = d.ordinal)
    fun e e' he ↦ by rw [he.tree, he.declaration.ordinal]
  · exact .inl ⟨by rw [hnone]; rfl, by rw [hnone']; rfl⟩
  · rw [hfound, hfound', Option.filter_some, Option.filter_some, he.symbol]
    split
    · exact .inr ⟨e, e', rfl, rfl, he⟩
    · exact .inl ⟨rfl, rfl⟩

/-- The first alias of a name has a target with the same reading. -/
theorem aliasTarget?_alike (h : List.Forall₂ (UsingDirective.Matches .readAlike) usings usings')
    (name : String) : aliasTarget? usings' name = aliasTarget? usings name := by
  rw [aliasTarget?, aliasTarget?]
  obtain ⟨hnone, hnone'⟩ | ⟨u, u', hfound, hfound', hu⟩ :=
    find?_cases h (p := (·.kind = .alias name)) (q := (·.kind = .alias name))
      fun u u' hu ↦ by rw [hu.kind]
  · rw [hnone, hnone']
  · rw [hfound, hfound']
    exact congrArg some hu.target

/-- Directives that are read alike import the same symbols. -/
theorem Alike.imports_eq (h : table.Alike table')
    (husings : List.Forall₂ (UsingDirective.Matches .readAlike) usings usings') (name : String) :
    table'.imports usings' name = table.imports usings name := by
  refine filterMap_filter_eq husings (fun u u' hu ↦ by rw [hu.kind]) fun u u' hu ↦ ?_
  rw [h.lookup?_eq, show u'.target = u.target from hu.target]

/-- What an alias says of a name depends on which names are declared. -/
theorem Alike.verdictOfAlias_eq (h : table.Alike table') (target : String) (rest : List String)
    (arity : Nat) :
    table'.verdictOfAlias target rest arity = table.verdictOfAlias target rest arity := by
  simp only [verdictOfAlias, h.lookup?_eq]

theorem Alike.verdictOfUsings_eq (h : table.Alike table')
    (husings : List.Forall₂ (UsingDirective.Matches .readAlike) usings usings') (r : Reference) :
    table'.verdictOfUsings usings' r = table.verdictOfUsings usings r := by
  simp only [verdictOfUsings, aliasTarget?_alike husings, h.verdictOfAlias_eq,
    h.imports_eq husings]

/-- **A level says the same of a reference.** -/
theorem Alike.verdict_eq (h : table.Alike table') (hlevel : level.Alike level') (r : Reference) :
    table'.verdict r level' = table.verdict r level := by
  simp only [verdict, aliasTarget?_alike hlevel.usings, hlevel.ns, h.lookup?_eq,
    h.verdictOfUsings_eq hlevel.usings]

/-- A reference is resolved to the same symbol, by induction on the levels. -/
theorem Alike.resolveReference?_eq (h : table.Alike table')
    (hlevels : List.Forall₂ Level.Alike levels levels') (r : Reference) :
    table'.resolveReference? levels' r = table.resolveReference? levels r := by
  have hverdicts : levels'.map (table'.verdict r) = levels.map (table.verdict r) :=
    map_eq_of_forall₂ hlevels fun _ _ hlevel ↦ h.verdict_eq hlevel r
  rw [resolveReference?, resolveReference?, h.lookup?_eq, hverdicts]

/-- **A name in a declaration is resolved to the same symbol** if its text has the same reading. -/
theorem Alike.resolve?_eq (h : table.Alike table') (number : Nat) {d d' : TypeDeclaration}
    (hd : d.Matches .readAlike d') {text text' : String}
    (htext : Reference.parse? text' = Reference.parse? text) :
    table'.resolve? number d' text' = table.resolve? number d text := by
  rw [resolve?, resolve?, htext]
  obtain ⟨hnone, hnone'⟩ | ⟨e, e', hfound, hfound', he⟩ := h.get?_cases number hd
  · rw [hnone, hnone']
    cases Reference.parse? text with
    | none => rfl
    | some r => rfl
  · rw [hfound, hfound']
    cases Reference.parse? text with
    | none => rfl
    | some r => exact h.resolveReference?_eq he.levels r

/-- **Tables that correspond answer alike.** -/
theorem Alike.agree (h : table.Alike table') : table.model.Agree table'.model := by
  refine ⟨fun number {d d'} hd ↦ ?_, fun number {d d' a a'} hd ha ↦ ?_,
    fun number {d d' b b'} hd hb ↦ ?_⟩
  · rw [model, model]
    dsimp only
    obtain ⟨hnone, hnone'⟩ | ⟨e, e', hfound, hfound', he⟩ := h.get?_cases number hd
    · rw [hnone, hnone']
    · rw [hfound, hfound', Option.map_some, Option.map_some, he.symbol]
  · obtain ⟨hplain, hsuffixed⟩ := ha
    rw [model, model]
    dsimp only
    rw [resolveAttribute?, resolveAttribute?, h.resolve?_eq number hd hplain,
      h.resolve?_eq number hd hsuffixed]
  · obtain ⟨htext, -⟩ := hb
    rw [model, model]
    dsimp only
    rw [h.resolve?_eq number hd htext]

end DeclarationTable

end DoubleDispatch
