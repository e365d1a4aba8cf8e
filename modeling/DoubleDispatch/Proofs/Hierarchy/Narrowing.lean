import DoubleDispatch.Proofs.Binding.ScopeRules
import DoubleDispatch.Proofs.Hierarchy.Participants

/-!
# Matching by meaning and by name

A base entry names a root by its simple name, or by the type that it means. Where it is a bare
identifier and there are no alias directives, the second is the narrower of the two: a level of
scope gives the name a type of its own namespace, or one that it imports, and both have the name
(`DeclarationTable.exists_ofParts_of_resolveReference?`). Since an id says the name of its type, the
type that an entry means is a root only if the entry is the name of this root
(`implementors_semantic_subset`).
-/

namespace DoubleDispatch

/-! ### All directives of a file -/

mutual

/-- The directives in a member, wherever they stand in it. -/
def Member.directives : Member → List UsingDirective
  | .type _ => []
  | .scope _ _ usings members _ => usings ++ directivesOf members

/-- The directives in a list of members. -/
def directivesOf : List Member → List UsingDirective
  | [] => []
  | m :: ms => m.directives ++ directivesOf ms

end

/-- The directives of a file, wherever they stand in it. -/
def SourceFile.directives (file : SourceFile) : List UsingDirective :=
  file.usings ++ directivesOf file.members

mutual

theorem Member.globalUsings_subset : ∀ m : Member, m.globalUsings ⊆ m.directives
  | .type _ => List.nil_subset _
  | .scope _ _ usings members _ => by
    refine List.append_subset.2 ⟨?_, ?_⟩
    · exact List.subset_append_of_subset_left _ (List.filter_subset_self _)
    · exact List.subset_append_of_subset_right _ (globalUsingsOf_subset members)

theorem globalUsingsOf_subset : ∀ ms : List Member, globalUsingsOf ms ⊆ directivesOf ms
  | [] => List.nil_subset _
  | m :: ms => by
    refine List.append_subset.2 ⟨?_, ?_⟩
    · exact List.subset_append_of_subset_left _ m.globalUsings_subset
    · exact List.subset_append_of_subset_right _ (globalUsingsOf_subset ms)

end

/-- The global directives of a file are among its directives. -/
theorem SourceFile.globalUsings_subset (file : SourceFile) :
    file.globalUsings ⊆ file.directives := by
  refine List.append_subset.2 ⟨?_, ?_⟩
  · exact List.subset_append_of_subset_left _ (List.filter_subset_self _)
  · exact List.subset_append_of_subset_right _ (globalUsingsOf_subset file.members)

theorem directives_subset_of_mem {ms : List Member} {m : Member} (hm : m ∈ ms) :
    m.directives ⊆ directivesOf ms := by
  induction ms with
  | nil => cases hm
  | cons first later ih =>
    rcases List.mem_cons.1 hm with rfl | hm
    · exact List.subset_append_left _ _
    · exact List.subset_append_of_subset_right _ (ih hm)

/-- The directives of what stands around a declaration are among those of the members. -/
theorem StandsInside.usings_subset {ms : List Member} {around : List Enclosure}
    {d : TypeDeclaration} (h : StandsInside ms around d) :
    ∀ e ∈ around, e.usings ⊆ directivesOf ms := by
  induction h with
  | type => nofun
  | scope here _ ih =>
    have hscope := directives_subset_of_mem here
    refine List.forall_mem_cons.2 ⟨fun u hu ↦ hscope (List.mem_append_left _ hu), ?_⟩
    exact fun e he u hu ↦ hscope (List.mem_append_right _ (ih e he hu))

namespace Level

/-- A level entered with a namespace is one of those before it, or carries directives of that
namespace only. -/
theorem usings_subset_of_mem_enter {levels : List Level} {usings : List UsingDirective}
    {segments : List String} {level : Level} (h : level ∈ enter levels usings segments) :
    level ∈ levels ∨ level.usings ⊆ usings := by
  fun_induction enter levels usings segments with
  | case1 => exact .inl h
  | case2 levels segment =>
    rcases List.mem_cons.1 h with rfl | h
    · exact .inr (List.filter_subset_self _)
    · exact .inl h
  | case3 levels segment segments _ ih =>
    rcases ih h with h | h
    · rcases List.mem_cons.1 h with rfl | h
      · exact .inr (List.nil_subset _)
      · exact .inl h
    · exact .inr h

/-- The directives of a level are those of a namespace around. -/
theorem usings_subset_of_mem_inside {levels : List Level} {around : List Enclosure} {level : Level}
    (h : level ∈ inside levels around) :
    level ∈ levels ∨ ∃ e ∈ around, level.usings ⊆ e.usings := by
  induction around generalizing levels with
  | nil => exact .inl h
  | cons e around ih =>
    rcases ih h with h | ⟨e', he', hsub⟩
    · rcases usings_subset_of_mem_enter h with h | hsub
      · exact .inl h
      · exact .inr ⟨e, List.mem_cons_self, hsub⟩
    · exact .inr ⟨e', List.mem_cons_of_mem _ he', hsub⟩

end Level

/-- The directives that apply at a declaration are written in one of the files. -/
theorem DeclarationTable.exists_mem_directives {trees : List SourceTree} {e : PlacedDeclaration}
    (he : e ∈ (ofTrees trees).entries) {level : Level} (hlevel : level ∈ e.levels)
    {u : UsingDirective} (hu : u ∈ level.usings) : ∃ tree ∈ trees, u ∈ tree.file.directives := by
  obtain ⟨number, tree, htree, he⟩ := mem_entries_ofTrees.1 he
  obtain ⟨around, hinside, hlevels⟩ := exists_standsInside he
  have hmem := List.mem_of_getElem? htree
  rw [hlevels] at hlevel
  rcases Level.usings_subset_of_mem_inside hlevel with hfile | ⟨enclosure, henclosure, hsub⟩
  · rw [List.mem_singleton.1 hfile] at hu
    rcases List.mem_append.1 hu with hu | hu
    · exact ⟨tree, hmem, List.mem_append_left _ (List.filter_subset_self _ hu)⟩
    · obtain ⟨other, hother, hu⟩ := List.mem_flatMap.1 hu
      exact ⟨other, hother, other.file.globalUsings_subset hu⟩
  · exact ⟨tree, hmem, List.mem_append_right _ (hinside.usings_subset _ henclosure (hsub hu))⟩

/-! ### Bare names -/

/-- The entry is an identifier, verbatim or not, and nothing else. -/
def BaseEntry.IsBare (b : BaseEntry) : Prop :=
  ∃ name : String, Text.isIdentifier name.toList ∧
    (Text.trim b.text.toList = name.toList ∨ Text.trim b.text.toList = '@' :: name.toList)

/-- An entry that has a simple name is bare. -/
theorem BaseEntry.isBare_of_simpleName? {b : BaseEntry} (h : b.simpleName?.isSome) : b.IsBare := by
  rw [simpleName?] at h
  split at h
  next hname => exact ⟨String.ofList _, by rwa [String.toList_ofList], .inl (by simp)⟩
  next => cases h

/-- What is read of a text depends on what is left of it without the white space around it. -/
theorem Reference.parse?_congr {text text' : String}
    (h : Text.trim text.toList = Text.trim text'.toList) : parse? text = parse? text' := by
  rw [parse?, parse?, withoutMark, withoutMark, h]

section Verbatim

variable {name : List Char} (hname : Text.isIdentifier name)

include hname

theorem isBlank_of_mem_verbatim : ∀ c ∈ '@' :: name, Text.isBlank c = false :=
  List.forall_mem_cons.2 ⟨by decide, fun c hc ↦
    Text.isBlank_of_continuesIdentifier (Text.continuesIdentifier_of_isIdentifier hname c hc)⟩

/-- A verbatim name has nothing to trim. -/
theorem trim_verbatim : Text.trim ('@' :: name) = '@' :: name :=
  Text.trim_eq_self (fun c hc ↦ isBlank_of_mem_verbatim hname c (List.mem_of_head? hc))
    fun c hc ↦ isBlank_of_mem_verbatim hname c (List.mem_of_getLast? hc)

/-- A verbatim identifier refers to no type. -/
theorem Reference.parse?_verbatim : parse? (String.ofList ('@' :: name)) = none := by
  have hnotMem {c : Char} (hat : c ≠ '@') (hc : Text.continuesIdentifier c = false) :
      c ∉ '@' :: name := by
    rw [List.mem_cons, not_or]
    exact ⟨hat, Text.notMem_of_isIdentifier hname hc⟩
  have hblank := isBlank_of_mem_verbatim hname
  have hmark : withoutMark ('@' :: name) = '@' :: name := by
    refine withoutMark_eq_self (fun c hc ↦ hblank c (List.mem_of_head? hc))
      (fun c hc ↦ hblank c (List.mem_of_getLast? hc)) fun hlast ↦ ?_
    exact hnotMem (by decide) (by decide) (List.mem_of_getLast? hlast)
  rw [parse?, String.toList_ofList, hmark, qualifierAndName,
    Text.splitOnce?_eq_none (hnotMem (by decide) (by decide))]
  dsimp only
  rw [nameAndArity?, Text.splitOnce?_eq_none (hnotMem (by decide) (by decide))]
  dsimp only
  rw [Text.split_of_notMem (hnotMem (by decide) (by decide)), List.map_singleton,
    trim_verbatim hname]
  rfl

end Verbatim

/-- A bare entry that refers to a type does so by its simple name. -/
theorem BaseEntry.IsBare.exists_of_parse? {b : BaseEntry} (h : b.IsBare) {r : Reference}
    (hr : Reference.parse? b.text = some r) :
    ∃ name : String, Text.isIdentifier name.toList ∧ b.simpleName? = some name ∧
      r = ⟨.plain, [name], 0⟩ := by
  obtain ⟨name, hname, htrim | htrim⟩ := h
  · refine ⟨name, hname, ?_, ?_⟩
    · rw [simpleName?, htrim, if_pos hname, String.ofList_toList]
    · rw [← Text.trim_of_isIdentifier hname] at htrim
      rw [Reference.parse?_congr htrim, Reference.parse?_of_isIdentifier hname] at hr
      exact (Option.some.inj hr).symm
  · rw [← trim_verbatim hname, ← String.toList_ofList (l := '@' :: name.toList)] at htrim
    rw [Reference.parse?_congr htrim, Reference.parse?_verbatim hname] at hr
    cases hr

/-! ### What a bare name means -/

namespace DeclarationTable

variable {table : DeclarationTable} {name : String} {id : SymbolId}

/-- Without aliases, the type that a level gives a bare name has this name. -/
theorem exists_ofParts_of_decides {level : Level}
    (haliases : ∀ u ∈ level.usings, ∀ other, u.kind ≠ .alias other)
    (h : level.Decides table name [] 0 (some id)) : ∃ ns, id = .ofParts ns name 0 := by
  have hjoined : Reference.joined [name] 0 = arityName name 0 := rfl
  cases h with
  | declared => exact ⟨level.ns, by rw [hjoined]; rfl⟩
  | usings _ h =>
    cases h with
    | liveAlias halias =>
      obtain ⟨before, u, behind, heq, -, hkind, -⟩ := halias
      exact absurd hkind (haliases u (by simp [heq]) _)
    | aliasMember _ hrest => exact absurd rfl hrest
    | @imported _ id _ h =>
      obtain ⟨-, u, -, -, htext⟩ := h
      exact ⟨.named u.target, congrArg SymbolId.mk htext⟩

/-- Without aliases a bare name resolves to a type of that name, and of no parameters, in some
namespace. -/
theorem exists_ofParts_of_resolveReference? {levels : List Level}
    (haliases : ∀ level ∈ levels, ∀ u ∈ level.usings, ∀ other, u.kind ≠ .alias other)
    (h : table.resolveReference? levels ⟨.plain, [name], 0⟩ = some id) :
    ∃ ns, id = .ofParts ns name 0 := by
  rw [resolveReference?, if_neg Qualifier.noConfusion] at h
  obtain ⟨inner, level, outer, rfl, -, hfound⟩ := Verdict.first?_map_eq_some_iff.1 h
  have hdecides : level.Decides table name [] 0 (some id) := decides_iff.2 hfound
  exact exists_ofParts_of_decides (haliases level (by simp)) hdecides

/-- A text at a declaration resolves through its reference and the levels the declaration stands in.
-/
theorem resolve?_eq_some_iff {number : Nat} {d : TypeDeclaration} {text : String} :
    table.resolve? number d text = some id ↔ ∃ r e, Reference.parse? text = some r ∧
      table.get? number d = some e ∧ table.resolveReference? e.levels r = some id := by
  rw [resolve?]
  cases Reference.parse? text <;> cases table.get? number d <;> simp

end DeclarationTable

/-! ### Narrower searches -/

/-- **Matching by meaning is narrower than matching by name.** In a program that is read, without
alias directives and with bare base entries only, every type that implements a root by what its base
entries mean does so by their names. -/
theorem implementors_semantic_subset {sources : List (String × String)} {trees : List SourceTree}
    (h : parseAll sources = .ok trees)
    (haliases : ∀ tree ∈ trees, ∀ u ∈ tree.file.directives, ∀ other, u.kind ≠ .alias other)
    (hbases : ∀ tree ∈ trees, ∀ d ∈ tree.types, ∀ b ∈ d.bases, b.IsBare) :
    let c := Compilation.ofTrees trees
    ∀ root ∈ c.roots, (c.hierarchy .semantic root).types.map (·.id) ⊆
      (c.hierarchy .syntactic root).types.map (·.id) := by
  intro c root hroot id hid
  have hnames := isIdentifier_name_of_parseAll h
  have hfound := c.found_implementors .semantic root
  have hfound' := c.found_implementors .syntactic root
  obtain ⟨p, d, symbol, ⟨tree, htree, hstands⟩, ⟨hkind, hfile, b, hb, hbase⟩, hsymbol⟩ :=
    (hfound.mem_iff id).1 hid
  refine (hfound'.mem_iff id).2
    ⟨p, d, symbol, ⟨tree, htree, hstands⟩, ⟨hkind, hfile, b, hb, ?_⟩, hsymbol⟩
  -- The entry is read as its simple name, and what this means has that name.
  have hmeaning : (DeclarationTable.ofTrees trees).model.baseType? p.tree d b = some root.id :=
    hbase
  rw [DeclarationTable.baseType?_model] at hmeaning
  obtain ⟨r, e, hr, he, hroots⟩ := DeclarationTable.resolve?_eq_some_iff.1 hmeaning
  have hbare := hbases tree (List.mem_of_getElem? htree) d hstands.mem_typesOf b hb
  obtain ⟨name, hname, hsimple, rfl⟩ := hbare.exists_of_parse? hr
  obtain ⟨ns, hns⟩ := DeclarationTable.exists_ofParts_of_resolveReference?
    (fun level hlevel u hu ↦ by
      obtain ⟨other, hother, hwritten⟩ := DeclarationTable.exists_mem_directives
        (DeclarationTable.mem_entries_of_get? he) hlevel hu
      exact haliases other hother u hwritten) hroots
  -- The root has an id of its own name, so this is the same name.
  have hid := c.found_roots.id_eq (nodup_ordinal_of_parseAll h) hroot
  have hsame := (SymbolId.ofParts_inj hname (c.found_roots.isIdentifier_name hnames hroot)).1
    (hns.symm.trans hid)
  rw [NamesRoot, hsimple, hsame.2.1]

/-- A root, and an interface with its name in another namespace, each with one implementing type. -/
def foreignSample : List (String × String) :=
  [("Marker.cs", "namespace VisitorGenerator; class VisitorNodeAttribute : Attribute;"),
   ("Real.cs",
    "global using VisitorGenerator; namespace Real \x7b [VisitorNode] interface INode; " ++
    "class Hit : INode; \x7d"),
   ("Fake.cs", "namespace Fake \x7b interface INode; class Miss : INode; \x7d")]

/-- By its name the root also has the type that implements the other interface. -/
theorem implementors_semantic_subset_foreignSample :
    ∃ trees, parseAll foreignSample = .ok trees ∧
      let c := Compilation.ofTrees trees
      let ids matching root := (c.hierarchy matching root).types.map (·.id)
      c.roots.map (fun root ↦ (ids .semantic root, ids .syntactic root)) =
        [([⟨"Real.Hit"⟩], [⟨"Real.Hit"⟩, ⟨"Fake.Miss"⟩])] ∧
      ∀ root ∈ c.roots, ids .semantic root ⊆ ids .syntactic root := by
  have hread : ∃ trees ∈ (parseAll foreignSample).toOption,
      (∀ tree ∈ trees, ∀ u ∈ tree.file.directives, u.kind = .types) ∧
      (∀ tree ∈ trees, ∀ d ∈ tree.types, ∀ b ∈ d.bases, b.simpleName?.isSome) ∧
      let c := Compilation.ofTrees trees
      let ids matching root := (c.hierarchy matching root).types.map (·.id)
      c.roots.map (fun root ↦ (ids .semantic root, ids .syntactic root)) =
        [([⟨"Real.Hit"⟩], [⟨"Real.Hit"⟩, ⟨"Fake.Miss"⟩])] := by decide +kernel
  obtain ⟨trees, htrees, hkinds, hnames, hfound⟩ := hread
  have hok := eq_ok_of_toOption htrees
  refine ⟨trees, hok, hfound, implementors_semantic_subset hok ?_ ?_⟩
  · intro tree htree u hu other
    rw [hkinds tree htree u hu]
    nofun
  · exact fun tree htree d hd b hb ↦ BaseEntry.isBare_of_simpleName? (hnames tree htree d hd b hb)

end DoubleDispatch
