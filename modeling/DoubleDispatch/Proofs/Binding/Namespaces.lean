import DoubleDispatch.Proofs.Binding.SymbolIds
import DoubleDispatch.Proofs.Binding.TypeName

/-!
# Namespaces of declared types

The name of a namespace is read as identifiers with dots between them
(`Stream.Reads.isDotted_of_mem_scopeNames`). A type stands inside one level for each of these
identifiers, so the namespace of every symbol of files that are read is the global one with
identifiers added one by one (`DeclarationTable.isNested_ns_of_declaredSymbol?`).
-/

namespace DoubleDispatch

/-! ### Names of namespaces -/

mutual

/-- The names of the namespaces in a member. -/
def Member.scopeNames : Member → List String
  | .type _ => []
  | .scope name _ _ members _ => name :: scopeNamesOf members

/-- The names of the namespaces in a list of members. -/
def scopeNamesOf : List Member → List String
  | [] => []
  | m :: ms => m.scopeNames ++ scopeNamesOf ms

end

/-- Identifiers with dots between them, of which there is at least one. -/
def IsDotted (isWord : String → Prop) (name : String) : Prop :=
  ∃ words, words ≠ [] ∧ (∀ word ∈ words, isWord word) ∧ name = ".".intercalate words

namespace Stream

variable {source : List Char} {s : Stream}

/-- The words of a dotted name are tokens ahead. -/
theorem mem_of_identifiers {prevEnd : Nat} {ts : List Token} {names : Parsed (List String)}
    (h : identifiers prevEnd ts = .ok names) :
    names.value ≠ [] ∧ ∀ name ∈ names.value, ∃ t ∈ ts, t.kind = .identifier name := by
  fun_induction identifiers prevEnd ts generalizing names with
  | case1 prevEnd name span dotSpan ts ih =>
    obtain ⟨later, hlater, h⟩ := exists_of_bind_eq_ok h
    cases h
    refine ⟨List.cons_ne_nil _ _, List.forall_mem_cons.2 ⟨⟨_, List.mem_cons_self, rfl⟩, ?_⟩⟩
    intro word hword
    obtain ⟨t, ht, hkind⟩ := (ih hlater).2 word hword
    exact ⟨t, List.mem_cons_of_mem _ (List.mem_cons_of_mem _ ht), hkind⟩
  | case2 prevEnd name span ts =>
    cases h
    exact ⟨List.cons_ne_nil _ _,
      List.forall_mem_singleton.2 ⟨_, List.mem_cons_self, rfl⟩⟩
  | case3 => cases h

theorem isDotted_of_namespaceHeader {header : Parsed (String × Bool)}
    (h : s.namespaceHeader = .ok header) :
    IsDotted (fun word ↦ ∃ t ∈ s.ahead, t.kind = .identifier word) header.value.1 := by
  obtain ⟨name, _, hname, -, rfl⟩ := namespaceHeader_eq_ok_iff.1 h
  obtain ⟨names, hnames, hname⟩ := exists_of_bind_eq_ok hname
  cases hname
  obtain ⟨hne, hwords⟩ := mem_of_identifiers hnames
  exact ⟨names.value, hne, hwords, rfl⟩

/-- **The name of a namespace that is read is dotted**, and its words are tokens ahead. -/
theorem Reads.isDotted_of_mem_scopeNames {braced : Bool} {ordinal : Nat} {b : Body}
    (h : Reads source braced ordinal s b) :
    ∀ name ∈ scopeNamesOf b.members,
      IsDotted (fun word ↦ ∃ t ∈ s.ahead, t.kind = .identifier word) name := by
  -- What stands in a body that starts further on stands ahead.
  have hmono {s u : Stream} {names : List String} (hsu : u.ahead ⊆ s.ahead)
      (h : ∀ name ∈ names, IsDotted (fun word ↦ ∃ t ∈ u.ahead, t.kind = .identifier word) name) :
      ∀ name ∈ names, IsDotted (fun word ↦ ∃ t ∈ s.ahead, t.kind = .identifier word) name := by
    intro name hname
    obtain ⟨words, hne, hwords, heq⟩ := h name hname
    refine ⟨words, hne, fun word hword ↦ ?_, heq⟩
    obtain ⟨t, ht, hkind⟩ := hwords word hword
    exact ⟨t, hsu ht, hkind⟩
  have hsubset {s u : Stream} (hsu : ∃ strays, s.Passes u strays) : u.ahead ⊆ s.ahead := by
    obtain ⟨strays, hpasses⟩ := hsu
    exact hpasses.subset
  induction h with
  | done => simp [scopeNamesOf]
  | usingDirective _ found _ ih => exact hmono (hsubset (takesItem_using found).passes) ih
  | @scope _ _ s header content later _ _ word found hcontent _ ihcontent ihlater =>
    have hheader := (takesItem_namespaceHeader word found).passes
    have hbehind := exists_passes_trans hheader
      (exists_passes_trans hcontent.exists_passes hcontent.exists_passes_behindBody)
    have hadvance : s.advance.ahead ⊆ s.ahead :=
      (passes_plain (isPlain_of_isWord word)).subset
    have hname := hmono hadvance (List.forall_mem_singleton.2 (isDotted_of_namespaceHeader found))
    exact List.forall_mem_append.2 ⟨List.forall_mem_cons.2 ⟨hname _ (List.mem_singleton_self _),
      hmono (hsubset hheader) ihcontent⟩, hmono (hsubset hbehind) ihlater⟩
  | type _ _ _ found _ ih =>
    exact hmono (hsubset (takesItem_typeDeclaration? found).passes) ih
  | item goesOn _ _ _ found _ ih =>
    exact hmono (passes_skipItem goesOn.kind found).subset ih

end Stream

/-- The names of the namespaces of a file that is read are identifiers with dots between them. -/
theorem SourceTree.isDotted_of_parse {path source : String} {tree : SourceTree}
    (h : SourceTree.parse path source = .ok tree) :
    ∀ name ∈ scopeNamesOf tree.file.members,
      IsDotted (fun word ↦ Text.isIdentifier word.toList) name := by
  obtain ⟨tokens, b, htokens, -, hreads, hfile⟩ :=
    SourceFile.exists_reads_of_parse (file_of_parse h)
  rw [hfile]
  intro name hname
  obtain ⟨words, hne, hwords, heq⟩ := hreads.isDotted_of_mem_scopeNames name hname
  refine ⟨words, hne, fun word hword ↦ ?_, heq⟩
  obtain ⟨t, ht, hkind⟩ := hwords word hword
  exact isIdentifier_of_tokenize htokens ht hkind

theorem isDotted_of_parseAll {sources : List (String × String)} {trees : List SourceTree}
    (h : parseAll sources = .ok trees) :
    ∀ tree ∈ trees, ∀ name ∈ scopeNamesOf tree.file.members,
      IsDotted (fun word ↦ Text.isIdentifier word.toList) name := by
  intro tree htree
  obtain ⟨s, -, hread⟩ := exists_of_mem_right (forall₂_of_parseAll h) htree
  exact SourceTree.isDotted_of_parse hread

/-! ### Nested namespaces -/

/-- The global namespace with identifiers added one by one. -/
def Namespace.IsNested (ns : Namespace) : Prop :=
  ∃ segments : List String, (∀ segment ∈ segments, Text.isIdentifier segment.toList) ∧
    ns = segments.foldl Namespace.child .global

namespace Namespace.IsNested

theorem global : IsNested .global := ⟨[], by simp, rfl⟩

/-- A namespace further in is nested too. -/
theorem foldl_child {ns : Namespace} (h : ns.IsNested) {segments : List String}
    (hsegments : ∀ segment ∈ segments, Text.isIdentifier segment.toList) :
    (segments.foldl Namespace.child ns).IsNested := by
  obtain ⟨outer, houter, rfl⟩ := h
  exact ⟨outer ++ segments, List.forall_mem_append.2 ⟨houter, hsegments⟩,
    List.foldl_append.symm⟩

/-- A nested namespace that has a name has a dotted one. -/
theorem isDotted {name : String} (h : (Namespace.named name).IsNested) :
    IsDotted (fun word ↦ Text.isIdentifier word.toList) name := by
  obtain ⟨_ | ⟨first, later⟩, hsegments, hname⟩ := h
  · cases hname
  · have hfirst : Namespace.global.child first = .named first := rfl
    rw [List.foldl_cons, hfirst, Level.foldl_child_named] at hname
    exact ⟨first :: later, List.cons_ne_nil _ _, hsegments, Namespace.named.inj hname⟩

end Namespace.IsNested

/-- The segments of a dotted name are the identifiers it is made of. -/
theorem Level.segments_intercalate {words : List String} (hne : words ≠ [])
    (h : ∀ word ∈ words, Text.isIdentifier word.toList) :
    segments (".".intercalate words) = words := by
  rw [segments, Reference.split_intercalate_dot hne h, List.map_map]
  exact List.map_id'' (fun _ ↦ String.ofList_toList) _

/-- Inside a namespace with a dotted name stands a nested namespace if one stands around it. -/
theorem Level.isNested_innermost_enter {levels : List Level} (h : (innermost levels).IsNested)
    {name : String} (hname : IsDotted (fun word ↦ Text.isIdentifier word.toList) name)
    (usings : List UsingDirective) :
    (innermost (enter levels usings (segments name))).IsNested := by
  obtain ⟨words, hne, hwords, rfl⟩ := hname
  rw [innermost_enter, segments_intercalate hne hwords]
  exact h.foldl_child hwords

mutual

theorem Member.isNested_of_mem_placed {tree : Nat} {levels : List Level} {m : Member}
    (hlevels : (Level.innermost levels).IsNested)
    (hnames : ∀ name ∈ m.scopeNames, IsDotted (fun word ↦ Text.isIdentifier word.toList) name)
    {e : PlacedDeclaration} (he : e ∈ m.placed tree levels) : e.symbol.ns.IsNested := by
  match m with
  | .type d =>
    obtain rfl := List.mem_singleton.1 he
    exact hlevels
  | .scope name fileScoped usings members span =>
    obtain ⟨hname, hnames⟩ := List.forall_mem_cons.1 hnames
    exact isNested_of_mem_placedOf (Level.isNested_innermost_enter hlevels hname usings) hnames he

/-- The symbols of members stand in nested namespaces if the names of namespaces are dotted. -/
theorem isNested_of_mem_placedOf {tree : Nat} {levels : List Level} {ms : List Member}
    (hlevels : (Level.innermost levels).IsNested)
    (hnames : ∀ name ∈ scopeNamesOf ms, IsDotted (fun word ↦ Text.isIdentifier word.toList) name)
    {e : PlacedDeclaration} (he : e ∈ placedOf tree levels ms) : e.symbol.ns.IsNested := by
  match ms with
  | [] => cases he
  | m :: ms =>
    obtain ⟨hfirst, hlater⟩ := List.forall_mem_append.1 hnames
    rw [placedOf, List.mem_append] at he
    rcases he with he | he
    · exact m.isNested_of_mem_placed hlevels hfirst he
    · exact isNested_of_mem_placedOf hlevels hlater he

end

/-- **The namespace of every symbol is nested**, in trees whose namespaces have dotted names. -/
theorem DeclarationTable.isNested_ns_of_declaredSymbol? {trees : List SourceTree}
    (h : ∀ tree ∈ trees, ∀ name ∈ scopeNamesOf tree.file.members,
      IsDotted (fun word ↦ Text.isIdentifier word.toList) name)
    {number : Nat} {d : TypeDeclaration} {symbol : Symbol}
    (hsymbol : (ofTrees trees).model.declaredSymbol? number d = some symbol) :
    symbol.ns.IsNested := by
  obtain ⟨e, he, rfl⟩ := Option.map_eq_some_iff.1 hsymbol
  obtain ⟨number', tree, htree, hplaced⟩ := mem_entries_ofTrees.1 (mem_entries_of_get? he)
  have hfile (file : Level) (hfile : file.ns = .global) : (Level.innermost [file]).IsNested :=
    (congrArg Namespace.IsNested hfile).mpr .global
  exact isNested_of_mem_placedOf (hfile _ rfl) (h tree (List.mem_of_getElem? htree)) hplaced

end DoubleDispatch
