import DoubleDispatch.Compilation
import DoubleDispatch.Proofs.Lists
import DoubleDispatch.Proofs.Parsing.Strays

/-!
# Ordinals

A body numbers its types in the order of the source, through the namespaces in it, and what follows
goes on where it stops (`Stream.Reads.map_ordinal`). Items that are passed over take no number. So
the types of a file that is read are numbered from zero without gaps
(`SourceTree.map_ordinal_of_parse`).
-/

namespace DoubleDispatch

namespace Stream

variable {source : List Char} {s : Stream}

theorem ordinal_of_declarator {ordinal start : Nat} {header : HeaderStart}
    {d : Parsed TypeDeclaration} (h : declarator source ordinal start header s = .ok d) :
    d.value.ordinal = ordinal := by
  obtain ⟨_, _, _, _, _, _, -, -, -, -, -, -, rfl⟩ := declarator_eq_ok_iff.1 h
  rfl

theorem ordinal_of_typeDeclaration? {ordinal : Nat} {d : Parsed TypeDeclaration}
    (h : s.typeDeclaration? source ordinal = .ok (some d)) : d.value.ordinal = ordinal := by
  obtain ⟨header, -, hd⟩ := exists_headerStart?_of_typeDeclaration? h
  exact ordinal_of_declarator hd

/-- **The types of a body are numbered in a row** from the ordinal it starts with. -/
theorem Reads.map_ordinal {braced : Bool} {ordinal : Nat} {b : Body}
    (h : Reads source braced ordinal s b) :
    (typesOf b.members).map (·.ordinal) = List.range' ordinal (typesOf b.members).length ∧
      b.ordinal = ordinal + (typesOf b.members).length := by
  induction h with
  | done => exact ⟨rfl, rfl⟩
  | usingDirective _ _ _ ih => exact ih
  | @scope _ ordinal s header content later _ _ _ _ _ _ ihcontent ihlater =>
    -- The numbers inside the namespace come first, and those behind it follow on.
    obtain ⟨hcontent, hnext⟩ := ihcontent
    obtain ⟨hlater, hlast⟩ := ihlater
    have htypes : typesOf (later.behindScope content header.value s.start).members =
        typesOf content.members ++ typesOf later.members := rfl
    rw [htypes, List.map_append, List.length_append, hcontent, hlater, hnext]
    refine ⟨List.range'_append_1, ?_⟩
    show later.ordinal = _
    rw [hlast, hnext, Nat.add_assoc]
  | @type _ ordinal _ d later _ _ _ found _ ih =>
    obtain ⟨hlater, hlast⟩ := ih
    have htypes : typesOf (.type d.value :: later.members) = d.value :: typesOf later.members := rfl
    rw [htypes, List.map_cons, List.length_cons, List.range'_succ, hlater,
      ordinal_of_typeDeclaration? found]
    refine ⟨rfl, ?_⟩
    rw [hlast]
    omega
  | item _ _ _ _ _ _ ih => exact ih

end Stream

/-- The types of a file that is read are numbered from zero in the order of the source. -/
theorem SourceTree.map_ordinal_of_parse {path source : String} {tree : SourceTree}
    (h : SourceTree.parse path source = .ok tree) :
    tree.types.map (·.ordinal) = List.range tree.types.length := by
  obtain ⟨tokens, b, -, -, hreads, hfile⟩ := SourceFile.exists_reads_of_parse (file_of_parse h)
  rw [SourceTree.types, hfile, List.range_eq_range']
  exact hreads.map_ordinal.1

/-- Trees that are read together are read one by one. -/
theorem forall₂_of_parseAll {sources : List (String × String)} {trees : List SourceTree}
    (h : parseAll sources = .ok trees) :
    List.Forall₂ (fun s tree ↦ SourceTree.parse s.1 s.2 = .ok tree) sources trees :=
  mapM_eq_ok_iff.1 h

/-- Trees that are read one by one are read together. -/
theorem parseAll_of_forall₂ {sources : List (String × String)} {trees : List SourceTree}
    (h : List.Forall₂ (fun s tree ↦ SourceTree.parse s.1 s.2 = .ok tree) sources trees) :
    parseAll sources = .ok trees := mapM_eq_ok_iff.2 h

theorem map_ordinal_of_parseAll {sources : List (String × String)} {trees : List SourceTree}
    (h : parseAll sources = .ok trees) :
    ∀ tree ∈ trees, tree.types.map (·.ordinal) = List.range tree.types.length := by
  intro tree htree
  obtain ⟨s, -, hread⟩ := exists_of_mem_right (forall₂_of_parseAll h) htree
  exact SourceTree.map_ordinal_of_parse hread

/-- The ordinals of a file tell its types apart. -/
theorem nodup_ordinal_of_parseAll {sources : List (String × String)} {trees : List SourceTree}
    (h : parseAll sources = .ok trees) :
    ∀ tree ∈ trees, (tree.types.map (·.ordinal)).Nodup := by
  intro tree htree
  rw [map_ordinal_of_parseAll h tree htree]
  exact List.nodup_range

end DoubleDispatch
