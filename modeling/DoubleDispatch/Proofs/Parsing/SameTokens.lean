import DoubleDispatch.Proofs.Parsing
import DoubleDispatch.Proofs.Parsing.Ordinals
import DoubleDispatch.Proofs.Parsing.PairedBody

/-!
# Sources with the same tokens

A parser looks at kinds of tokens, so two sources with the same kinds in the same order are read
alike, however they are laid out. Two things do not follow from the kinds: whether a base entry that
opens with a parenthesis stands behind a gap, where the parser ends, and how the names are written
that are kept as they are. So if one of the sources is read and the other comes to no such entry,
the other is read as well (`SourceTree.exists_parse_of_sameTokens`), and where both are read, their
trees match but for these names (`SourceTree.matches_of_sameTokens`).
-/

namespace DoubleDispatch

/-- Two sources have tokens of the same kinds in the same order. What stands between the tokens may
differ. -/
def SameTokens (source source' : String) : Prop :=
  ∃ tokens tokens', tokenize source = .ok tokens ∧ tokenize source' = .ok tokens' ∧
    kindsOf tokens = kindsOf tokens'

theorem SameTokens.of_kinds (kinds : List TokenKind) {source source' : String}
    (h : (tokenize source).toOption.map kindsOf = some kinds)
    (h' : (tokenize source').toOption.map kindsOf = some kinds) : SameTokens source source' := by
  obtain ⟨tokens, htokens, hkinds⟩ := Option.map_eq_some_iff.1 h
  obtain ⟨tokens', htokens', hkinds'⟩ := Option.map_eq_some_iff.1 h'
  exact ⟨tokens, tokens', eq_ok_of_toOption htokens, eq_ok_of_toOption htokens',
    hkinds.trans hkinds'.symm⟩

/-- A source has its own tokens. -/
theorem SameTokens.of_lexes {source : String} (h : (tokenize source).toOption.isSome) :
    SameTokens source source := by
  obtain ⟨tokens, htokens⟩ := Option.isSome_iff_exists.1 h
  exact ⟨tokens, tokens, eq_ok_of_toOption htokens, eq_ok_of_toOption htokens, rfl⟩

namespace Pairing

/-- Two whole sources. Nothing is known of the offsets of their tokens. -/
def whole (left right : List Char) : Pairing where
  left := left
  right := right
  leftTail := []
  rightTail := []
  Meet _ _ := True
  IsExact := False
  IsOrdered := False
  slice_eq := False.elim
  lt_iff := False.elim

theorem beside_whole (left right : List Char) {tokens tokens' : List Token}
    (h : kindsOf tokens = kindsOf tokens') :
    (whole left right).Beside ⟨tokens, 0⟩ ⟨tokens', 0⟩ := by
  refine ⟨tokens, tokens', (List.append_nil _).symm, (List.append_nil _).symm, ?_⟩
  have hkinds : List.Forall₂ Eq (tokens.map (·.kind)) (tokens'.map (·.kind)) := by
    rw [List.forall₂_eq_eq_eq]
    exact h
  rw [List.forall₂_map_left_iff, List.forall₂_map_right_iff] at hkinds
  exact hkinds.imp fun _ _ hkind ↦ ⟨hkind.symm, trivial, trivial⟩

variable {left right : List Char}

theorem names_whole_implies_free : (whole left right).names.Implies .free where
  usingTarget _ _ _ := trivial
  attributeName _ _ _ := trivial
  baseText _ _ _ := trivial

end Pairing

/-- Where one source is read, one with the same tokens is read with a file that matches, or it comes
to a base entry that opens behind a gap. -/
theorem SourceFile.parse_of_sameTokens {source source' : String} (h : SameTokens source source')
    {file : SourceFile} (hfile : SourceFile.parse source = .ok file) :
    (∃ file', SourceFile.parse source' = .ok file' ∧ file.Matches .free file') ∨
      ∃ span, SourceFile.parse source' = .error (.backwardEntry span) := by
  obtain ⟨tokens, b, htokens, -, hreads, rfl⟩ := exists_reads_of_parse hfile
  obtain ⟨tokens₁, tokens', htokens₁, htokens', hkinds⟩ := h
  obtain rfl : tokens = tokens₁ := Except.ok.inj (htokens.symm.trans htokens₁)
  have hbeside := Pairing.beside_whole source.toList source'.toList hkinds
  have hgives := hbeside.reads hreads (.inl ⟨rfl, rfl⟩)
  rw [parse_of_tokenize htokens']
  obtain ⟨b', hb', hlike, -⟩ | ⟨-, span, hspan⟩ := hgives
  · refine .inl ⟨⟨b'.usings, b'.members⟩, ?_, ?_⟩
    · exact congrArg (Functor.map _) hb'
    · exact Pairing.names_whole_implies_free.file ⟨hlike.matches.usings, hlike.matches.members⟩
  · exact .inr ⟨span, congrArg (Functor.map _) hspan⟩

namespace SourceTree

variable {path path' source source' : String} {tree tree' : SourceTree}

theorem parse_of_file {file : SourceFile} (h : SourceFile.parse source = .ok file) :
    SourceTree.parse path source = .ok ⟨path, source, file⟩ := by
  rw [SourceTree.parse, h]

/-- A source with the same tokens as one that is read is read as well, unless it comes to a base
entry that opens behind a gap. -/
theorem exists_parse_of_sameTokens (h : SameTokens source source')
    (htree : SourceTree.parse path source = .ok tree) (hgap : ¬ComesToGap source') :
    ∃ tree', SourceTree.parse path' source' = .ok tree' := by
  obtain ⟨file', hfile', -⟩ | ⟨span, hspan⟩ :=
    SourceFile.parse_of_sameTokens h (file_of_parse htree)
  · exact ⟨_, parse_of_file hfile'⟩
  · refine absurd ((parse_total path' source').2.1.1
      ⟨.ofOffset path' source' span.start, ?_⟩) hgap
    rw [SourceTree.parse, hspan]
    rfl

/-- The trees of sources with the same tokens match but for names that are kept as they are
written. -/
theorem matches_of_sameTokens (h : SameTokens source source')
    (htree : SourceTree.parse path source = .ok tree)
    (htree' : SourceTree.parse path' source' = .ok tree') :
    tree.file.Matches .free tree'.file := by
  obtain ⟨file', hfile', hmatches⟩ | ⟨span, hspan⟩ :=
    SourceFile.parse_of_sameTokens h (file_of_parse htree)
  · rw [parse_of_file hfile'] at htree'
    cases htree'
    exact hmatches
  · rw [SourceTree.parse, hspan] at htree'
    cases htree'

end SourceTree

/-! ### Lists of sources -/

/-- Where a list of sources is read, none of them comes to a base entry that opens behind a gap. -/
theorem not_comesToGap_of_parseAll {sources : List (String × String)} {trees : List SourceTree}
    (h : parseAll sources = .ok trees) : ∀ s ∈ sources, ¬SourceTree.ComesToGap s.2 := by
  intro s hs hgap
  obtain ⟨tree, -, htree⟩ := exists_of_mem_left (forall₂_of_parseAll h) hs
  obtain ⟨location, hlocation⟩ := SourceTree.parse_eq_backwardEntry_of_comesToGap hgap
  rw [htree] at hlocation
  cases hlocation

/-- If one of two lists of sources with the same tokens is read, so is the other, unless one of its
sources comes to a base entry that opens behind a gap. -/
theorem exists_parseAll_of_sameTokens {sources sources' : List (String × String)}
    (h : List.Forall₂ (fun s s' ↦ SameTokens s.2 s'.2) sources sources')
    {trees : List SourceTree} (htrees : parseAll sources = .ok trees)
    (hgap : ∀ s ∈ sources', ¬SourceTree.ComesToGap s.2) :
    ∃ trees', parseAll sources' = .ok trees' := by
  have hread := forall₂_of_parseAll htrees
  suffices ∃ trees', List.Forall₂ (fun s tree ↦ SourceTree.parse s.1 s.2 = .ok tree)
      sources' trees' by
    obtain ⟨trees', htrees'⟩ := this
    exact ⟨trees', parseAll_of_forall₂ htrees'⟩
  clear htrees
  induction h generalizing trees with
  | nil => exact ⟨[], .nil⟩
  | cons hsame _ ih =>
    obtain ⟨tree, later, hfirst, hlater, rfl⟩ := List.forall₂_cons_left_iff.1 hread
    obtain ⟨hfirstGap, hlaterGap⟩ := List.forall_mem_cons.1 hgap
    obtain ⟨tree', htree'⟩ := SourceTree.exists_parse_of_sameTokens hsame hfirst hfirstGap
    obtain ⟨later', hlater'⟩ := ih hlaterGap hlater
    exact ⟨tree' :: later', .cons htree' hlater'⟩

/-- Lists of sources with the same tokens give trees that match one by one but for names that are
kept as they are written. -/
theorem forall₂_matches_of_sameTokens {sources sources' : List (String × String)}
    (h : List.Forall₂ (fun s s' ↦ SameTokens s.2 s'.2) sources sources')
    {trees trees' : List SourceTree} (htrees : parseAll sources = .ok trees)
    (htrees' : parseAll sources' = .ok trees') :
    List.Forall₂ (fun tree tree' ↦ tree.file.Matches .free tree'.file) trees trees' := by
  have hread := forall₂_of_parseAll htrees
  have hread' := forall₂_of_parseAll htrees'
  clear htrees htrees'
  induction h generalizing trees trees' with
  | nil =>
    obtain rfl := List.forall₂_nil_left_iff.1 hread
    obtain rfl := List.forall₂_nil_left_iff.1 hread'
    exact .nil
  | cons hsame _ ih =>
    obtain ⟨tree, later, hfirst, hlater, rfl⟩ := List.forall₂_cons_left_iff.1 hread
    obtain ⟨tree', later', hfirst', hlater', rfl⟩ := List.forall₂_cons_left_iff.1 hread'
    exact .cons (SourceTree.matches_of_sameTokens hsame hfirst hfirst') (ih hlater hlater')

end DoubleDispatch
