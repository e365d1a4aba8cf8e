import DoubleDispatch.Proofs.Declaration.Shape
import DoubleDispatch.Proofs.Parsing.PairedBody
import DoubleDispatch.Proofs.Parsing.RelabelBody
import DoubleDispatch.Proofs.Parsing.Renaming

/-!
# Verbatim identifiers

A verbatim identifier such as `@item` is held without its `@`. So for the parser it is the word
behind the `@`, and if that is none of the words that it gives a meaning to, any other such
identifier may stand in its place: as long as the same text stands between the tokens, one source is
read exactly if the other is, with files of the same shape.

Both sources are compared where each identifier that is no such word has the same name
(`Relabeling.nameless`). They are not asked where a word stands. Where the parser takes any
identifier, one that is such a word may be replaced as well: as the name of a type
(`SourceFile.shape_parse_of_isNamed`), and in its body, where no word has a meaning
(`SourceFile.exists_parse_of_isBody`).
-/

namespace DoubleDispatch

open Text (byteLength IsBoundary)

/-! ### Copies of a source -/

/-- Whether a token is an identifier that is written with an `@`. -/
def Token.IsVerbatim (source : List Char) (t : Token) : Prop :=
  t.kind.name?.isSome ∧ (Text.slice t.span.start t.span.stop source).head? = some '@'

instance (source : List Char) : DecidablePred (Token.IsVerbatim source) := fun t ↦
  inferInstanceAs (Decidable (t.kind.name?.isSome ∧ _))

/-- What may stand for a token of a source in a copy. A token that is no verbatim identifier stays
what it is. A verbatim identifier becomes the word behind its `@` if the parser gives a meaning to
that word, and otherwise any identifier to which it gives none. -/
inductive Token.MayBecome (source : List Char) (t t' : Token) : Prop
  | other (plain : ¬t.IsVerbatim source) (kind : t'.kind = t.kind)
  | word {word : String} (verbatim : t.IsVerbatim source) (kind : t.kind = .identifier word)
    (isWord : word ∈ parserWords) (kind' : t'.kind = .identifier word)
  | name {name name' : String} (verbatim : t.IsVerbatim source) (kind : t.kind = .identifier name)
    (noWord : name ∉ parserWords) (kind' : t'.kind = .identifier name')
    (noWord' : name' ∉ parserWords)

/-- The tokens of a source and those of a copy, from offsets on: the same text stands before each
of them. -/
inductive IsCopy (source source' : List Char) : Nat → Nat → List Token → List Token → Prop
  | nil {n n' : Nat} : IsCopy source source' n n' [] []
  | cons {n n' : Nat} {t t' : Token} {ts ts' : List Token}
    (gap : Text.slice n' t'.span.start source' = Text.slice n t.span.start source)
    (token : t.MayBecome source t')
    (later : IsCopy source source' t.span.stop t'.span.stop ts ts') :
    IsCopy source source' n n' (t :: ts) (t' :: ts')

/-! ### Names that are all the same -/

/-- Each identifier that is none of the words that the parser gives a meaning to has the same
name. -/
def Relabeling.nameless : Relabeling where
  before := []
  ordinals := 0
  rename name := if name ∈ parserWords then name else "x"
  keeps := fun _ h ↦ if_pos h
  avoids := fun name h ↦ Classical.byContradiction fun hname ↦ by
    rw [if_neg hname] at h
    exact absurd h (by decide)

/-- Without the names of identifiers a token and what it may become are of one kind. -/
theorem Token.MayBecome.kind_nameless {source : List Char} {t t' : Token}
    (h : t.MayBecome source t') :
    Relabeling.nameless.kind t'.kind = Relabeling.nameless.kind t.kind := by
  cases h with
  | other _ kind => rw [kind]
  | word _ kind _ kind' => rw [kind, kind']
  | name _ kind noWord kind' noWord' =>
    rw [kind, kind']
    exact congrArg TokenKind.identifier ((if_neg noWord').trans (if_neg noWord).symm)

section Shapes

variable {φ : Relabeling}

theorem shape_relabel_section (s : AttributeSection) : (s.relabel φ).shape = s.shape := by
  rw [AttributeSection.shape, AttributeSection.relabel]
  dsimp only
  rw [Option.map_map, List.map_map]
  rfl

theorem shape_relabel_usings (us : List UsingDirective) :
    (us.map (.relabel φ)).map UsingDirective.shape = us.map UsingDirective.shape := by
  rw [List.map_map]
  refine List.map_congr_left fun u _ ↦ ?_
  obtain ⟨kind, target, isGlobal, span⟩ := u
  cases kind <;> rfl

/-- A relabelling that keeps the ordinals keeps the shape of a declaration. -/
theorem shape_relabel_declaration (hφ : φ.ordinals = 0) (d : TypeDeclaration) :
    (d.relabel φ).shape = d.shape := by
  rw [TypeDeclaration.shape, TypeDeclaration.relabel]
  dsimp only
  rw [hφ, List.map_map, List.map_map, List.map_map,
    funext (f := AttributeSection.shape ∘ _) shape_relabel_section]
  rfl

mutual

/-- Members that relabel one another have one shape. -/
theorem Member.Relabels.shape (hφ : φ.ordinals = 0) {m m' : Member} (h : m.Relabels φ m') :
    m'.shape = m.shape :=
  match m, m', h with
  | .type d, .type _, hd => by
    rw [show _ = d.relabel φ from hd, Member.shape, Member.shape, shape_relabel_declaration hφ]
  | .scope .., .scope .., ⟨_, hscoped, husings, hmembers, _⟩ => by
    rw [Member.shape, Member.shape, hscoped, husings, shape_relabel_usings,
      shapes_of_membersRelabel hφ hmembers]

theorem shapes_of_membersRelabel (hφ : φ.ordinals = 0) {ms ms' : List Member}
    (h : membersRelabel φ ms ms') : shapes ms' = shapes ms :=
  match ms, ms', h with
  | [], [], _ => rfl
  | _ :: _, _ :: _, ⟨hm, hms⟩ => by
    rw [shapes, shapes, hm.shape hφ, shapes_of_membersRelabel hφ hms]

end

end Shapes

/-! ### Offsets in step -/

/-- The offsets at which the tokens of two sources start and stop, pair by pair. -/
def pairedOffsets : List Token → List Token → List (Nat × Nat)
  | t :: ts, t' :: ts' =>
    (t.span.start, t'.span.start) :: (t.span.stop, t'.span.stop) :: pairedOffsets ts ts'
  | _, _ => []

/-- The second pair is not before the first one on either side, and behind it on both or on none. -/
def InStep (p q : Nat × Nat) : Prop := p.1 ≤ q.1 ∧ p.2 ≤ q.2 ∧ (p.1 < q.1 ↔ p.2 < q.2)

/-- Offsets in step with the next are in step with all that follow. -/
theorem InStep.pairwise_cons {p q : Nat × Nat} {offsets : List (Nat × Nat)} (h : InStep p q)
    (hq : (q :: offsets).Pairwise InStep) : (p :: q :: offsets).Pairwise InStep := by
  refine hq.cons fun r hr ↦ ?_
  rcases List.mem_cons.1 hr with rfl | hr
  · exact h
  · obtain ⟨hle, hle', hiff⟩ := h
    obtain ⟨hle₁, hle₁', hiff₁⟩ := List.rel_of_pairwise_cons hq hr
    refine ⟨by omega, by omega, by omega⟩

/-- Pairs of offsets that are in step have the same order on both sides. -/
theorem lt_iff_of_pairwise_inStep {offsets : List (Nat × Nat)} (h : offsets.Pairwise InStep)
    {n n' m m' : Nat} (hn : (n, n') ∈ offsets) (hm : (m, m') ∈ offsets) : n' < m' ↔ n < m := by
  have hbehind : offsets.Pairwise fun p q ↦ p.2 < q.2 ↔ p.1 < q.1 := h.imp fun hpq ↦ hpq.2.2.symm
  have hbefore : offsets.Pairwise fun p q ↦ q.2 < p.2 ↔ q.1 < p.1 := h.imp fun hpq ↦
    iff_of_false (Nat.not_lt.2 hpq.2.1) (Nat.not_lt.2 hpq.1)
  exact List.Pairwise.forall_of_forall_of_flip (fun p _ ↦ by simp) hbehind hbefore hn hm

/-- The ends of gaps with the same text are in step. -/
theorem inStep_of_slice_eq {s s' : List Char} {n n' m m' : Nat} (hn : IsBoundary s n)
    (hn' : IsBoundary s' n') (hm : IsBoundary s m) (hm' : IsBoundary s' m') (hle : n ≤ m)
    (hle' : n' ≤ m') (h : Text.slice n' m' s' = Text.slice n m s) : InStep (n, n') (m, m') := by
  have hlength := congrArg byteLength h
  rw [Text.byteLength_slice hn hm hle, Text.byteLength_slice hn' hm' hle'] at hlength
  exact ⟨hle, hle', by omega⟩

theorem Token.MayBecome.kind_eq_endOfFile_iff {source : List Char} {t t' : Token}
    (h : t.MayBecome source t') : t'.kind = .endOfFile ↔ t.kind = .endOfFile := by
  cases h with
  | other _ kind => rw [kind]
  | word _ kind _ kind' => rw [kind, kind']
  | name _ kind _ kind' _ =>
    rw [kind, kind']
    exact iff_of_false (by nofun) (by nofun)

/-- The tokens of a copy stand in step with those of the source. -/
theorem IsCopy.pairwise_inStep {source source' : List Char} {n n' : Nat} {ts ts' : List Token}
    (h : IsCopy source source' n n' ts ts') (hts : TokensFrom source n ts)
    (hts' : TokensFrom source' n' ts') (hn : IsBoundary source n) (hn' : IsBoundary source' n') :
    ((n, n') :: pairedOffsets ts ts').Pairwise InStep := by
  induction h with
  | nil => exact List.pairwise_singleton _ _
  | @cons n n' t t' ts ts' gap token later ih =>
    have hkind := token.kind_eq_endOfFile_iff
    cases hts with
    | endOfFile start =>
      cases hts' with
      | cons kind' => exact absurd (hkind.2 rfl) kind'
      | endOfFile start' =>
        have hgap := inStep_of_slice_eq hn hn' (.byteLength source) (.byteLength source') start
          start' gap
        exact hgap.pairwise_cons (InStep.pairwise_cons ⟨Nat.le_refl _, Nat.le_refl _,
          iff_of_false (Nat.lt_irrefl _) (Nat.lt_irrefl _)⟩ (List.pairwise_singleton _ _))
    | cons kind start stands htokens =>
      cases hts' with
      | endOfFile => exact absurd (hkind.1 rfl) kind
      | cons _ start' stands' htokens' =>
        have hgap := inStep_of_slice_eq hn hn' stands.fits.start stands'.fits.start start start' gap
        have hlater := ih htokens htokens' stands.fits.stop stands'.fits.stop
        exact hgap.pairwise_cons (InStep.pairwise_cons ⟨Nat.le_of_lt stands.lt,
          Nat.le_of_lt stands'.lt, iff_of_true stands.lt stands'.lt⟩ hlater)

/-! ### Both sources side by side -/

/-- A source and a copy of it as wholes, with the offsets at which their tokens start and stop. -/
def Pairing.copy (source source' : List Char) (offsets : List (Nat × Nat)) : Pairing where
  left := source
  right := source'
  leftTail := []
  rightTail := []
  Meet n n' := (n, n') ∈ offsets
  IsExact := False
  IsOrdered := offsets.Pairwise InStep
  slice_eq := False.elim
  lt_iff hordered _ _ _ _ hn hm := lt_iff_of_pairwise_inStep hordered hn hm

/-- The tokens of a copy, without their names, meet those of the original one by one. -/
theorem IsCopy.forall₂_meets {source source' : List Char} {n n' : Nat} {ts ts' : List Token}
    (h : IsCopy source source' n n' ts ts') {offsets : List (Nat × Nat)}
    (hoffsets : pairedOffsets ts ts' ⊆ offsets) :
    List.Forall₂ (Pairing.copy source source' offsets).Meets
      (ts.map Relabeling.nameless.token) (ts'.map Relabeling.nameless.token) := by
  induction h with
  | nil => exact .nil
  | cons gap token later ih =>
    obtain ⟨hstart, hoffsets⟩ := List.cons_subset.1 hoffsets
    obtain ⟨hstop, hoffsets⟩ := List.cons_subset.1 hoffsets
    exact .cons ⟨token.kind_nameless, hstart, hstop⟩ (ih hoffsets)

/-- If tokens stand side by side once their names are all the same, then one source is read if the
other is, with a file of the same shape. -/
theorem SourceFile.exists_parse_of_beside {P : Pairing} {source source' : String}
    {tokens tokens' : List Token} {file : SourceFile} (hleft : P.left = source.toList)
    (hright : P.right = source'.toList) (htails : P.leftTail = [] ∧ P.rightTail = [])
    (hordered : P.IsOrdered) (htokens : tokenize source = .ok tokens)
    (htokens' : tokenize source' = .ok tokens')
    (hbeside : P.Beside (Relabeling.nameless.stream ⟨tokens, 0⟩)
      (Relabeling.nameless.stream ⟨tokens', 0⟩))
    (h : SourceFile.parse source = .ok file) :
    ∃ file', SourceFile.parse source' = .ok file' ∧ file'.shape = file.shape := by
  rw [parse_of_tokenize htokens] at h
  obtain ⟨b, hb, rfl⟩ := Lexer.eq_ok_of_map_eq_ok h
  have hrelates (source : String) (tokens : List Token) :
      Relabeling.nameless.Relates (Stream.Body.Relabels .nameless)
        (Stream.bodyOf source.toList false 0 ⟨tokens, 0⟩)
        (Stream.bodyOf source.toList false 0 (Relabeling.nameless.stream ⟨tokens, 0⟩)) :=
    Stream.bodyOf_relabel ⟨tokens, 0⟩ false 0
  -- From the source to its nameless tokens, to those of the other source, and to that source.
  have hsource := hrelates source tokens
  rw [hb] at hsource
  obtain ⟨b₁, hb₁, hrelabels⟩ := hsource.exists_right
  rw [← hleft] at hb₁
  obtain ⟨b₂, hb₂, halike, -⟩ :=
    (hbeside.reads (Stream.bodyOf_eq_ok_iff.1 hb₁) (.inl htails)).exists_eq_ok hordered
  have hsource' := hrelates source' tokens'
  rw [← hright, hb₂] at hsource'
  obtain ⟨b', hb', hrelabels'⟩ := hsource'.exists_left
  rw [hright] at hb'
  refine ⟨⟨b'.usings, b'.members⟩, ?_, ?_⟩
  · rw [parse_of_tokenize htokens', hb']
    rfl
  · have husings : b₂.usings.map UsingDirective.shape = b₁.usings.map UsingDirective.shape :=
      shape_of_usingsMatch halike.matches.usings
    have hmembers : shapes b₂.members = shapes b₁.members :=
      shapes_of_membersMatch halike.matches.members
    rw [hrelabels.usings, hrelabels'.usings, shape_relabel_usings, shape_relabel_usings] at husings
    rw [shapes_of_membersRelabel rfl hrelabels.members,
      shapes_of_membersRelabel rfl hrelabels'.members] at hmembers
    exact congrArg₂ SourceFile.mk husings hmembers

/-- **Verbatim identifiers may be replaced** by any identifiers to which the parser gives no
meaning, unless it gives one to the word behind the `@`: then they count as that word. A source is
read exactly if a copy of it is, and their files have the same shape: directives, namespaces and
types in the same order and nesting, with the same kinds and modifiers and the same numbers of type
parameters, attributes and base entries. -/
theorem SourceFile.shape_parse_of_isCopy {source source' : String} {tokens tokens' : List Token}
    (htokens : tokenize source = .ok tokens) (htokens' : tokenize source' = .ok tokens')
    (hcopy : IsCopy source.toList source'.toList 0 0 tokens tokens') :
    ((∃ file', SourceFile.parse source' = .ok file') ↔ ∃ file, SourceFile.parse source = .ok file) ∧
      ∀ file file', SourceFile.parse source = .ok file → SourceFile.parse source' = .ok file' →
        file'.shape = file.shape := by
  let P := Pairing.copy source.toList source'.toList (pairedOffsets tokens tokens')
  have hordered : P.IsOrdered :=
    (hcopy.pairwise_inStep (tokensFrom_of_tokenize htokens) (tokensFrom_of_tokenize htokens')
      (.zero _) (.zero _)).of_cons
  have hbeside : P.Beside (Relabeling.nameless.stream ⟨tokens, 0⟩)
      (Relabeling.nameless.stream ⟨tokens', 0⟩) :=
    ⟨_, _, (List.append_nil _).symm, (List.append_nil _).symm,
      hcopy.forall₂_meets (List.Subset.refl _)⟩
  have hforth (file : SourceFile) (h : parse source = .ok file) :
      ∃ file', parse source' = .ok file' ∧ file'.shape = file.shape :=
    exists_parse_of_beside rfl rfl ⟨rfl, rfl⟩ hordered htokens htokens' hbeside h
  have hback (file' : SourceFile) (h : parse source' = .ok file') :
      ∃ file, parse source = .ok file ∧ file.shape = file'.shape :=
    exists_parse_of_beside (P := P.swap) rfl rfl ⟨rfl, rfl⟩ hordered htokens' htokens hbeside.swap h
  refine ⟨⟨fun ⟨file', h⟩ ↦ ?_, fun ⟨file, h⟩ ↦ ?_⟩, fun file file' h h' ↦ ?_⟩
  · obtain ⟨file, hfile, -⟩ := hback file' h
    exact ⟨file, hfile⟩
  · obtain ⟨file', hfile', -⟩ := hforth file h
    exact ⟨file', hfile'⟩
  · obtain ⟨file₁, hfile₁, hshape⟩ := hforth file h
    rwa [Except.ok.inj (h'.symm.trans hfile₁)]

/-- **A verbatim identifier that names a type** may be replaced by any identifier, whatever word
stands behind the `@`, and the file has the same shape. -/
theorem SourceFile.shape_parse_of_isNamed {R : Replacement} {name name' : String}
    {front back back' before : List Token} (h : R.ReplacesName name name' front back back')
    {file : SourceFile} (hfile : SourceFile.parse (String.ofList R.source) = .ok file)
    {d : TypeDeclaration}
    (hd : IsNamed R.source (front ++ R.oldName name :: back) d before (R.oldName name :: back))
    (hends : before = [] ∨ EndsItem before)
    (hrecord : d.kind = .recordType → name' ≠ "struct" ∧ name' ≠ "class") :
    ∃ file', SourceFile.parse (String.ofList R.changed) = .ok file' ∧ file'.shape = file.shape := by
  obtain ⟨file', hfile', hrenames⟩ := exists_parse_of_renames h hfile hd hends hrecord
  exact ⟨file', hfile', hrenames.shape_eq⟩

/-- The word behind the `@` declares no class where it names one. -/
example : (SourceFile.parse "class @class { }").toOption.map (·.types.map (·.name)) =
    some ["class"] := by
  decide +kernel

/-- A verbatim identifier with a word behind its `@` that declares a class, and one with a name. -/
def verbatimSample : String := "@class @b;"

theorem verbatimSample_isCopy : IsCopy verbatimSample.toList "class name;".toList 0 0
    [⟨.identifier "class", ⟨0, 6⟩⟩, ⟨.identifier "b", ⟨7, 9⟩⟩, ⟨.semicolon, ⟨9, 10⟩⟩,
      ⟨.endOfFile, ⟨10, 10⟩⟩]
    [⟨.identifier "class", ⟨0, 5⟩⟩, ⟨.identifier "name", ⟨6, 10⟩⟩, ⟨.semicolon, ⟨10, 11⟩⟩,
      ⟨.endOfFile, ⟨11, 11⟩⟩] :=
  .cons (by decide) (.word (by decide) rfl (by decide) rfl) <|
    .cons (by decide) (.name (by decide) rfl (by decide) rfl (by decide)) <|
      .cons (by decide) (.other (by decide) rfl) <|
        .cons (by decide) (.other (by decide) rfl) .nil

/-- The copy declares a class as the source does. -/
theorem SourceFile.shape_parse_of_isCopy_verbatimSample :
    ∃ file file', SourceFile.parse verbatimSample = .ok file ∧
      SourceFile.parse "class name;" = .ok file' ∧ file.types.map (·.kind) = [.classType] ∧
      file'.shape = file.shape := by
  obtain ⟨file, hfile, hkinds⟩ : ∃ file ∈ (SourceFile.parse verbatimSample).toOption,
      file.types.map (·.kind) = [.classType] := by
    decide +kernel
  have hfile := eq_ok_of_toOption hfile
  obtain ⟨hiff, hshape⟩ := shape_parse_of_isCopy
    (eq_ok_of_toOption (by decide +kernel)) (eq_ok_of_toOption (by decide +kernel))
    verbatimSample_isCopy
  obtain ⟨file', hfile'⟩ := hiff.2 ⟨file, hfile⟩
  exact ⟨file, file', hfile, hfile', hkinds, hshape file file' hfile hfile'⟩

/-- Not every verbatim identifier may be replaced by any name: `@class` declares a class, and a name
in its place does not. Nor may a name stand where it runs on from what is before it. -/
theorem SourceFile.shape_parse_ne_of_replaced :
    Text.isIdentifier "x".toList ∧ "x" ∉ parserWords ∧
      (∃ tokens ∈ (tokenize ("@class" ++ " B { }")).toOption,
        tokens.filter (·.IsVerbatim ("@class" ++ " B { }").toList) =
          [⟨.identifier "class", ⟨0, 6⟩⟩]) ∧
      (∃ file file', SourceFile.parse ("@class" ++ " B { }") = .ok file ∧
        SourceFile.parse ("x" ++ " B { }") = .ok file' ∧ file'.shape ≠ file.shape) ∧
      (∃ tokens ∈ (tokenize ("class a" ++ "@b" ++ " { }")).toOption,
        tokens.filter (·.IsVerbatim ("class a" ++ "@b" ++ " { }").toList) =
          [⟨.identifier "b", ⟨7, 9⟩⟩]) ∧
      (¬∃ file, SourceFile.parse ("class a" ++ "@b" ++ " { }") = .ok file) ∧
      ∃ file, SourceFile.parse ("class a" ++ "x" ++ " { }") = .ok file := by
  obtain ⟨file, hfile, hone⟩ : ∃ file ∈ (SourceFile.parse ("@class" ++ " B { }")).toOption,
      file.shape.members.length = 1 := by
    decide +kernel
  obtain ⟨file', hfile', hnone⟩ : ∃ file ∈ (SourceFile.parse ("x" ++ " B { }")).toOption,
      file.shape.members.length = 0 := by
    decide +kernel
  have hfails : (SourceFile.parse ("class a" ++ "@b" ++ " { }")).isOk = false := by decide +kernel
  have hreads : (SourceFile.parse ("class a" ++ "x" ++ " { }")).isOk := by decide +kernel
  refine ⟨by decide, by decide, by decide +kernel, ⟨file, file', eq_ok_of_toOption hfile,
    eq_ok_of_toOption hfile', fun h ↦ ?_⟩, by decide +kernel, ?_, exists_eq_ok_of_isOk hreads⟩
  · rw [h, hone] at hnone
    exact absurd hnone (by decide)
  · rintro ⟨file, h⟩
    rw [h] at hfails
    cases hfails

end DoubleDispatch
