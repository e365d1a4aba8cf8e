import DoubleDispatch.Proofs.Parsing.RelabelHeader

/-!
# Bodies in tokens that are relabelled

A body in tokens that are relabelled holds the same directives and members, relabelled. The name of
a namespace is joined from identifiers, and each of these is renamed, so members are related rather
than mapped.
-/

namespace DoubleDispatch

/-! ### Members and results -/

/-- Dotted names of which the second is joined from the renamed identifiers of the first. -/
def Relabeling.Renames (φ : Relabeling) (name name' : String) : Prop :=
  ∃ names, name = ".".intercalate names ∧ name' = ".".intercalate (names.map φ.rename)

mutual

/-- A member and what becomes of it. -/
def Member.Relabels (φ : Relabeling) : Member → Member → Prop
  | .type d, .type d' => d' = d.relabel φ
  | .scope name fileScoped usings members span, .scope name' fileScoped' usings' members' span' =>
    φ.Renames name name' ∧ fileScoped' = fileScoped ∧ usings' = usings.map (.relabel φ) ∧
      membersRelabel φ members members' ∧ span' = φ.span span
  | _, _ => False

/-- Members and what becomes of them, one by one. -/
def membersRelabel (φ : Relabeling) : List Member → List Member → Prop
  | [], [] => True
  | m :: ms, m' :: ms' => m.Relabels φ m' ∧ membersRelabel φ ms ms'
  | _, _ => False

end

/-- A result and what becomes of it: a failure stays one, with its offsets moved and its names
renamed. -/
def Relabeling.Relates (φ : Relabeling) {α β : Type} (R : α → β → Prop) :
    Except ParseError α → Except ParseError β → Prop
  | .ok a, .ok b => R a b
  | .error e, .error e' => e' = φ.error e
  | _, _ => False

namespace Relabeling.Relates

variable {φ : Relabeling} {α α' β β' : Type} {R : α → α' → Prop} {S : β → β' → Prop}

/-- A parser for which there is an equation is related to its relabelling. -/
theorem of_eq {f : α → α'} {x : Except ParseError α} {x' : Except ParseError α'}
    (h : x' = φ.result f x) (hR : ∀ a, x = .ok a → R a (f a)) : φ.Relates R x x' := by
  subst h
  cases x with
  | error e => rfl
  | ok a => exact hR a rfl

/-- Parsers in sequence are related if those that go on are, from results that are. -/
theorem bind {x : Except ParseError α} {x' : Except ParseError α'}
    {f : α → Except ParseError β} {f' : α' → Except ParseError β'} (h : φ.Relates R x x')
    (hf : ∀ a a', x = .ok a → R a a' → φ.Relates S (f a) (f' a')) :
    φ.Relates S (x >>= f) (x' >>= f') := by
  cases x <;> cases x'
  · exact h
  · exact h.elim
  · exact h.elim
  · exact hf _ _ rfl h

/-- If the first of two related parsers succeeds, so does the other. -/
theorem exists_right {x' : Except ParseError α'} {a : α} (h : φ.Relates R (.ok a) x') :
    ∃ a', x' = .ok a' ∧ R a a' := by
  cases x' with
  | error e => exact h.elim
  | ok a' => exact ⟨a', rfl, h⟩

/-- If the second of two related parsers succeeds, so does the first. -/
theorem exists_left {x : Except ParseError α} {a' : α'} (h : φ.Relates R x (.ok a')) :
    ∃ a, x = .ok a ∧ R a a' := by
  cases x with
  | error e => exact h.elim
  | ok a => exact ⟨a, rfl, h⟩

end Relabeling.Relates

namespace Stream

variable {φ : Relabeling} {source : List Char}

/-! ### Using directives -/

theorem eatWord_relabel (s : Stream) {word : String} (h : word ∈ parserWords) :
    (φ.stream s).eatWord word = φ.stream (s.eatWord word) :=
  Relabeling.eat_stream s (Relabeling.kind_eq_word_iff h)

/-- An alias is renamed, and what else a directive brings into scope stays. -/
theorem usingKind_relabel (isStatic : Bool) (s : Stream) :
    usingKind isStatic (φ.stream s) = φ.parsed (.relabel φ) (usingKind isStatic s) := by
  have hneither : ∀ s : Stream, (φ.parsed (.relabel φ)
      ⟨if isStatic then UsingKind.staticMembers else .types, s⟩) =
        ⟨if isStatic then UsingKind.staticMembers else .types, φ.stream s⟩ := by
    cases isStatic <;> intro s <;> rfl
  unfold usingKind
  rw [Relabeling.kind_stream, Relabeling.name?_kind, Relabeling.secondKind_stream]
  cases s.kind.name? with
  | none => exact (hneither s).symm
  | some name =>
    cases s.secondKind with
    | equals =>
      dsimp only [Option.map_some, Relabeling.kind]
      rw [Relabeling.advance_stream, Relabeling.advance_stream]
      rfl
    | _ => exact (hneither s).symm

/-- The target of a directive is read with the same text. -/
theorem usingTarget?_relabel (isGlobal : Bool) (start : Nat) (s : Stream) :
    (φ.stream s).usingTarget? (φ.before ++ source) isGlobal (φ.offset start) =
      (s.usingTarget? source isGlobal start).map (φ.parsed (.relabel φ)) := by
  simp only [usingTarget?]
  rw [Relabeling.isWord_stream s (by decide), eatWord_relabel s (by decide),
    eatWord_relabel _ (by decide), usingKind_relabel, Relabeling.parsed_rest, typeName?_relabel]
  cases (usingKind (s.kind.isWord "static")
      ((s.eatWord "static").eatWord "unsafe")).rest.typeName? source with
  | none => rfl
  | some target =>
    dsimp only [Option.map_some]
    rw [Relabeling.parsed_rest, if_congr (φ.kind_stream_eq_iff target.rest rfl) rfl rfl,
      Relabeling.advance_stream]
    split <;> rfl

/-- **A directive is read alike.** -/
theorem using?_relabel (s : Stream) :
    (φ.stream s).using? (φ.before ++ source) =
      (s.using? source).map (φ.parsed (.relabel φ)) := by
  rw [using?, using?, Relabeling.isWord_stream s (by decide),
    Relabeling.isWord_stream s (by decide), Relabeling.secondKind_stream,
    Relabeling.isWord_kind (by decide), Relabeling.start_stream, Relabeling.advance_stream,
    Relabeling.advance_stream, usingTarget?_relabel, usingTarget?_relabel]
  split
  · rfl
  · split <;> rfl

/-! ### Items and namespaces -/

/-- An item that is skipped ends at the same token. -/
theorem skipItem_relabel (s : Stream) :
    (φ.stream s).skipItem = φ.result φ.stream s.skipItem := by
  rw [skipItem, skipItem, Relabeling.kind_stream, Relabeling.closer?_kind,
    Relabeling.isCloser_kind, skipGroup_relabel, Relabeling.advance_stream]
  split
  · rfl
  · split
    · exact congrArg Except.error (Relabeling.unexpected_stream s .declaration)
    · rfl

theorem endsBody_relabel (braced : Bool) (s : Stream) :
    (φ.stream s).endsBody braced = s.endsBody braced := by
  rw [endsBody, endsBody, Relabeling.kind_stream, Relabeling.beq_kind rfl, Relabeling.beq_kind rfl]

/-- Behind the content of a namespace the parser goes on at the same token. -/
theorem behindBody_relabel (fileScoped : Bool) (s : Stream) :
    (φ.stream s).behindBody fileScoped = φ.stream (s.behindBody fileScoped) := by
  rw [behindBody, behindBody, Relabeling.advance_stream,
    Relabeling.eat_stream _ (Relabeling.kind_eq_iff rfl)]
  exact (apply_ite φ.stream _ _ _).symm

/-- A dotted name is read with its identifiers renamed. -/
theorem dottedName_relabel (s : Stream) :
    φ.Relates (fun name name' ↦ φ.Renames name.value name'.value ∧ name'.rest = φ.stream name.rest)
      s.dottedName (φ.stream s).dottedName := by
  refine .bind (.of_eq (identifiers_relabel s.prevEnd s.ahead) fun names _ ↦ rfl) ?_
  rintro names _ - rfl
  exact ⟨⟨names.value, rfl, rfl⟩, rfl⟩

/-- The header of a namespace has the renamed name and the same form. -/
theorem namespaceHeader_relabel (s : Stream) :
    φ.Relates (fun header header' ↦ φ.Renames header.value.1 header'.value.1 ∧
        header'.value.2 = header.value.2 ∧ header'.rest = φ.stream header.rest)
      s.namespaceHeader (φ.stream s).namespaceHeader := by
  have hname := dottedName_relabel (φ := φ) s
  rw [namespaceHeader, namespaceHeader]
  cases hs : s.dottedName <;> cases hs' : (φ.stream s).dottedName <;> rw [hs, hs'] at hname
  · exact hname
  · exact hname.elim
  · exact hname.elim
  next name name' =>
    obtain ⟨hrenames, hrest⟩ := hname
    dsimp only
    rw [hrest, Relabeling.kind_stream, Relabeling.advance_stream]
    cases name.rest.kind with
    | semicolon => exact ⟨hrenames, rfl, rfl⟩
    | openBrace => exact ⟨hrenames, rfl, rfl⟩
    | _ => exact Relabeling.unexpected_stream name.rest .namespaceBody

/-! ### Bodies -/

/-- A body and what becomes of it. -/
structure Body.Relabels (φ : Relabeling) (b b' : Body) : Prop where
  usings : b'.usings = b.usings.map (.relabel φ)
  members : membersRelabel φ b.members b'.members
  ordinal : b'.ordinal = b.ordinal + φ.ordinals
  rest : b'.rest = φ.stream b.rest

/-- What becomes of the bodies that start at a stream, or of the errors that they give. -/
def BodyRelabels (φ : Relabeling) (source : List Char) (s : Stream) : Prop :=
  ∀ braced ordinal, φ.Relates (Body.Relabels φ) (bodyOf source braced ordinal s)
    (bodyOf (φ.before ++ source) braced (ordinal + φ.ordinals) (φ.stream s))

section Items

variable {braced : Bool} {ordinal : Nat} {s : Stream}

/-- A body that starts with a namespace is read alike, if shorter ones are. -/
theorem bodyFromNamespace_relabel (ih : ∀ t, t.size < s.size → BodyRelabels φ source t) :
    φ.Relates (Body.Relabels φ) (bodyFromNamespace source braced ordinal s)
      (bodyFromNamespace (φ.before ++ source) braced (ordinal + φ.ordinals) (φ.stream s)) := by
  rw [bodyFromNamespace, bodyFromNamespace, Relabeling.advance_stream]
  refine .bind (namespaceHeader_relabel s.advance) ?_
  rintro header header' hheader ⟨hrenames, hscoped, hrest⟩
  have hsize : header.rest.size < s.size :=
    Nat.lt_of_lt_of_le (size_namespaceHeader_lt hheader) s.size_advance_le
  rw [hscoped, hrest]
  refine .bind (ih header.rest hsize _ ordinal) ?_
  rintro content content' hcontent hrelabels
  have hsize' : (content.rest.behindBody header.value.2).size < s.size :=
    Nat.lt_of_le_of_lt (Nat.le_trans (size_behindBody_le _ _) (size_bodyOf_le hcontent)) hsize
  rw [hrelabels.ordinal, hrelabels.rest, behindBody_relabel]
  refine .bind (ih _ hsize' braced content.ordinal) ?_
  rintro later later' - hlater
  refine ⟨hlater.usings, ⟨⟨hrenames, hscoped, hrelabels.usings, hrelabels.members, ?_⟩,
    hlater.members⟩, hlater.ordinal, hlater.rest⟩
  rw [Relabeling.start_stream, hrelabels.rest, hscoped, behindBody_relabel]
  rfl

/-- A body that starts with a type is read alike, if shorter ones are: its ordinals count on from
the others. -/
theorem bodyFromType_relabel (hend : s.kind ≠ .endOfFile)
    (ih : ∀ t, t.size < s.size → BodyRelabels φ source t) :
    φ.Relates (Body.Relabels φ) (bodyFromType source braced ordinal s)
      (bodyFromType (φ.before ++ source) braced (ordinal + φ.ordinals) (φ.stream s)) := by
  rw [bodyFromType, bodyFromType, typeDeclaration?_relabel]
  cases hdeclaration : s.typeDeclaration? source ordinal with
  | error e => rfl
  | ok declaration? =>
    cases declaration? with
    | some declaration =>
      have hlater :=
        ih declaration.rest (size_typeDeclaration?_lt hdeclaration) braced (ordinal + 1)
      rw [Nat.add_right_comm] at hlater
      refine .bind hlater ?_
      rintro later later' - hlater
      exact ⟨hlater.usings, ⟨rfl, hlater.members⟩, hlater.ordinal, hlater.rest⟩
    | none =>
      refine .bind (.of_eq (skipItem_relabel s) fun next _ ↦ rfl) ?_
      rintro next _ hnext rfl
      exact ih next (size_skipItem_lt hend hnext) braced ordinal

end Items

/-- **What becomes of a body** whose tokens are relabelled, or of the error that it gives. -/
theorem bodyOf_relabel (s : Stream) : BodyRelabels φ source s := by
  induction hn : s.size using Nat.strongRecOn generalizing s with
  | ind n ih =>
    subst hn
    have ih (t : Stream) (hlt : t.size < s.size) : BodyRelabels φ source t := ih t.size hlt t rfl
    intro braced ordinal
    -- Both sides look at the same kinds and words, so they go on with the same item.
    rw [bodyOf_eq braced ordinal s, bodyOf_eq _ _ (φ.stream s), endsBody_relabel,
      if_congr (φ.kind_stream_eq_iff s rfl) rfl rfl, using?_relabel,
      Relabeling.isWord_stream s (by decide)]
    split
    · exact ⟨rfl, trivial, rfl, rfl⟩
    split
    · exact Relabeling.unexpected_stream s (.token .closeBrace)
    next hend =>
      cases husing : s.using? source with
      | some directive =>
        refine .bind (ih directive.rest (size_using?_lt husing) braced ordinal) ?_
        rintro later later' - hlater
        exact ⟨congrArg (_ :: ·) hlater.usings, hlater.members, hlater.ordinal, hlater.rest⟩
      | none =>
        dsimp only [Option.map_none]
        split
        · exact bodyFromNamespace_relabel ih
        · exact bodyFromType_relabel hend ih

end Stream

end DoubleDispatch
