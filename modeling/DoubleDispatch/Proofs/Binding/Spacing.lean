import DoubleDispatch.Proofs.Binding.Readings
import DoubleDispatch.Proofs.Binding.SpacedNames

/-!
# Names with the same tokens

Of two names with the same tokens the same is read if nothing but white space stands around the
tokens (`WrittenNames.spaced_implies_readAlike`). The name of an attribute is read with a suffix as
well, which stands behind what is in front of its type arguments, so there may be no white space in
this place.
-/

namespace DoubleDispatch

/-! ### Names with the suffix of an attribute -/

/-- The text with the suffix of an attribute in front of its type arguments. -/
theorem toList_withAttributeSuffix (s : List Char) :
    (withAttributeSuffix (.ofList s)).toList =
      s.takeWhile (· != '<') ++ ("Attribute".toList ++ s.dropWhile (· != '<')) := by
  rw [withAttributeSuffix, String.toList_ofList]
  obtain ⟨hmem, hnone⟩ | ⟨before, behind, rfl, hbefore, hsome⟩ := Text.splitOnce?_cases '<' s
  · have hmem := Text.forall_bne_of_notMem hmem
    rw [hnone, List.takeWhile_eq_self_iff.2 hmem, List.dropWhile_eq_nil_iff.2 hmem]
    simp
  · have hbefore := Text.forall_bne_of_notMem hbefore
    rw [hsome, List.takeWhile_append_of_pos hbefore, List.dropWhile_append_of_pos hbefore]
    simp

/-- No white space stands in front of the type arguments of a name, or at its end. -/
def IsTight (s : List Char) : Prop :=
  ∀ c ∈ (s.takeWhile (· != '<')).getLast?, Text.isBlank c = false

instance : DecidablePred IsTight := fun s ↦
  decidable_of_iff ((s.takeWhile (· != '<')).getLast?.all fun c ↦ !Text.isBlank c) (by
    simp [IsTight, Option.all_eq_true])

theorem IsTight.ahead {gap ahead : List Char} {kind : TokenKind}
    (h : IsTight (gap ++ (kind.characters ++ ahead))) (blank : ∀ c ∈ gap, Text.isBlank c)
    (part : kind.IsNamePart) (hless : kind ≠ .less) : IsTight ahead := by
  intro c hc
  rw [IsTight, (cut_token blank part hless ahead).1, ← List.append_assoc] at h
  exact h c (List.mem_getLast?_append_of_mem_getLast? hc)

/-- If no token is left in front of the type arguments, nothing is. -/
theorem IsTight.takeWhile_eq_nil {kinds : List TokenKind} {s : List Char} (h : IsTight s)
    (hs : IsSpaced kinds s) (hnone : kinds.takeWhile (· != .less) = []) :
    s.takeWhile (· != '<') = [] := by
  have hblank := hs.takeWhile
  rw [hnone] at hblank
  rw [← List.getLast?_eq_none_iff, Option.eq_none_iff_forall_ne_some]
  intro c hc
  cases hblank with
  | blanks blank =>
    have hvisible := h c hc
    rw [blank c (List.mem_of_getLast? hc)] at hvisible
    cases hvisible

theorem isUnqualified_cons {kind : TokenKind} {kinds : List TokenKind} (hless : kind ≠ .less) :
    IsUnqualified (kind :: kinds) ↔
      (∀ next ∈ kinds.head?, ¬(kind.isIdentifier ∧ next.isIdentifier)) ∧ kind ≠ .doubleColon ∧
        IsUnqualified kinds := by
  have htake : (kind :: kinds).takeWhile (· != .less) = kind :: kinds.takeWhile (· != .less) :=
    List.takeWhile_cons_of_pos (bne_iff_ne.2 hless)
  have hhead : (∀ next ∈ (kinds.takeWhile (· != .less)).head?,
      ¬(kind.isIdentifier ∧ next.isIdentifier)) ↔
        ∀ next ∈ kinds.head?, ¬(kind.isIdentifier ∧ next.isIdentifier) := by
    cases kinds with
    | nil => rfl
    | cons next kinds =>
      by_cases hnext : next = .less
      · subst hnext
        simp [TokenKind.isIdentifier, TokenKind.name?]
      · rw [List.takeWhile_cons, if_pos (bne_iff_ne.2 hnext)]
        rfl
  constructor
  · rintro ⟨hapart, hcolon⟩
    rw [AreApart, htake, List.isChain_cons, hhead] at hapart
    rw [List.mem_cons, not_or] at hcolon
    exact ⟨hapart.1, Ne.symm hcolon.1, hapart.2, hcolon.2⟩
  · rintro ⟨hnext, hcolon, hapart, hlater⟩
    refine ⟨?_, List.not_mem_cons_of_ne_of_not_mem hcolon.symm hlater⟩
    rw [AreApart, htake, List.isChain_cons, hhead]
    exact ⟨hnext, hapart⟩

/-- What does not end the part in front of the type arguments may stand in front of what has the
suffix. -/
theorem IsUnqualified.cons_suffixed {kind : TokenKind} {kinds kinds' : List TokenKind}
    (hkinds : IsUnqualified (kind :: kinds)) (hless : kind ≠ .less)
    (hends : ¬(kind.isIdentifier ∧ kinds.takeWhile (· != .less) = []))
    (hkinds' : IsUnqualified kinds')
    (hfirst : ∀ next ∈ kinds.head?, next ≠ .less → ∀ next' ∈ kinds'.head?, next'.isIdentifier →
      next.isIdentifier) :
    IsUnqualified (kind :: kinds') := by
  obtain ⟨hnext, hcolon, -⟩ := (isUnqualified_cons hless).1 hkinds
  refine (isUnqualified_cons hless).2 ⟨?_, hcolon, hkinds'⟩
  rintro next' hnext' ⟨hidentifier, hidentifier'⟩
  cases kinds with
  | nil => exact hends ⟨hidentifier, rfl⟩
  | cons next kinds =>
    by_cases hnextLess : next = .less
    · subst hnextLess
      exact hends ⟨hidentifier, rfl⟩
    · exact hnext next rfl ⟨hidentifier, hfirst next rfl hnextLess next' hnext' hidentifier'⟩

namespace IsSpaced

variable {kinds : List TokenKind} {s : List Char}

/-- An identifier that ends what stands in front of the type arguments is lengthened. -/
theorem exists_lengthened {gap ahead : List Char} {kind : TokenKind}
    (blank : ∀ c ∈ gap, Text.isBlank c) (part : kind.IsNamePart) (later : IsSpaced kinds ahead)
    (hidentifier : kind.isIdentifier) (hkinds : IsUnqualified (kind :: kinds)) :
    ∃ word, IsUnqualified (.identifier word :: kinds) ∧ IsSpaced (.identifier word :: kinds)
      (gap ++ (kind.characters ++ ("Attribute".toList ++ ahead))) := by
  obtain ⟨word, rfl, hword⟩ | hmark := part
  · obtain ⟨hnext, -, hlater⟩ := (isUnqualified_cons TokenKind.noConfusion).1 hkinds
    have hlonger : (TokenKind.identifier (word ++ "Attribute")).IsNamePart := by
      rw [TokenKind.isNamePart_identifier_iff, String.toList_append]
      exact Text.isIdentifier_append hword (List.all_eq_true.1 (by decide))
    have hcharacters : (TokenKind.identifier (word ++ "Attribute")).characters =
        (TokenKind.identifier word).characters ++ "Attribute".toList :=
      String.toList_append
    refine ⟨word ++ "Attribute", (isUnqualified_cons TokenKind.noConfusion).2
      ⟨hnext, TokenKind.noConfusion, hlater⟩, ?_⟩
    rw [← List.append_assoc (TokenKind.characters _), ← hcharacters]
    exact .token blank hlonger later
  · rw [(TokenKind.continuesIdentifier_of_mem_nameMarks kind hmark).1] at hidentifier
    cases hidentifier

/-- **With the suffix, the tokens are those of a name as well.** The suffix lengthens an identifier
at the end, and otherwise it is an identifier of its own. -/
theorem exists_suffixed (h : IsSpaced kinds s) (htight : IsTight s) (hkinds : IsUnqualified kinds) :
    ∃ kinds', IsUnqualified kinds' ∧
      IsSpaced kinds'
        (s.takeWhile (· != '<') ++ ("Attribute".toList ++ s.dropWhile (· != '<'))) ∧
      ∀ kind ∈ kinds.head?, kind ≠ .less → ∀ kind' ∈ kinds'.head?, kind'.isIdentifier →
        kind.isIdentifier := by
  have hsuffix : (TokenKind.identifier "Attribute").IsNamePart := by decide
  induction h with
  | @blanks gap blank =>
    have hgap := Text.forall_bne_of_notMem (Text.notMem_of_blank (c := '<') blank (by decide))
    rw [List.takeWhile_eq_self_iff.2 hgap, List.dropWhile_eq_nil_iff.2 hgap]
    refine ⟨[.identifier "Attribute"], ⟨?_, by simp⟩, .token blank hsuffix (.blanks nofun), nofun⟩
    exact List.isChain_singleton _
  | @token gap ahead kind kinds blank part later ih =>
    by_cases hless : kind = .less
    · subst hless
      obtain ⟨htake, hdrop⟩ := cut_less blank ahead
      rw [htake, hdrop]
      refine ⟨.identifier "Attribute" :: .less :: kinds, ?_, ?_, ?_⟩
      · have hcons := @isUnqualified_cons (.identifier "Attribute") (.less :: kinds) nofun
        refine hcons.2 ⟨?_, nofun, hkinds⟩
        rintro _ ⟨⟩ ⟨-, hidentifier⟩
        cases hidentifier
      · exact .token blank hsuffix (@token [] ahead .less kinds nofun part later)
      · rintro _ ⟨⟩ hne
        exact absurd rfl hne
    · have htight' := htight.ahead blank part hless
      obtain ⟨htake, hdrop⟩ := cut_token blank part hless ahead
      rw [htake, hdrop, List.append_assoc, List.append_assoc]
      by_cases hends : kind.isIdentifier ∧ kinds.takeWhile (· != .less) = []
      · -- The suffix stands right behind this identifier.
        obtain ⟨hidentifier, hnone⟩ := hends
        have hgone := htight'.takeWhile_eq_nil later hnone
        have hkeep := List.takeWhile_append_dropWhile (p := (· != '<')) (l := ahead)
        rw [hgone, List.nil_append] at hkeep
        rw [hgone, hkeep]
        obtain ⟨word, hword, hspaced⟩ := later.exists_lengthened blank part hidentifier hkinds
        refine ⟨_, hword, hspaced, ?_⟩
        rintro _ ⟨⟩ - _ - -
        exact hidentifier
      · have hlater := ((isUnqualified_cons hless).1 hkinds).2.2
        obtain ⟨kinds', hkinds', hspaced, hfirst⟩ := ih htight' hlater
        refine ⟨kind :: kinds', hkinds.cons_suffixed hless hends hkinds' hfirst,
          .token blank part hspaced, ?_⟩
        rintro _ ⟨⟩ - _ ⟨⟩ hidentifier
        exact hidentifier

/-- The tokens of a name with the suffix of an attribute are those of a name. -/
theorem exists_withAttributeSuffix (h : IsSpaced kinds s) (htight : IsTight s)
    (hname : IsName kinds) :
    ∃ kinds', IsName kinds' ∧ IsSpaced kinds' (withAttributeSuffix (.ofList s)).toList := by
  rw [toList_withAttributeSuffix]
  cases hname with
  | unqualified hkinds =>
    obtain ⟨kinds', hkinds', hspaced, -⟩ := h.exists_suffixed htight hkinds
    exact ⟨kinds', .unqualified hkinds', hspaced⟩
  | qualified word hkinds =>
    cases h with
    | @token gap _ _ _ blank part later =>
      cases later with
      | @token gap' behind _ _ blank' part' later =>
        have htight' := (htight.ahead blank part nofun).ahead blank' part' nofun
        obtain ⟨kinds', hkinds', hspaced, -⟩ := later.exists_suffixed htight' hkinds
        refine ⟨_, .qualified word hkinds', ?_⟩
        rw [(cut_token blank part nofun _).1, (cut_token blank part nofun _).2,
          (cut_token blank' part' nofun behind).1, (cut_token blank' part' nofun behind).2]
        simp only [List.append_assoc]
        exact .token blank part (.token blank' part' hspaced)

end IsSpaced

/-! ### Names that are read alike -/

/-- Names with the same tokens and nothing but white space around them. That of an attribute is
followed by its suffix, so nothing stands in front of its type arguments and at its end. The target
of a using directive is also put together with other names, so it has the same text. -/
def WrittenNames.spaced : WrittenNames where
  usingTarget n n' := n' = n
  attributeName n n' := ∃ kinds, IsName kinds ∧ (IsSpaced kinds n.toList ∧ IsTight n.toList) ∧
    IsSpaced kinds n'.toList ∧ IsTight n'.toList
  baseText n n' := ∃ kinds, IsName kinds ∧ IsSpaced kinds n.toList ∧ IsSpaced kinds n'.toList

section Alike

variable {kinds kinds' : List TokenKind} {n n' : String}

/-- What is read of a name depends on what is visible of it. -/
theorem IsSpaced.parse?_congr (hname : IsName kinds) (h : IsSpaced kinds n.toList)
    (hname' : IsName kinds') (h' : IsSpaced kinds' n'.toList)
    (hvisible : Text.visible n'.toList = Text.visible n.toList) :
    Reference.parse? n' = Reference.parse? n := by
  rw [← String.ofList_toList (s := n'), ← Reference.parse?_visible h' hname', hvisible,
    Reference.parse?_visible h hname, String.ofList_toList]

theorem visible_withAttributeSuffix (n : String) :
    Text.visible (withAttributeSuffix n).toList =
      (withAttributeSuffix (.ofList (Text.visible n.toList))).toList := by
  have hsuffix : Text.visible "Attribute".toList = "Attribute".toList := by decide
  have hsuffixMark : Text.visible "Attribute<".toList = "Attribute<".toList := by decide
  rw [withAttributeSuffix, withAttributeSuffix, String.toList_ofList,
    Text.splitOnce?_visible (by decide)]
  cases Text.splitOnce? ['<'] n.toList with
  | none =>
    dsimp only [Option.map_none]
    rw [String.toList_append, String.toList_append, Text.visible_append, hsuffix,
      String.toList_ofList (l := Text.visible n.toList)]
  | some parts =>
    dsimp only [Option.map_some, Prod.map]
    simp only [String.toList_append, Text.visible_append, hsuffixMark, String.toList_ofList]

/-- A name is simple if all that is visible of it is an identifier. -/
theorem IsSpaced.simpleName?_eq (hname : IsName kinds) (h : IsSpaced kinds n.toList) (span : Span) :
    (BaseEntry.mk n span).simpleName? =
      if Text.isIdentifier (Text.visible n.toList) then some (.ofList (Text.visible n.toList))
      else none := by
  rw [BaseEntry.simpleName?]
  by_cases hid : Text.isIdentifier (Text.visible n.toList)
  · have hmark {c : Char} (hc : Text.continuesIdentifier c = false) {kind : TokenKind}
        (hkind : c ∈ kind.characters) : kind ∉ kinds := by
      intro hmem
      refine Text.notMem_of_isIdentifier hid hc ?_
      rw [h.visible_eq]
      exact List.mem_flatMap.2 ⟨kind, hmem, hkind⟩
    have hapart : AreApart kinds := by
      cases hname with
      | unqualified hkinds =>
        have hless : TokenKind.less ∉ kinds := hmark (show Text.continuesIdentifier '<' = false by
          decide) (by decide)
        have hwhole : kinds.takeWhile (· != TokenKind.less) = kinds :=
          List.takeWhile_eq_self_iff.2 fun kind hkind ↦ bne_iff_ne.2 fun heq ↦ hless (heq ▸ hkind)
        exact hwhole ▸ hkinds.apart
      | qualified =>
        have hcolon := hmark (show Text.continuesIdentifier ':' = false by decide)
          (show ':' ∈ TokenKind.doubleColon.characters by decide)
        exact absurd (List.mem_cons_of_mem _ List.mem_cons_self) hcolon
    rw [h.trim_eq_visible hapart hid]
  · have htrim : ¬Text.isIdentifier (Text.trim n.toList) := by
      intro htrim
      rw [Text.visible_eq_trim htrim] at hid
      exact hid htrim
    dsimp only
    rw [if_neg htrim, if_neg hid]

/-- **Of names with the same tokens, and nothing but white space around them, the same is read.** -/
theorem WrittenNames.spaced_implies_readAlike : spaced.Implies .readAlike where
  usingTarget _ _ h := h
  attributeName n n' := by
    rintro ⟨kinds, hname, ⟨h, htight⟩, h', htight'⟩
    have hvisible : Text.visible n'.toList = Text.visible n.toList :=
      h'.visible_eq.trans h.visible_eq.symm
    refine ⟨h.parse?_congr hname hname h' hvisible, ?_⟩
    obtain ⟨suffixed, hsuffixed, hs⟩ := h.exists_withAttributeSuffix htight hname
    obtain ⟨suffixed', hsuffixed', hs'⟩ := h'.exists_withAttributeSuffix htight' hname
    rw [String.ofList_toList] at hs hs'
    refine hs.parse?_congr hsuffixed hsuffixed' hs' ?_
    rw [visible_withAttributeSuffix, visible_withAttributeSuffix, hvisible]
  baseText n n' := by
    rintro ⟨kinds, hname, h, h'⟩
    have hvisible : Text.visible n'.toList = Text.visible n.toList :=
      h'.visible_eq.trans h.visible_eq.symm
    refine ⟨h.parse?_congr hname hname h' hvisible, ?_⟩
    rw [h.simpleName?_eq hname, h'.simpleName?_eq hname, hvisible]

end Alike

end DoubleDispatch
