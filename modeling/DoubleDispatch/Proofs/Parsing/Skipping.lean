import DoubleDispatch.Proofs.Parsing.Strays

/-!
# Items that are skipped

Tokens are skipped one by one and group by group as long as no word among them starts a directive,
a namespace or a type. A word starts a type also behind attribute sections and modifiers, so a mark
has to stand between skipped tokens and the next such word (`Stream.skips_of_isOrdinary`).
-/

namespace DoubleDispatch

/-- The words with which directives, namespaces and types start. -/
def openingWords : List String :=
  ["using", "namespace", "class", "struct", "interface", "enum", "record"]

/-- A token that is no such word. -/
def TokenKind.IsOrdinary (kind : TokenKind) : Prop :=
  ∀ word ∈ openingWords, kind ≠ .identifier word

/-- Tokens and groups of tokens; the tokens that stand outside of groups are ordinary. -/
inductive IsOrdinary : List Token → Prop
  | nil : IsOrdinary []
  | plain {t : Token} {later : List Token} (plain : t.kind.IsPlain) (ordinary : t.kind.IsOrdinary)
      (h : IsOrdinary later) :
    IsOrdinary (t :: later)
  | group {group later : List Token} (hgroup : IsGroup group) (h : IsOrdinary later) :
    IsOrdinary (group ++ later)

theorem IsOrdinary.append {tokens later : List Token} (h : IsOrdinary tokens)
    (hlater : IsOrdinary later) : IsOrdinary (tokens ++ later) := by
  induction h with
  | nil => exact hlater
  | plain hplain hordinary _ ih => exact .plain hplain hordinary ih
  | group hgroup _ ih =>
    rw [List.append_assoc]
    exact .group hgroup ih

/-- A mark: a token that is no word, no delimiter and not the end of the file. -/
structure TokenKind.IsMark (kind : TokenKind) : Prop where
  plain : kind.IsPlain
  noWord : kind.isIdentifier = false

namespace TokenKind

variable {kind : TokenKind}

theorem IsOrdinary.of_noWord (h : kind.isIdentifier = false) : kind.IsOrdinary := by
  rintro word - rfl
  cases h

theorem IsOrdinary.isWord_eq_false (h : kind.IsOrdinary) {word : String}
    (hword : word ∈ openingWords := by decide) : kind.isWord word = false := by
  rw [isWord, beq_eq_false_iff_ne]
  exact h word hword

end TokenKind

namespace Stream

variable {source : List Char} {s t u : Stream}

/-! ### Skipped items -/

/-- From a stream to another, items are skipped. -/
inductive Skips (source : List Char) (braced : Bool) : Stream → Stream → Prop
  | refl {s : Stream} : Skips source braced s s
  | step {s next t : Stream} (goesOn : GoesOn braced s) (noUsing : s.using? source = none)
      (noNamespace : s.kind.isWord "namespace" = false) (noHeader : s.headerStart? source = none)
      (found : s.skipItem = .ok next) (h : Skips source braced next t) :
    Skips source braced s t

theorem Skips.trans {braced : Bool} (hst : Skips source braced s t)
    (htu : Skips source braced t u) : Skips source braced s u := by
  induction hst with
  | refl => exact htu
  | step goesOn noUsing noNamespace noHeader found _ ih =>
    exact .step goesOn noUsing noNamespace noHeader found (ih htu)

/-- Items that are skipped add nothing to a body. -/
theorem Skips.bodyOf_eq {braced : Bool} (h : Skips source braced s t) (ordinal : Nat) :
    bodyOf source braced ordinal s = bodyOf source braced ordinal t := by
  induction h with
  | refl => rfl
  | step goesOn noUsing noNamespace noHeader found _ ih =>
    rw [goesOn.bodyOf_type noUsing noNamespace, bodyFromType, typeDeclaration?, noHeader]
    dsimp only
    rw [found, ok_bind, ih]

/-! ### Headers start with an opening word -/

/-- **The start of a header** is groups in brackets and words, one of which is not ordinary. -/
theorem exists_keyword_of_headerStart? {header : Parsed HeaderStart}
    (h : s.headerStart? source = some header) :
    ∃ (groups : List (List Token)) (words : List Token),
      s.ahead = groups.flatten ++ (words ++ header.rest.ahead) ∧
      (∀ group ∈ groups, IsGroupIn .openBracket group) ∧
      (∀ word ∈ words, word.kind.isIdentifier = true) ∧ ∃ word ∈ words, ¬word.kind.IsOrdinary := by
  obtain ⟨sections, kind, hsections, hkind, rfl⟩ := headerStart?_eq_some_iff.1 h
  obtain ⟨groups, hahead, hgroups⟩ := exists_groups_of_sections? hsections
  obtain ⟨modifiers, hmodifiers, hareModifiers⟩ :=
    takesWords_readModifiers sections.rest.prevEnd sections.rest.ahead
  obtain ⟨keywords, hkeywords, hareKeywords⟩ := takesWords_typeKeyword? hkind
  refine ⟨groups, modifiers ++ keywords, ?_, hgroups,
    List.forall_mem_append.2 ⟨hareModifiers, hareKeywords⟩, ?_⟩
  · rw [hahead, show sections.rest.ahead = _ from hmodifiers, hkeywords, List.append_assoc]
  · have hopening : ["class", "struct", "interface", "enum", "record"] ⊆ openingWords := by decide
    obtain ⟨word, hmem, hword, -⟩ := exists_word_of_typeKeyword? hkind
    cases keywords with
    | nil => exact absurd hkeywords.symm (ahead_ne_of_size_lt (size_typeKeyword?_lt hkind))
    | cons first keywords =>
      refine ⟨first, by simp, fun hordinary ↦ hordinary word (hopening hmem) ?_⟩
      rw [← eq_identifier_of_name? hword, Stream.kind, hkeywords]
      rfl

/-- Groups in brackets start with a delimiter. -/
theorem not_isPlain_of_isGroupIn {t : Token} {later group more : List Token}
    {groups : List (List Token)} (h : ∀ g ∈ group :: groups, IsGroupIn .openBracket g)
    (heq : t :: later = (group :: groups).flatten ++ more) : ¬t.kind.IsPlain := by
  obtain ⟨opener, inner, rfl, hkind⟩ := (h group List.mem_cons_self).starts
  rw [(List.cons.inj heq).1, hkind]
  decide

/-- Ordinary tokens before a mark are not the start of a header. -/
theorem not_keyword_of_isOrdinary {tokens rest words behind : List Token} {mark : Token}
    {groups : List (List Token)} (h : IsOrdinary tokens) (hmark : mark.kind.IsMark)
    (hgroups : ∀ group ∈ groups, IsGroupIn .openBracket group)
    (hwords : ∀ word ∈ words, word.kind.isIdentifier = true)
    (hkeyword : ∃ word ∈ words, ¬word.kind.IsOrdinary) :
    tokens ++ mark :: rest ≠ groups.flatten ++ (words ++ behind) := by
  intro heq
  -- What stands first is an opening bracket if there are groups, and else a word.
  induction h generalizing groups words with
  | nil =>
    cases groups with
    | nil =>
      cases words with
      | nil => simp at hkeyword
      | cons first words =>
        have hfirst := hwords first List.mem_cons_self
        rw [← (List.cons.inj heq).1, hmark.noWord] at hfirst
        cases hfirst
    | cons group groups => exact not_isPlain_of_isGroupIn hgroups heq hmark.plain
  | @plain t later hplain hordinary _ ih =>
    cases groups with
    | nil =>
      cases words with
      | nil => simp at hkeyword
      | cons first words =>
        obtain ⟨rfl, hlater⟩ := List.cons.inj heq
        have hkeyword : ∃ word ∈ words, ¬word.kind.IsOrdinary := by
          simpa [hordinary] using hkeyword
        exact ih hgroups (List.forall_mem_cons.1 hwords).2 hkeyword hlater
    | cons group groups => exact not_isPlain_of_isGroupIn hgroups heq hplain
  | @group group later hgroup _ ih =>
    cases groups with
    | nil =>
      obtain ⟨closes, -⟩ := hgroup
      cases words with
      | nil => simp at hkeyword
      | cons first words =>
        have hfirst := isPlain_of_isIdentifier (hwords first List.mem_cons_self)
        rw [← (List.cons.inj heq).1] at hfirst
        rw [hfirst.noOpener] at closes
        cases closes
    | cons first groups =>
      obtain ⟨hfirst, hgroups⟩ := List.forall_mem_cons.1 hgroups
      rw [List.flatten_cons, List.append_assoc, List.append_assoc] at heq
      obtain ⟨-, heq⟩ := hgroup.append_inj hfirst.isGroup heq
      exact ih hgroups hwords hkeyword heq

/-- No header starts in ordinary tokens before a mark, nor at the mark. -/
theorem headerStart?_eq_none_of_isOrdinary {tokens rest : List Token} {mark : Token}
    (h : IsOrdinary tokens) (hmark : mark.kind.IsMark) (hs : s.ahead = tokens ++ mark :: rest) :
    s.headerStart? source = none := by
  cases hheader : s.headerStart? source with
  | none => rfl
  | some header =>
    obtain ⟨groups, words, hahead, hgroups, hwords, hkeyword⟩ :=
      exists_keyword_of_headerStart? hheader
    exact absurd (hs.symm.trans hahead)
      (not_keyword_of_isOrdinary h hmark hgroups hwords hkeyword)

/-- No directive starts at an ordinary token, if the next one is ordinary behind `global`. -/
theorem using?_eq_none_of_isOrdinary (h : s.kind.IsOrdinary)
    (hsecond : s.kind.isIdentifier = true → s.secondKind.IsOrdinary) : s.using? source = none := by
  rw [using?, h.isWord_eq_false, if_neg (by decide), if_neg]
  intro hwords
  obtain ⟨hglobal, husing⟩ : s.kind.isWord "global" = true ∧ _ := by simpa using hwords
  have hkind : s.kind = .identifier "global" := by simpa [TokenKind.isWord] using hglobal
  rw [(hsecond (by rw [hkind]; rfl)).isWord_eq_false] at husing
  cases husing

/-! ### Runs of skipped items -/

theorem skipItem_of_isPlain (h : s.kind.IsPlain) : s.skipItem = .ok s.advance := by
  rw [skipItem, h.noOpener, h.noCloser]
  rfl

theorem noWord_of_opener {kind closer : TokenKind} (h : kind.closer? = some closer) :
    kind.isIdentifier = false := by
  rw [Bool.eq_false_iff]
  intro hword
  rw [(isPlain_of_isIdentifier hword).noOpener] at h
  cases h

section Runs

variable {tokens rest : List Token} {mark : Token} {braced : Bool}

/-- What stands before a mark starts with an ordinary token. -/
theorem isOrdinary_kind (h : IsOrdinary tokens) (hmark : mark.kind.IsMark) (prevEnd : Nat) :
    (Stream.kind ⟨tokens ++ mark :: rest, prevEnd⟩).IsOrdinary := by
  cases h with
  | nil => exact TokenKind.IsOrdinary.of_noWord hmark.noWord
  | plain _ hordinary _ => exact hordinary
  | group hgroup _ =>
    obtain ⟨closes, -⟩ := hgroup
    exact TokenKind.IsOrdinary.of_noWord (noWord_of_opener closes)

theorem secondKind_cons {t : Token} {ts : List Token} (h : t.kind ≠ .endOfFile) (prevEnd : Nat) :
    secondKind ⟨t :: ts, prevEnd⟩ = Stream.kind ⟨ts, t.span.stop⟩ := by
  rw [secondKind_eq_kind_advance (show Stream.kind ⟨t :: ts, prevEnd⟩ ≠ .endOfFile from h),
    advance_cons h]

theorem skipItem_cons {t : Token} {ts : List Token} (h : t.kind.IsPlain) (prevEnd : Nat) :
    skipItem ⟨t :: ts, prevEnd⟩ = .ok ⟨ts, t.span.stop⟩ := by
  rw [skipItem_of_isPlain (show (Stream.kind ⟨t :: ts, prevEnd⟩).IsPlain from h),
    advance_cons h.inside]

/-- A group is skipped. -/
theorem skips_opener {opener closer : TokenKind} (hopener : s.kind = opener)
    (closes : opener.closer? = some closer) (hheader : s.headerStart? source = none)
    (hskip : s.skipGroup = .ok t) (h : Skips source braced t u) : Skips source braced s u := by
  rw [← hopener] at closes
  have hword := noWord_of_opener closes
  have hordinary := TokenKind.IsOrdinary.of_noWord hword
  have hends : s.kind.isCloser = false ∧ s.kind ≠ .endOfFile := by
    revert closes
    cases s.kind with
    | openBrace => exact fun _ ↦ ⟨rfl, nofun⟩
    | openParen => exact fun _ ↦ ⟨rfl, nofun⟩
    | openBracket => exact fun _ ↦ ⟨rfl, nofun⟩
    | _ => nofun
  refine .step (goesOn_of_kind hends.1 hends.2) ?_ hordinary.isWord_eq_false hheader ?_ h
  · exact using?_eq_none_of_isOrdinary hordinary fun hword' ↦ absurd (hword.symm.trans hword') nofun
  · rw [skipItem, closes, hskip]
    rfl

/-- A mark is skipped. -/
theorem skips_mark (hmark : mark.kind.IsMark) (prevEnd : Nat) :
    Skips source braced ⟨mark :: rest, prevEnd⟩ ⟨rest, mark.span.stop⟩ := by
  have hordinary : mark.kind.IsOrdinary := .of_noWord hmark.noWord
  refine .step (goesOn_of_kind hmark.plain.noCloser hmark.plain.inside) ?_
    hordinary.isWord_eq_false ?_ (skipItem_cons hmark.plain prevEnd) .refl
  · exact using?_eq_none_of_isOrdinary hordinary fun hword ↦ by
      rw [Stream.kind, hmark.noWord] at hword
      cases hword
  · exact headerStart?_eq_none_of_isOrdinary .nil hmark rfl

/-- **Ordinary tokens before a mark are skipped.** -/
theorem skips_of_isOrdinary (h : IsOrdinary tokens) (hmark : mark.kind.IsMark) (prevEnd : Nat) :
    ∃ prevEnd', Skips source braced ⟨tokens ++ mark :: rest, prevEnd⟩ ⟨mark :: rest, prevEnd'⟩ := by
  induction h generalizing prevEnd with
  | nil => exact ⟨prevEnd, .refl⟩
  | @plain t later hplain hordinary hlater ih =>
    obtain ⟨prevEnd', hskips⟩ := ih t.span.stop
    refine ⟨prevEnd', .step (goesOn_of_kind hplain.noCloser hplain.inside) ?_
      hordinary.isWord_eq_false ?_ (skipItem_cons hplain prevEnd) hskips⟩
    · refine using?_eq_none_of_isOrdinary hordinary fun _ ↦ ?_
      rw [List.cons_append, secondKind_cons hplain.inside]
      exact isOrdinary_kind hlater hmark _
    · exact headerStart?_eq_none_of_isOrdinary (.plain hplain hordinary hlater) hmark rfl
  | @group group later hgroup hlater ih =>
    obtain ⟨prevEnd', hskips⟩ := ih (stopBehind prevEnd group)
    have hheader : headerStart? source ⟨group ++ later ++ mark :: rest, prevEnd⟩ = none :=
      headerStart?_eq_none_of_isOrdinary (.group hgroup hlater) hmark rfl
    rw [List.append_assoc] at hheader ⊢
    have hskip := skipGroup_of_isGroup hgroup (later ++ mark :: rest) prevEnd
    obtain @⟨opener, closer, content, closes, -⟩ := hgroup
    exact ⟨prevEnd', skips_opener rfl closes hheader hskip hskips⟩

end Runs

end Stream

end DoubleDispatch
