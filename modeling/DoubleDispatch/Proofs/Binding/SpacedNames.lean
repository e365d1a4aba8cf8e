import DoubleDispatch.Proofs.Binding.TypeArguments
import DoubleDispatch.Proofs.Text.Visible
import DoubleDispatch.Proofs.Token.Tiling

/-!
# Names with white space in them

A name that is kept as it is written has its tokens in it and what stands between them. If that is
nothing but white space (`IsSpaced`), and the tokens are those of a name (`IsName`), then the name
is read like its tokens without white space (`Reference.parse?_visible`). No two identifiers may
stand side by side in front of the type arguments, since they are read as one without the gap, and
no double colon but the one behind a qualifier.
-/

namespace DoubleDispatch

/-! ### Texts with given tokens -/

namespace TokenKind

/-- The marks that stand in names of types. -/
def nameMarks : List TokenKind :=
  [dot, doubleColon, less, comma, greater, question, openParen, closeParen, openBracket,
    closeBracket]

/-- What a name of a type is made of: identifiers and the marks between them. -/
def IsNamePart (kind : TokenKind) : Prop :=
  (∃ name, kind = identifier name ∧ Text.isIdentifier name.toList) ∨ kind ∈ nameMarks

/-- The characters that a token of this kind stands for, where the kind determines them. -/
def characters (kind : TokenKind) : List Char := (kind.spelling?.getD "").toList

variable {kind : TokenKind} {c : Char}

theorem isNamePart_identifier_iff {word : String} :
    (identifier word).IsNamePart ↔ Text.isIdentifier word.toList := by
  simp [IsNamePart, nameMarks]

instance : DecidablePred IsNamePart
  | identifier _ => decidable_of_iff _ isNamePart_identifier_iff.symm
  | literal | openBrace | closeBrace | semicolon | colon | equals | punct _ | endOfFile =>
    isFalse (by simp [IsNamePart, nameMarks])
  | openParen | closeParen | openBracket | closeBracket | less | greater | comma | doubleColon
  | dot | question => isTrue (by simp [IsNamePart, nameMarks])

theorem continuesIdentifier_of_mem_nameMarks :
    ∀ kind ∈ nameMarks, kind.isIdentifier = false ∧ kind.characters ≠ [] ∧
      ∀ c ∈ kind.characters, Text.continuesIdentifier c = false ∧ Text.isBlank c = false := by
  have hmarks : ∀ kind ∈ nameMarks, kind.isIdentifier = false ∧ kind.characters ≠ [] ∧
      kind.characters.all fun c ↦ !Text.continuesIdentifier c && !Text.isBlank c := by
    decide +kernel
  simpa using hmarks

namespace IsNamePart

theorem characters_ne_nil (h : kind.IsNamePart) : kind.characters ≠ [] := by
  obtain ⟨name, rfl, hname⟩ | hmark := h
  · rintro hnil
    rw [show characters (.identifier name) = name.toList from rfl] at hnil
    rw [hnil] at hname
    cases hname
  · exact (continuesIdentifier_of_mem_nameMarks kind hmark).2.1

theorem isBlank_of_mem (h : kind.IsNamePart) (hc : c ∈ kind.characters) :
    Text.isBlank c = false := by
  obtain ⟨name, rfl, hname⟩ | hmark := h
  · exact Text.isBlank_of_continuesIdentifier (Text.continuesIdentifier_of_isIdentifier hname c hc)
  · exact ((continuesIdentifier_of_mem_nameMarks kind hmark).2.2 c hc).2

/-- Characters of words belong to identifiers. -/
theorem isIdentifier_of_mem (h : kind.IsNamePart) (hc : c ∈ kind.characters)
    (hword : Text.continuesIdentifier c) : kind.isIdentifier := by
  obtain ⟨name, rfl, -⟩ | hmark := h
  · rfl
  · rw [((continuesIdentifier_of_mem_nameMarks kind hmark).2.2 c hc).1] at hword
    cases hword

/-- A mark stands in no other token. -/
theorem eq_of_mem (h : kind.IsNamePart) (hc : c ∈ kind.characters) {mark : TokenKind}
    (hword : Text.continuesIdentifier c = false)
    (hmark : ∀ kind ∈ nameMarks, c ∈ kind.characters → kind = mark) : kind = mark := by
  obtain ⟨name, rfl, hname⟩ | hmem := h
  · rw [Text.continuesIdentifier_of_isIdentifier hname c hc] at hword
    cases hword
  · exact hmark kind hmem hc

end IsNamePart

end TokenKind

/-- A text with tokens of these kinds, each written as its kind says, and with white space around
them. -/
inductive IsSpaced : List TokenKind → List Char → Prop
  | blanks {gap : List Char} (blank : ∀ c ∈ gap, Text.isBlank c) : IsSpaced [] gap
  | token {gap ahead : List Char} {kind : TokenKind} {kinds : List TokenKind}
      (blank : ∀ c ∈ gap, Text.isBlank c) (part : kind.IsNamePart) (later : IsSpaced kinds ahead) :
    IsSpaced (kind :: kinds) (gap ++ (kind.characters ++ ahead))

/-- In a source whose gaps are white space, and whose tokens are parts of names and written as their
kinds say, the tokens are spaced. -/
theorem Tiling.isSpaced {before ahead : List Char} {tokens : List Token}
    (h : Tiling before ahead tokens)
    (hgaps : ∀ gap ∈ gapsFrom (Text.byteLength before) tokens,
      ∀ c ∈ Text.slice gap.start gap.stop (before ++ ahead), Text.isBlank c)
    (hparts : ∀ t ∈ tokens, t.kind ≠ .endOfFile → t.kind.IsNamePart ∧
      Text.slice t.span.start t.span.stop (before ++ ahead) = t.kind.characters) :
    ∃ kinds, kindsOf tokens = kinds ++ [.endOfFile] ∧ IsSpaced kinds ahead := by
  induction h with
  | @endOfFile before gap =>
    have hslice := slice_middle before gap []
    rw [List.append_nil] at hslice
    have hgap := List.forall_mem_singleton.1 hgaps
    dsimp only at hgap
    rw [hslice] at hgap
    exact ⟨[], rfl, .blanks hgap⟩
  | @token before gap text ahead kind ts hgap hspelled hlater ih =>
    have hslice := slice_middle before gap (text ++ ahead)
    have htext := slice_middle (before ++ gap) text ahead
    simp only [List.append_assoc] at ih hslice htext
    obtain ⟨hfirst, hlaterGaps⟩ := List.forall_mem_cons.1 hgaps
    obtain ⟨hpart, hlaterParts⟩ := List.forall_mem_cons.1 hparts
    dsimp only at hfirst
    rw [hslice] at hfirst
    have hkind : kind ≠ .endOfFile := by
      rintro rfl
      cases hspelled with
      | mark _ h => cases h
    obtain ⟨part, hcharacters⟩ := hpart hkind
    dsimp only at hcharacters
    rw [List.append_assoc, htext] at hcharacters
    obtain ⟨kinds, hkinds, hspaced⟩ := ih (by simpa using hlaterGaps) hlaterParts
    refine ⟨kind :: kinds, by rw [kindsOf, List.map_cons, ← kindsOf, hkinds]; rfl, ?_⟩
    rw [hcharacters]
    exact .token hfirst part hspaced

/-- **Whether a name is spaced can be checked on its tokens.** What stands around them must be white
space, and each of them written as its kind says: an identifier without an `@`. -/
theorem isSpaced_of_tokenize {text : String} {kinds : List TokenKind}
    (h : ∃ tokens ∈ (tokenize text).toOption, kindsOf tokens = kinds ++ [.endOfFile] ∧
      (∀ gap ∈ gapsFrom 0 tokens, (Text.slice gap.start gap.stop text.toList).all Text.isBlank) ∧
      ∀ t ∈ tokens, t.kind ≠ .endOfFile → t.kind.IsNamePart ∧
        Text.slice t.span.start t.span.stop text.toList = t.kind.characters) :
    IsSpaced kinds text.toList := by
  obtain ⟨tokens, htokens, hkinds, hgaps, hparts⟩ := h
  obtain ⟨kinds', hkinds', hspaced⟩ :=
    (tiling_of_tokenize (eq_ok_of_toOption htokens)).isSpaced
      (fun gap hgap ↦ List.all_eq_true.1 (hgaps gap hgap)) hparts
  rwa [List.append_cancel_right (hkinds.symm.trans hkinds')]

/-- A text is cut in front of the first angle bracket. -/
theorem cut_less {gap : List Char} (blank : ∀ c ∈ gap, Text.isBlank c) (ahead : List Char) :
    (gap ++ (TokenKind.less.characters ++ ahead)).takeWhile (· != '<') = gap ∧
      (gap ++ (TokenKind.less.characters ++ ahead)).dropWhile (· != '<') =
        TokenKind.less.characters ++ ahead := by
  have hgap := Text.forall_bne_of_notMem (Text.notMem_of_blank (c := '<') blank (by decide))
  rw [List.takeWhile_append_of_pos hgap, List.dropWhile_append_of_pos hgap]
  exact ⟨List.append_nil _, rfl⟩

/-- Another token stands in front of the cut. -/
theorem cut_token {gap : List Char} {kind : TokenKind} (blank : ∀ c ∈ gap, Text.isBlank c)
    (part : kind.IsNamePart) (hless : kind ≠ .less) (ahead : List Char) :
    (gap ++ (kind.characters ++ ahead)).takeWhile (· != '<') =
        gap ++ (kind.characters ++ ahead.takeWhile (· != '<')) ∧
      (gap ++ (kind.characters ++ ahead)).dropWhile (· != '<') = ahead.dropWhile (· != '<') := by
  have hgap := Text.forall_bne_of_notMem (Text.notMem_of_blank (c := '<') blank (by decide))
  have hword : '<' ∉ kind.characters :=
    fun hc ↦ hless (part.eq_of_mem hc (by decide) (by decide))
  have hword := Text.forall_bne_of_notMem hword
  rw [List.takeWhile_append_of_pos hgap, List.takeWhile_append_of_pos hword,
    List.dropWhile_append_of_pos hgap, List.dropWhile_append_of_pos hword]
  exact ⟨rfl, rfl⟩

namespace IsSpaced

variable {kind : TokenKind} {kinds : List TokenKind} {s : List Char}

/-- What is visible are the tokens. -/
theorem visible_eq (h : IsSpaced kinds s) : Text.visible s = kinds.flatMap (·.characters) := by
  induction h with
  | blanks blank => exact Text.visible_eq_nil blank
  | token blank part _ ih =>
    rw [Text.visible_append, Text.visible_append, Text.visible_eq_nil blank,
      Text.visible_eq_self fun c hc ↦ part.isBlank_of_mem hc, ih]
    rfl

theorem mem_of_mem (h : IsSpaced kinds s) {c : Char} (hc : c ∈ s)
    (hblank : Text.isBlank c = false) : ∃ kind ∈ kinds, kind.IsNamePart ∧ c ∈ kind.characters := by
  induction h with
  | blanks blank =>
    rw [blank c hc] at hblank
    cases hblank
  | token blank part _ ih =>
    rcases List.mem_append.1 hc with hc | hc
    · rw [blank c hc] at hblank
      cases hblank
    · rcases List.mem_append.1 hc with hc | hc
      · exact ⟨_, List.mem_cons_self, part, hc⟩
      · obtain ⟨kind, hkind, hmem⟩ := ih hc
        exact ⟨kind, List.mem_cons_of_mem _ hkind, hmem⟩

theorem dropWhile (h : IsSpaced kinds s) : IsSpaced kinds (s.dropWhile Text.isBlank) := by
  cases h with
  | blanks blank =>
    rw [List.dropWhile_eq_nil_iff.2 blank]
    exact .blanks nofun
  | @token gap ahead kind kinds blank part later =>
    obtain ⟨c, word, hword⟩ := List.exists_cons_of_ne_nil part.characters_ne_nil
    have hc : Text.isBlank c = false := part.isBlank_of_mem (hword ▸ List.mem_cons_self)
    rw [List.dropWhile_append_of_pos blank, hword, List.cons_append,
      List.dropWhile_cons_of_neg (by rw [hc]; nofun), ← List.cons_append, ← hword]
    exact @token [] ahead kind kinds nofun part later

theorem trimEnd (h : IsSpaced kinds s) : IsSpaced kinds (Text.trimEnd s) := by
  induction h with
  | @blanks gap blank =>
    have hnone : Text.trimEnd gap = [] := by
      rw [Text.trimEnd, List.dropWhile_eq_nil_iff.2 fun c hc ↦ blank c (List.mem_reverse.1 hc)]
      rfl
    rw [hnone]
    exact .blanks (List.forall_mem_nil _)
  | @token gap ahead kind kinds blank part later ih =>
    have hlast : ∀ c ∈ (gap ++ kind.characters).getLast?, Text.isBlank c = false := by
      intro c hc
      rw [List.getLast?_append_of_ne_nil _ part.characters_ne_nil] at hc
      exact part.isBlank_of_mem (List.mem_of_getLast? hc)
    rw [← List.append_assoc, Text.trimEnd_append hlast, List.append_assoc]
    exact .token blank part ih

theorem trim (h : IsSpaced kinds s) : IsSpaced kinds (Text.trim s) := h.dropWhile.trimEnd

theorem eq_nil (h : IsSpaced kinds []) : kinds = [] := by
  generalize hnil : ([] : List Char) = s at h
  cases h with
  | blanks => rfl
  | token _ part _ =>
    exact absurd (List.append_eq_nil_iff.1 (List.append_eq_nil_iff.1 hnil.symm).2).1
      part.characters_ne_nil

/-- A question mark at the end is the last token. -/
theorem exists_of_getLast?_eq_question (h : IsSpaced kinds s) (hlast : s.getLast? = some '?') :
    ∃ front, kinds = front ++ [.question] ∧ IsSpaced front s.dropLast := by
  induction h with
  | blanks blank => exact absurd (blank _ (List.mem_of_getLast? hlast)) (by decide)
  | @token gap ahead kind kinds blank part later ih =>
    by_cases hahead : ahead = []
    · subst hahead
      rw [List.append_nil, List.getLast?_append_of_ne_nil _ part.characters_ne_nil] at hlast
      obtain rfl : kind = .question := part.eq_of_mem (List.mem_of_getLast? hlast) (by decide)
        (by decide)
      obtain rfl := later.eq_nil
      have hgap : (gap ++ (TokenKind.question.characters ++ [])).dropLast = gap :=
        List.dropLast_concat
      exact ⟨[], rfl, by rw [hgap]; exact .blanks blank⟩
    · rw [← List.append_assoc, List.getLast?_append_of_ne_nil _ hahead] at hlast
      obtain ⟨front, rfl, hfront⟩ := ih hlast
      rw [← List.append_assoc, List.dropLast_append_of_ne_nil hahead, List.append_assoc]
      exact ⟨kind :: front, rfl, .token blank part hfront⟩

/-- Without its mark, a text has the tokens in front of the mark. -/
theorem exists_withoutMark (h : IsSpaced kinds s) :
    ∃ front, (kinds = front ∨ kinds = front ++ [.question]) ∧
      IsSpaced front (Reference.withoutMark s) := by
  have htrim := h.trim
  rw [Reference.withoutMark, Text.stripSuffix?]
  by_cases hlast : (Text.trim s).getLast? = some '?'
  · obtain ⟨front, hkinds, hfront⟩ := htrim.exists_of_getLast?_eq_question hlast
    rw [if_pos hlast]
    exact ⟨front, .inr hkinds, hfront.trimEnd⟩
  · rw [if_neg hlast]
    exact ⟨kinds, .inl rfl, htrim.trimEnd⟩

/-- What stands in front of type arguments. -/
theorem takeWhile (h : IsSpaced kinds s) :
    IsSpaced (kinds.takeWhile (· != .less)) (s.takeWhile (· != '<')) := by
  induction h with
  | @blanks gap blank =>
    have hgap := Text.forall_bne_of_notMem (Text.notMem_of_blank (c := '<') blank (by decide))
    rw [List.takeWhile_eq_self_iff.2 hgap]
    exact .blanks blank
  | @token gap ahead kind kinds blank part later ih =>
    rw [List.takeWhile_cons]
    by_cases hless : kind = .less
    · subst hless
      rw [(cut_less blank ahead).1]
      exact .blanks blank
    · rw [(cut_token blank part hless ahead).1, if_pos (bne_iff_ne.2 hless)]
      exact .token blank part ih

/-- **Each part between dots has the tokens between two of them.** -/
theorem exists_split (h : IsSpaced kinds s) :
    ∃ first later, Text.split '.' s = first :: later ∧
      (∃ front, front <+: kinds ∧ IsSpaced front first) ∧
      ∀ part ∈ later, ∃ inner, inner <:+: kinds ∧ IsSpaced inner part := by
  have hgap {gap : List Char} (blank : ∀ c ∈ gap, Text.isBlank c) : '.' ∉ gap :=
    Text.notMem_of_blank blank (by decide)
  induction h with
  | @blanks gap blank =>
    exact ⟨gap, [], Text.split_of_notMem (hgap blank), ⟨[], List.prefix_rfl, .blanks blank⟩, nofun⟩
  | @token gap ahead kind kinds blank part later ih =>
    obtain ⟨first, parts, hsplit, ⟨front, hfront, hfirst⟩, hparts⟩ := ih
    have hlater : ∀ part ∈ parts, ∃ inner, inner <:+: kind :: kinds ∧ IsSpaced inner part := by
      intro part hpart
      obtain ⟨inner, hinner, hspaced⟩ := hparts part hpart
      exact ⟨inner, hinner.trans (List.suffix_cons _ _).isInfix, hspaced⟩
    by_cases hdot : kind = .dot
    · subst hdot
      have hcut : Text.split '.' (gap ++ (TokenKind.dot.characters ++ ahead)) =
          gap :: first :: parts := by
        rw [show TokenKind.dot.characters ++ ahead = '.' :: ahead from rfl,
          Text.split_append_cons, Text.split_of_notMem (hgap blank), hsplit]
        rfl
      refine ⟨gap, first :: parts, hcut, ⟨[], List.nil_prefix, .blanks blank⟩, ?_⟩
      exact List.forall_mem_cons.2
        ⟨⟨front, hfront.isInfix.trans (List.suffix_cons _ _).isInfix, hfirst⟩, hlater⟩
    · have hword : '.' ∉ gap ++ kind.characters := by
        rw [List.mem_append, not_or]
        exact ⟨hgap blank, fun hc ↦ hdot (part.eq_of_mem hc (by decide) (by decide))⟩
      rw [← List.append_assoc, Text.split_append_of_notMem hword hsplit, List.append_assoc]
      exact ⟨_, parts, rfl, ⟨kind :: front, List.prefix_cons_inj kind |>.2 hfront,
        .token blank part hfirst⟩, hlater⟩

end IsSpaced

/-! ### Names -/

/-- No two identifiers stand side by side. -/
def AreApart (kinds : List TokenKind) : Prop :=
  kinds.IsChain fun kind next ↦ ¬(kind.isIdentifier ∧ next.isIdentifier)

instance : DecidablePred AreApart := fun kinds ↦ inferInstanceAs (Decidable (kinds.IsChain _))

/-- The tokens of a name without a qualifier. In front of its type arguments no two identifiers
stand side by side, and there is no double colon in it. -/
structure IsUnqualified (kinds : List TokenKind) : Prop where
  apart : AreApart (kinds.takeWhile (· != .less))
  noColon : .doubleColon ∉ kinds

/-- The tokens of a name. -/
inductive IsName : List TokenKind → Prop
  | unqualified {kinds : List TokenKind} (h : IsUnqualified kinds) : IsName kinds
  | qualified {kinds : List TokenKind} (word : String) (h : IsUnqualified kinds) :
    IsName (.identifier word :: .doubleColon :: kinds)

theorem AreApart.of_infix {kinds inner : List TokenKind} (h : AreApart kinds)
    (hinner : inner <:+: kinds) : AreApart inner :=
  List.IsChain.infix h hinner

theorem IsUnqualified.of_append {front later : List TokenKind}
    (h : IsUnqualified (front ++ later)) : IsUnqualified front where
  apart := by
    refine h.apart.of_infix (List.IsPrefix.isInfix ?_)
    rw [List.takeWhile_append]
    split
    · exact (List.takeWhile_prefix _).trans (List.prefix_append _ _)
    · exact List.prefix_rfl
  noColon hmem := h.noColon (List.mem_append_left _ hmem)

/-- A name is one without the question mark behind it. -/
theorem IsName.of_append_question {front : List TokenKind} (h : IsName (front ++ [.question])) :
    IsName front := by
  generalize hkinds : front ++ [.question] = kinds at h
  cases h with
  | unqualified h => exact .unqualified (hkinds ▸ h).of_append
  | qualified word h =>
    rcases front with _ | ⟨first, _ | ⟨second, front⟩⟩
    · cases hkinds
    · cases hkinds
    · cases hkinds
      exact .qualified word h.of_append

/-- **Where identifiers stand apart, an identifier stands in one piece.** -/
theorem IsSpaced.trim_eq_visible {kinds : List TokenKind} {s : List Char} (h : IsSpaced kinds s)
    (hapart : AreApart kinds) (hid : Text.isIdentifier (Text.visible s)) :
    Text.trim s = Text.visible s := by
  have hwords := Text.continuesIdentifier_of_isIdentifier hid
  rw [h.visible_eq] at hwords
  -- Each token has a character, and it is one of a word.
  have hidentifier {kind : TokenKind} (hkind : kind ∈ kinds) (part : kind.IsNamePart) :
      kind.isIdentifier := by
    obtain ⟨c, later, hcons⟩ := List.exists_cons_of_ne_nil part.characters_ne_nil
    have hc : c ∈ kind.characters := hcons ▸ List.mem_cons_self
    exact part.isIdentifier_of_mem hc (hwords c (List.mem_flatMap.2 ⟨kind, hkind, hc⟩))
  have hvisible := h.visible_eq
  cases h with
  | blanks blank =>
    rw [Text.visible_eq_nil blank] at hid
    cases hid
  | token blank part later =>
    cases later with
    | blanks blank' =>
      rw [hvisible, Text.trim_append part.characters_ne_nil (fun c ↦ part.isBlank_of_mem) blank
        blank']
      exact (List.append_nil _).symm
    | token _ part' _ =>
      obtain ⟨hnext, -⟩ := List.isChain_cons_cons.1 hapart
      exact absurd ⟨hidentifier (by simp) part, hidentifier (by simp) part'⟩ hnext

/-! ### Read names -/

namespace Reference

variable {kinds : List TokenKind} {s : List Char}

theorem argumentCount?_visible (depth count : Nat) (s : List Char) :
    argumentCount? depth count (Text.visible s) = argumentCount? depth count s := by
  induction s generalizing depth count with
  | nil => rfl
  | cons c s ih =>
    by_cases hc : Text.isBlank c
    · rw [Text.visible_cons_of_isBlank hc, ih,
        argumentCount?_of_notMem (notMem_countedMarks_of_isBlank hc)]
    · rw [Text.visible_cons (by simpa using hc), argumentCount?, argumentCount?]
      simp only [ih]

theorem withoutMark_visible (s : List Char) :
    withoutMark (Text.visible s) = Text.visible (withoutMark s) := by
  have hlast : ∀ c ∈ (Text.trim s).getLast?, Text.isBlank c = false :=
    fun c hc ↦ Text.isBlank_of_getLast?_trimEnd hc
  have hstrip : Text.stripSuffix? '?' (Text.visible s) =
      (Text.stripSuffix? '?' (Text.trim s)).map Text.visible := by
    rw [← Text.stripSuffix?_visible hlast, Text.visible_trim]
  simp only [withoutMark, Text.trim_visible, hstrip, Text.visible_trimEnd]
  cases Text.stripSuffix? '?' (Text.trim s) <;> simp

theorem isBlank_of_getLast?_withoutMark {s : List Char} {c : Char}
    (h : c ∈ (withoutMark s).getLast?) : Text.isBlank c = false :=
  Text.isBlank_of_getLast?_trimEnd h

/-- A name has the same characters and the same number of arguments. -/
theorem nameAndArity?_visible {s : List Char} (hlast : ∀ c ∈ s.getLast?, Text.isBlank c = false) :
    nameAndArity? (Text.visible s) = (nameAndArity? s).map (Prod.map Text.visible id) := by
  rw [nameAndArity?, nameAndArity?, Text.splitOnce?_visible (by decide)]
  obtain ⟨-, hnone⟩ | ⟨name, behind, rfl, -, hsome⟩ := Text.splitOnce?_cases '<' s
  · rw [hnone]
    rfl
  · have hbehind : ∀ c ∈ behind.getLast?, Text.isBlank c = false := by
      intro c hc
      refine hlast c ?_
      rw [List.getLast?_append, List.getLast?_cons]
      simp [Option.mem_def.1 hc]
    rw [hsome]
    simp only [Option.map_some, Prod.map_apply, Text.stripSuffix?_visible hbehind]
    cases Text.stripSuffix? '>' behind with
    | none => rfl
    | some arguments =>
      simp only [Option.map_some, argumentCount?_visible]
      cases argumentCount? 0 1 arguments <;> rfl

theorem eq_takeWhile_of_nameAndArity? {name : List Char} {arity : Nat}
    (h : nameAndArity? s = some (name, arity)) : name = s.takeWhile (· != '<') := by
  rw [nameAndArity?] at h
  obtain ⟨hmem, hnone⟩ | ⟨before, behind, rfl, hbefore, hsome⟩ := Text.splitOnce?_cases '<' s
  · rw [hnone] at h
    cases h
    exact (List.takeWhile_eq_self_iff.2 (Text.forall_bne_of_notMem hmem)).symm
  · rw [hsome] at h
    dsimp only at h
    rw [List.takeWhile_append_of_pos (Text.forall_bne_of_notMem hbefore),
      List.takeWhile_cons_of_neg (by decide), List.append_nil]
    split at h
    · cases h
    · obtain ⟨_, -, heq⟩ := Option.map_eq_some_iff.1 h
      exact (congrArg Prod.fst heq).symm

/-- What stands between the dots of a name is an identifier with its white space and without it, or
it is none either way. -/
theorem trim_eq_visible_of_mem_split (h : IsSpaced kinds s) (hkinds : AreApart kinds)
    {part : List Char} (hpart : part ∈ Text.split '.' s)
    (hid : Text.isIdentifier (Text.visible part)) : Text.trim part = Text.visible part := by
  obtain ⟨first, later, hsplit, ⟨front, hfront, hfirst⟩, hlater⟩ := h.exists_split
  rw [hsplit] at hpart
  rcases List.mem_cons.1 hpart with rfl | hpart
  · exact hfirst.trim_eq_visible (hkinds.of_infix hfront.isInfix) hid
  · obtain ⟨inner, hinner, hspaced⟩ := hlater part hpart
    exact hspaced.trim_eq_visible (hkinds.of_infix hinner) hid

/-- The segments of a name are the same without white space. -/
theorem segments_visible {parts : List (List Char)}
    (h : ∀ part ∈ parts, Text.isIdentifier (Text.visible part) → Text.trim part = Text.visible part)
    (qualifier : Qualifier) (arity : Nat) :
    (let segments := (parts.map Text.visible).map Text.trim
    if segments.all Text.isIdentifier then
      some (Reference.mk qualifier (segments.map String.ofList) arity) else none) =
    let segments := parts.map Text.trim
    if segments.all Text.isIdentifier then
      some ⟨qualifier, segments.map String.ofList, arity⟩ else none := by
  have htrim : (parts.map Text.visible).map Text.trim = parts.map Text.visible := by
    rw [List.map_map]
    exact List.map_congr_left fun part _ ↦ Text.trim_visible part
  rw [htrim]
  by_cases hall : ∀ part ∈ parts, Text.isIdentifier (Text.visible part)
  · rw [List.map_congr_left fun part hpart ↦ h part hpart (hall part hpart)]
  · have hall' : ¬∀ part ∈ parts, Text.isIdentifier (Text.trim part) := by
      refine fun htrimmed ↦ hall fun part hpart ↦ ?_
      rw [Text.visible_eq_trim (htrimmed part hpart)]
      exact htrimmed part hpart
    simp only [List.all_map, List.all_eq_true, Function.comp_apply]
    rw [if_neg hall, if_neg hall']

/-- Where a name has the same qualifier without its white space, the same is read of it. -/
theorem parse?_eq_of_qualifierAndName {text text' : String} {qualifier : Qualifier}
    (hname : qualifierAndName (withoutMark text.toList) = (qualifier, s))
    (hvisible : qualifierAndName (withoutMark text'.toList) = (qualifier, Text.visible s))
    (h : IsSpaced kinds s) (hkinds : AreApart (kinds.takeWhile (· != .less)))
    (hlast : ∀ c ∈ s.getLast?, Text.isBlank c = false) : parse? text' = parse? text := by
  rw [parse?, parse?, hname, hvisible]
  dsimp only
  rw [nameAndArity?_visible hlast]
  cases hread : nameAndArity? s with
  | none => rfl
  | some found =>
    obtain ⟨name, arity⟩ := found
    obtain rfl := eq_takeWhile_of_nameAndArity? hread
    simp only [Option.map_some, Prod.map_apply, id]
    rw [Text.split_visible (by decide)]
    exact segments_visible (fun part ↦ trim_eq_visible_of_mem_split h.takeWhile hkinds) _ _

theorem qualifierAndName_qualified {word : String} (hword : Text.isIdentifier word.toList)
    {gap gap' : List Char} (hgap : ∀ c ∈ gap, Text.isBlank c) (hgap' : ∀ c ∈ gap', Text.isBlank c)
    (behind : List Char) :
    qualifierAndName (gap ++ (word.toList ++ (gap' ++ ':' :: ':' :: behind))) =
      (if word = "global" then .absolute else .alias word, behind) := by
  have hvisible : ∀ c ∈ word.toList, Text.isBlank c = false := fun c hc ↦
    Text.isBlank_of_continuesIdentifier (Text.continuesIdentifier_of_isIdentifier hword c hc)
  have hcolon : ':' ∉ gap ++ (word.toList ++ gap') := by
    simp only [List.mem_append, not_or]
    exact ⟨Text.notMem_of_blank hgap (by decide), Text.notMem_of_isIdentifier hword (by decide),
      Text.notMem_of_blank hgap' (by decide)⟩
  have hsplit :
      Text.splitOnce? [':', ':'] (gap ++ (word.toList ++ (gap' ++ ':' :: ':' :: behind))) =
        some (gap ++ (word.toList ++ gap'), behind) := by
    have hfirst : Text.splitOnce? [':', ':'] (':' :: ':' :: behind) = some ([], behind) := rfl
    simpa using Text.splitOnce?_append_left hcolon hfirst
  have hne : word.toList ≠ [] := by
    intro hnil
    rw [hnil] at hword
    cases hword
  rw [qualifierAndName, hsplit]
  dsimp only
  rw [Text.trim_append hne hvisible hgap hgap', String.ofList_toList]

/-- A name without a qualifier is read as a whole, and so it is without its white space. -/
theorem parse?_visible_of_isUnqualified {text text' : String} {name : List Char}
    (h : IsSpaced kinds name) (hkinds : IsUnqualified kinds)
    (hlast : ∀ c ∈ name.getLast?, Text.isBlank c = false) (hname : withoutMark text.toList = name)
    (hvisible : withoutMark text'.toList = Text.visible name) : parse? text' = parse? text := by
  have hcolon : ':' ∉ name := by
    intro hmem
    obtain ⟨kind, hkind, part, hc⟩ := h.mem_of_mem hmem (by decide)
    obtain rfl : kind = .doubleColon := part.eq_of_mem hc (by decide) (by decide)
    exact hkinds.noColon hkind
  have hplain {t : List Char} (ht : ':' ∉ t) : qualifierAndName t = (.plain, t) := by
    rw [qualifierAndName, Text.splitOnce?_eq_none ht]
  exact parse?_eq_of_qualifierAndName ((congrArg _ hname).trans (hplain hcolon))
    ((congrArg _ hvisible).trans (hplain (Text.notMem_visible hcolon))) h hkinds.apart hlast

/-- A name with a qualifier is read behind it, and so it is without its white space. -/
theorem parse?_visible_of_qualified {text text' word : String} {name : List Char}
    (h : IsSpaced (.identifier word :: .doubleColon :: kinds) name) (hkinds : IsUnqualified kinds)
    (hlast : ∀ c ∈ name.getLast?, Text.isBlank c = false) (hname : withoutMark text.toList = name)
    (hvisible : withoutMark text'.toList = Text.visible name) : parse? text' = parse? text := by
  cases h with
  | @token gap _ _ _ blank part later =>
    cases later with
    | @token gap' behind _ _ blank' part' later =>
      have hword := TokenKind.isNamePart_identifier_iff.1 part
      have hbehind : ∀ c ∈ behind.getLast?, Text.isBlank c = false := by
        intro c hc
        refine hlast c ?_
        simp only [← List.append_assoc]
        exact List.mem_getLast?_append_of_mem_getLast? hc
      have hsame : Text.visible (gap ++ ((TokenKind.identifier word).characters ++
          (gap' ++ (TokenKind.doubleColon.characters ++ behind)))) =
            [] ++ (word.toList ++ ([] ++ ':' :: ':' :: Text.visible behind)) := by
        simp only [Text.visible_append, Text.visible_eq_nil blank, Text.visible_eq_nil blank',
          Text.visible_eq_self fun c hc ↦ part.isBlank_of_mem hc,
          Text.visible_eq_self fun c hc ↦ part'.isBlank_of_mem hc]
        rfl
      have hnone : ∀ c ∈ ([] : List Char), Text.isBlank c := nofun
      exact parse?_eq_of_qualifierAndName
        ((congrArg _ hname).trans (qualifierAndName_qualified hword blank blank' behind))
        ((congrArg _ (hvisible.trans hsame)).trans
          (qualifierAndName_qualified hword hnone hnone _)) later hkinds.apart hbehind

/-- **A name is read like its tokens without white space.** -/
theorem parse?_visible (h : IsSpaced kinds s) (hname : IsName kinds) :
    parse? (String.ofList (Text.visible s)) = parse? (String.ofList s) := by
  obtain ⟨front, hfront, hmark⟩ := h.exists_withoutMark
  have hname : IsName front := by
    rcases hfront with rfl | rfl
    · exact hname
    · exact hname.of_append_question
  have hlast : ∀ c ∈ (withoutMark s).getLast?, Text.isBlank c = false :=
    fun _ ↦ isBlank_of_getLast?_withoutMark
  have hwhole : withoutMark (String.ofList s).toList = withoutMark s := by
    rw [String.toList_ofList]
  have hvisible : withoutMark (String.ofList (Text.visible s)).toList =
      Text.visible (withoutMark s) := by
    rw [String.toList_ofList, withoutMark_visible]
  cases hname with
  | unqualified hkinds => exact parse?_visible_of_isUnqualified hmark hkinds hlast hwhole hvisible
  | qualified word hkinds => exact parse?_visible_of_qualified hmark hkinds hlast hwhole hvisible

end Reference

end DoubleDispatch
