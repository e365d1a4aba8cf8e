import DoubleDispatch.Proofs.Parsing.Pairing

/-!
# Headers side by side

What the parsers of names, directives, attribute sections and headers do in two sources with tokens
of the same kinds.
-/

namespace DoubleDispatch

namespace Pairing

variable {P : Pairing} {s s' t : Stream}

/-- Names that are kept as they are written are the same if the pairing is exact. -/
def names (P : Pairing) : WrittenNames where
  usingTarget n n' := P.IsExact → n' = n
  attributeName n n' := P.IsExact → n' = n
  baseText n n' := P.IsExact → n' = n

/-- What is alike up to the pairing: names that are kept as they are written are the same if the
pairing is exact, and spans start and stop at offsets that belong together. -/
def likeness (P : Pairing) : Likeness where
  toWrittenNames := P.names
  span span span' := P.Meet span.start span'.start ∧ P.Meet span.stop span'.stop

/-- Starts of headers that are alike. -/
structure StartsAlike (P : Pairing) (header header' : Stream.HeaderStart) : Prop where
  sections : List.Forall₂ (AttributeSection.Like P.likeness) header.sections header'.sections
  modifiers : header'.modifiers = header.modifiers
  kind : header'.kind = header.kind

/-- A keyword that is read up to the tail stands before it. -/
theorem UpTo.before_typeKeyword? {kind : Parsed TypeKind} (h : P.UpTo kind.rest)
    (hkind : s.typeKeyword? = some kind) : P.Before s := by
  obtain ⟨words, hahead, -⟩ := Stream.takesWords_typeKeyword? hkind
  refine h.before_append (?_ : words ≠ []) hahead
  rintro rfl
  exact Stream.ahead_ne_of_size_lt (Stream.size_typeKeyword?_lt hkind) hahead.symm

namespace Beside

/-! ### Names -/

/-- The tokens of a name are taken on both sides, by induction on them. -/
theorem readName {st : Stream.NameState} {ts ts' : List Token} {prevEnd prevEnd' : Nat}
    (h : P.Level ⟨ts, prevEnd⟩ ⟨ts', prevEnd'⟩)
    (hrest : P.Before (Stream.readName st prevEnd ts).rest) :
    (Stream.readName st prevEnd' ts').value = (Stream.readName st prevEnd ts).value ∧
      P.Level (Stream.readName st prevEnd ts).rest (Stream.readName st prevEnd' ts').rest := by
  have hbefore : P.Before ⟨ts, prevEnd⟩ :=
    hrest.of_suffix (Stream.takes_readName st prevEnd ts).suffix
  induction ts generalizing st ts' prevEnd prevEnd' with
  | nil =>
    rcases h.beside.cases_of_before hbefore with ⟨-, rfl⟩ | ⟨t, ts, -, -, hnil, -⟩
    · exact ⟨rfl, h⟩
    · cases hnil
  | cons t ts ih =>
    rcases h.beside.cases_of_before hbefore with
      ⟨hnil, -⟩ | ⟨_, _, t', ts', hahead, rfl, hmeet, htail⟩
    · cases hnil
    · obtain ⟨rfl, rfl⟩ := List.cons.inj hahead
      rw [Stream.readName] at hrest ⊢
      rw [Stream.readName, hmeet.kind]
      cases hnext : st.next? t.kind with
      | none => exact ⟨rfl, h⟩
      | some st' =>
        rw [hnext] at hrest
        exact ih ⟨htail _ _, hmeet.stop⟩ hrest
          (hrest.of_suffix (Stream.takes_readName _ _ _).suffix)

/-- **A type name is read on both sides**, with the same text if the pairing is exact. -/
theorem typeName? (h : P.Beside s s') {name : Parsed String}
    (hname : s.typeName? P.left = some name) (hrest : P.Before name.rest) :
    ∃ name', s'.typeName? P.right = some name' ∧ (P.IsExact → name'.value = name.value) ∧
      P.Meet s.start s'.start ∧ P.Level name.rest name'.rest := by
  have hbefore := hrest.of_suffix (Stream.passes_typeName? hname).suffix
  obtain ⟨ahead, prevEnd⟩ := s
  obtain ⟨ahead', prevEnd'⟩ := s'
  simp only [Stream.typeName?] at hname
  split at hname
  next hcomplete =>
    cases hname
    rcases h.cases_of_before hbefore with ⟨rfl, rfl⟩ | ⟨t, ts, t', ts', rfl, rfl, hmeet, htail⟩
    · cases hcomplete
    cases hnext : Stream.NameState.next? ⟨0, true⟩ t.kind with
    | none =>
      rw [Stream.readName, hnext] at hcomplete
      cases hcomplete
    | some st =>
      -- Behind the first token, a token has been taken.
      have hleft : Stream.readName ⟨0, true⟩ prevEnd (t :: ts) =
          Stream.readName st t.span.stop ts := by
        rw [Stream.readName, hnext]
      have hright : Stream.readName ⟨0, true⟩ prevEnd' (t' :: ts') =
          Stream.readName st t'.span.stop ts' := by
        rw [Stream.readName, hmeet.kind, hnext]
      rw [hleft] at hcomplete hrest
      obtain ⟨hvalue, hlevel⟩ := readName ⟨htail _ _, hmeet.stop⟩ hrest
      have hcomplete' := hcomplete
      rw [← hvalue, ← hright] at hcomplete'
      refine ⟨_, by simp only [Stream.typeName?]; exact if_pos hcomplete', fun he ↦ ?_,
        hmeet.start, ?_⟩
      · have hslice := P.slice_eq he hmeet.start hlevel.prevEnd
        rw [← hleft, ← hright] at hslice
        exact congrArg (fun text ↦ String.ofList (Stream.withoutGlobal text)) hslice
      · rw [hleft, hright]
        exact hlevel
  next => cases hname

/-! ### Using directives -/

/-- A token is taken on both sides or on none. -/
theorem eat (h : P.Beside s s') (hs : P.Before s) (kind : TokenKind) :
    P.Beside (s.eat kind) (s'.eat kind) := by
  rw [Stream.eat, Stream.eat, h.kind_eq hs]
  split
  · exact h.advance hs
  · exact h

theorem eatWord (h : P.Beside s s') (hs : P.Before s) (word : String) :
    P.Beside (s.eatWord word) (s'.eatWord word) :=
  h.eat hs _

/-- The words before a target are read on both sides. -/
theorem usingKind (h : P.Beside s s') (isStatic : Bool) (hs : P.Before s)
    (hadvance : s.kind ≠ .endOfFile → P.Before s.advance) :
    (Stream.usingKind isStatic s').value = (Stream.usingKind isStatic s).value ∧
      P.Beside (Stream.usingKind isStatic s).rest (Stream.usingKind isStatic s').rest := by
  rw [Stream.usingKind, Stream.usingKind, h.kind_eq hs]
  cases hname : s.kind.name? with
  | none => exact ⟨rfl, h⟩
  | some name =>
    have hend := Stream.kind_ne_endOfFile_of_name? hname
    rw [h.secondKind_eq (hadvance hend) hend]
    cases hsecond : s.secondKind with
    | equals => exact ⟨rfl, (h.advance hs).advance (hadvance hend)⟩
    | _ => exact ⟨rfl, h⟩

/-- The target of a directive is read on both sides, up to its semicolon. -/
theorem usingTarget? (h : P.Beside s s') {isGlobal : Bool} {start start' : Nat}
    (hstart : P.Meet start start') {u : Parsed UsingDirective}
    (hu : s.usingTarget? P.left isGlobal start = some u) (hrest : P.UpTo u.rest) :
    ∃ u', s'.usingTarget? P.right isGlobal start' = some u' ∧
      UsingDirective.Like P.likeness u.value u'.value ∧ P.Level u.rest u'.rest := by
  obtain ⟨target, htarget, hsemicolon, rfl⟩ := Stream.usingTarget?_eq_some_iff.1 hu
  have htarget' : P.Before target.rest := UpTo.before hrest (by rw [hsemicolon]; decide)
  -- The words before the target, from the last to the first.
  have htake := (Stream.takes_usingKind (s.kind.isWord "static") _).trans
    (Stream.takes_typeName? htarget)
  have hkind := htarget'.of_takes htake
  have hunsafe := hkind.of_takes (Stream.takes_eatWord (s.eatWord "static") "unsafe")
  have hs := hunsafe.of_takes (Stream.takes_eatWord s "static")
  have hsuffix := (htake.passes fun _ ↦ (·.plain)).suffix_advance <|
    Stream.ahead_ne_of_size_lt <| Nat.lt_of_lt_of_le (Stream.size_typeName?_lt htarget)
      (Stream.takes_usingKind _ _).suffix.length_le
  obtain ⟨hvalue, hbeside⟩ := ((h.eatWord hs "static").eatWord hunsafe
    "unsafe").usingKind (s.kind.isWord "static") hkind fun _ ↦ htarget'.of_suffix hsuffix
  obtain ⟨name, hname, htext, -, hlevel⟩ := hbeside.typeName? htarget htarget'
  rw [← h.kind_eq hs] at hname
  have hsemicolon' : name.rest.kind = .semicolon := by
    rw [hlevel.beside.kind_eq htarget', hsemicolon]
  have hlast := hlevel.beside.level_advance htarget' (by rw [hsemicolon]; decide)
  refine ⟨_, Stream.usingTarget?_eq_some_iff.2 ⟨name, hname, hsemicolon', rfl⟩,
    ⟨⟨?_, htext, rfl⟩, hstart, hlast.prevEnd⟩, hlast⟩
  rw [h.kind_eq hs]
  exact hvalue

/-- **A directive is read on both sides.** -/
theorem using? (h : P.Beside s s') {u : Parsed UsingDirective} (hu : s.using? P.left = some u)
    (hrest : P.UpTo u.rest) :
    ∃ u', s'.using? P.right = some u' ∧ UsingDirective.Like P.likeness u.value u'.value ∧
      P.Level u.rest u'.rest := by
  obtain ⟨mark, htakes, hsemicolon, hmark⟩ := Stream.exists_takes_using? hu
  rw [hmark] at hrest
  have hmarkBefore := hrest.before (by rw [hsemicolon]; nofun)
  have hs := hmarkBefore.of_takes htakes
  rw [← hmark] at hrest
  rw [Stream.using?] at hu ⊢
  rw [h.kind_eq hs]
  split at hu
  next hword =>
    rw [if_pos hword]
    have hstart := h.meet_start hs (Stream.isPlain_of_isWord hword).inside
    exact (h.advance hs).usingTarget? hstart hu hrest
  next hword =>
    rw [if_neg hword]
    split at hu
    next hwords =>
      obtain ⟨hglobal, husing⟩ : s.kind.isWord "global" = true ∧ _ := by simpa using hwords
      have hend := (Stream.isPlain_of_isWord hglobal).inside
      have hne : mark.kind ≠ s.kind := by
        rintro hkind
        rw [← hkind, hsemicolon] at hglobal
        cases hglobal
      have hadvance : P.Before s.advance := hmarkBefore.of_suffix
        ((htakes.passes fun _ ↦ (·.plain)).suffix_advance (Stream.ahead_ne_of_kind_ne hne))
      rw [h.secondKind_eq hadvance hend, if_pos hwords]
      exact ((h.advance hs).advance hadvance).usingTarget? (h.meet_start hs hend) hu hrest
    next => cases hu

/-! ### Attribute sections -/

/-- The arguments of an attribute are skipped on both sides. -/
theorem skipArguments? (h : P.Level s s') (hnext : s.skipArguments? = some t)
    (ht : P.Before t) : ∃ t', s'.skipArguments? = some t' ∧ P.Level t t' := by
  have hs := ht.of_suffix (Stream.passes_skipArguments? hnext).suffix
  have hkind := h.beside.kind_eq hs
  rcases Stream.skipArguments?_eq_some_iff.1 hnext with ⟨hparen, hskip⟩ | ⟨hparen, rfl⟩
  · obtain ⟨t', hskip', hlevel⟩ := h.beside.skipGroup (by rw [hparen]; rfl) hskip ht.upTo
    exact ⟨t', Stream.skipArguments?_eq_some_iff.2 (.inl ⟨hkind.trans hparen, hskip'⟩), hlevel⟩
  · exact ⟨s', Stream.skipArguments?_eq_some_iff.2 (.inr ⟨by rwa [hkind], rfl⟩), h⟩

/-- An attribute is read on both sides. -/
theorem attribute? (h : P.Beside s s') {a : Parsed Attribute}
    (ha : s.attribute? P.left = some a) (hrest : P.Before a.rest) :
    ∃ a', s'.attribute? P.right = some a' ∧ Attribute.Like P.likeness a.value a'.value ∧
      P.Level a.rest a'.rest := by
  obtain ⟨name, next, hname, hnext, rfl⟩ := Stream.attribute?_eq_some_iff.1 ha
  obtain ⟨name', hname', htext, hstart, hlevel⟩ :=
    h.typeName? hname (hrest.of_suffix (Stream.passes_skipArguments? hnext).suffix)
  obtain ⟨next', hnext', hlast⟩ := skipArguments? hlevel hnext hrest
  exact ⟨_, Stream.attribute?_eq_some_iff.2 ⟨name', next', hname', hnext', rfl⟩,
    ⟨show P.IsExact → _ from htext, hstart, hlast.prevEnd⟩, hlast⟩

/-- Attributes in a row are read on both sides, by induction on them. -/
theorem attributes? (h : P.Beside s s') {as : Parsed (List Attribute)}
    (has : s.attributes? P.left = some as) (hrest : P.Before as.rest) :
    ∃ as', s'.attributes? P.right = some as' ∧
      List.Forall₂ (Attribute.Like P.likeness) as.value as'.value ∧ P.Beside as.rest as'.rest := by
  fun_induction Stream.attributes? P.left s generalizing s' as with
  | case1 s hkind =>
    cases has
    refine ⟨⟨[], s'⟩, ?_, .nil, h⟩
    rw [Stream.attributes?, if_pos ((h.kind_eq hrest).trans hkind)]
  | case2 => cases has
  | case3 => cases has
  | case4 s hkind first hfirst _ hcomma later hlater ih =>
    cases has
    have hadvance := hrest.of_suffix (Stream.passes_attributes? hlater).suffix
    have hfirstRest : P.Before first.rest := hadvance.upTo.before (by rw [hcomma]; decide)
    obtain ⟨first', hfirst', hlike, hlevel⟩ := h.attribute? hfirst hfirstRest
    obtain ⟨later', hlater', hlaters, hrests⟩ := ih (hlevel.beside.advance hfirstRest) hlater hrest
    have hs := h.kind_eq (hfirstRest.of_suffix (Stream.passes_attribute? hfirst).suffix)
    exact ⟨_, Stream.attributes?_cons (by rwa [hs]) hfirst'
      ((hlevel.beside.kind_eq hfirstRest).trans hcomma) hlater', .cons hlike hlaters, hrests⟩
  | case5 s hkind first hfirst _ hcomma =>
    cases has
    obtain ⟨first', hfirst', hlike, hlevel⟩ := h.attribute? hfirst hrest
    have hs := h.kind_eq (hrest.of_suffix (Stream.passes_attribute? hfirst).suffix)
    have hcomma' : first'.rest.kind ≠ .comma := by rwa [hlevel.beside.kind_eq hrest]
    exact ⟨_, Stream.attributes?_singleton (by rwa [hs]) hfirst' hcomma', .cons hlike .nil,
      hlevel.beside⟩

/-- The target of a section is read on both sides. -/
theorem target (h : P.Beside s s') (hs : P.Before s)
    (hadvance : s.kind ≠ .endOfFile → P.Before s.advance) :
    s'.target.value = s.target.value ∧ P.Beside s.target.rest s'.target.rest := by
  rw [Stream.target, Stream.target, h.kind_eq hs]
  cases hname : s.kind.name? with
  | none => exact ⟨rfl, h⟩
  | some name =>
    have hend := Stream.kind_ne_endOfFile_of_name? hname
    rw [h.secondKind_eq (hadvance hend) hend]
    cases hsecond : s.secondKind with
    | colon => exact ⟨rfl, (h.advance hs).advance (hadvance hend)⟩
    | _ => exact ⟨rfl, h⟩

/-- A section is read on both sides. -/
theorem section? (h : P.Beside s s') (hs : s.kind = .openBracket) {a : Parsed AttributeSection}
    (ha : s.section? P.left = some a) (hrest : P.UpTo a.rest) :
    ∃ a', s'.section? P.right = some a' ∧ AttributeSection.Like P.likeness a.value a'.value ∧
      P.Level a.rest a'.rest := by
  obtain ⟨attributes, hown, hattributes, hsome, hcloser, rfl⟩ := Stream.section?_eq_some_iff.1 ha
  have hattributesRest : P.Before attributes.rest :=
    UpTo.before hrest (by rw [hcloser]; nofun)
  have htake := Stream.passes_attributes? hattributes
  have hinner := hattributesRest.of_suffix htake.suffix
  have hadvance := hinner.of_suffix (Stream.passes_target s.advance).suffix
  have hbefore := hadvance.upTo.before (by rw [hs]; nofun)
  -- There is an attribute, so something was taken behind the target.
  have hne : attributes.rest.ahead ≠ s.advance.ahead := by
    intro he
    have hkinds : attributes.rest.kind ≠ s.advance.target.rest.kind := by
      rintro hkind
      rw [Stream.attributes?, if_pos (hkind.symm.trans hcloser)] at hattributes
      cases hattributes
      cases hsome
    refine Stream.ahead_ne_of_kind_ne hkinds (htake.suffix.eq_of_length_le ?_)
    rw [he]
    exact (Stream.passes_target s.advance).suffix.length_le
  have hsuffix := ((Stream.passes_target s.advance).and_then htake).suffix_advance hne
  obtain ⟨htarget, hbeside⟩ := (h.advance hbefore).target hadvance
    fun _ ↦ hattributesRest.of_suffix hsuffix
  obtain ⟨attributes', hattributes', hlike, hbeside'⟩ :=
    hbeside.attributes? hattributes hattributesRest
  have hsome' : attributes'.value.isEmpty = false := by
    rw [List.isEmpty_eq_false_iff] at hsome ⊢
    rintro hnil
    rw [hnil] at hlike
    exact hsome (List.forall₂_nil_right_iff.1 hlike)
  have hcloser' : attributes'.rest.kind = .closeBracket :=
    (hbeside'.kind_eq hattributesRest).trans hcloser
  have hlast := hbeside'.level_advance hattributesRest (by rw [hcloser]; nofun)
  rw [← htarget] at hown
  exact ⟨_, Stream.section?_eq_some_iff.2 ⟨attributes', hown, hattributes', hsome', hcloser', rfl⟩,
    ⟨htarget, hlike, h.meet_start hbefore (by rw [hs]; nofun), hlast.prevEnd⟩, hlast⟩

/-- **The sections before a declaration are read on both sides**, by induction on them. -/
theorem sections? (h : P.Beside s s') {as : Parsed (List AttributeSection)}
    (has : s.sections? P.left = some as) (hrest : P.Before as.rest) :
    ∃ as', s'.sections? P.right = some as' ∧
      List.Forall₂ (AttributeSection.Like P.likeness) as.value as'.value ∧
      P.Beside as.rest as'.rest := by
  have hbefore {s : Stream} {as : Parsed (List AttributeSection)}
      (has : s.sections? P.left = some as) (hrest : P.Before as.rest) : P.Before s := by
    obtain ⟨groups, hahead, -⟩ := Stream.exists_groups_of_sections? has
    exact hrest.of_suffix ⟨_, hahead.symm⟩
  fun_induction Stream.sections? P.left s generalizing s' as with
  | case1 => cases has
  | case2 => cases has
  | case3 s hs first hfirst _ later hlater ih =>
    cases has
    have hfirstRest := hbefore hlater hrest
    obtain ⟨group, hahead, -⟩ := Stream.exists_group_of_section? hs hfirst
    have hkind := h.kind_eq (hfirstRest.of_suffix ⟨group, hahead.symm⟩)
    obtain ⟨first', hfirst', hlike, hlevel⟩ := h.section? hs hfirst hfirstRest.upTo
    obtain ⟨later', hlater', hlaters, hrests⟩ := ih hlevel.beside hlater hrest
    exact ⟨_, Stream.sections?_cons (hkind.trans hs) hfirst' hlater', .cons hlike hlaters, hrests⟩
  | case4 s hs =>
    cases has
    refine ⟨⟨[], s'⟩, ?_, .nil, h⟩
    rw [Stream.sections?, dif_neg (by rwa [h.kind_eq hrest])]

/-! ### The start of a header -/

/-- Modifiers are read on both sides, by induction on the tokens. -/
theorem readModifiers {ts ts' : List Token} {prevEnd prevEnd' : Nat}
    (h : P.Beside ⟨ts, prevEnd⟩ ⟨ts', prevEnd'⟩)
    (hrest : P.Before (Stream.readModifiers prevEnd ts).rest) :
    (Stream.readModifiers prevEnd' ts').value = (Stream.readModifiers prevEnd ts).value ∧
      P.Beside (Stream.readModifiers prevEnd ts).rest (Stream.readModifiers prevEnd' ts').rest := by
  induction ts generalizing ts' prevEnd prevEnd' with
  | nil =>
    rcases h.cases_of_before hrest with ⟨-, rfl⟩ | ⟨t, ts, -, -, hnil, -⟩
    · exact ⟨rfl, h⟩
    · cases hnil
  | cons t ts ih =>
    have hbefore := hrest.of_suffix (Stream.takesWords_readModifiers prevEnd (t :: ts)).suffix
    rcases h.cases_of_before hbefore with ⟨hnil, -⟩ | ⟨_, _, t', ts', hahead, rfl, hmeet, htail⟩
    · cases hnil
    obtain ⟨rfl, rfl⟩ := List.cons.inj hahead
    obtain ⟨kind, span⟩ := t
    obtain ⟨kind', span'⟩ := t'
    obtain rfl : kind' = kind := hmeet.kind
    cases kind' with
    | identifier word =>
      rw [Stream.readModifiers] at hrest ⊢
      rw [Stream.readModifiers]
      split at hrest
      next hword =>
        rw [if_pos hword, if_pos hword]
        obtain ⟨hvalue, hbeside⟩ := ih (htail _ _) hrest
        exact ⟨congrArg (word :: ·) hvalue, hbeside⟩
      next hword =>
        rw [if_neg hword, if_neg hword]
        exact ⟨rfl, h⟩
    | _ => exact ⟨rfl, h⟩

/-- The keyword of a type is read on both sides. -/
theorem typeKeyword? (h : P.Beside s s') {kind : Parsed TypeKind}
    (hkind : s.typeKeyword? = some kind) (hrest : P.Before kind.rest) :
    ∃ kind', s'.typeKeyword? = some kind' ∧ kind'.value = kind.value ∧
      P.Beside kind.rest kind'.rest := by
  have htake := Stream.takesWords_typeKeyword? hkind
  have hs := hrest.of_suffix htake.suffix
  have hadvance := hrest.of_suffix <|
    (htake.passes fun _ ↦ Stream.isPlain_of_isIdentifier).suffix_advance <|
      Stream.ahead_ne_of_size_lt <| Stream.size_typeKeyword?_lt hkind
  rw [Stream.typeKeyword?] at hkind ⊢
  rw [h.kind_eq hs]
  split at hkind
  next => cases hkind; exact ⟨_, rfl, rfl, h.advance hs⟩
  next => cases hkind; exact ⟨_, rfl, rfl, h.advance hs⟩
  next => cases hkind; exact ⟨_, rfl, rfl, h.advance hs⟩
  next => cases hkind; exact ⟨_, rfl, rfl, h.advance hs⟩
  next hword =>
    -- Behind `record` a further word is looked at, and perhaps taken.
    rw [h.secondKind_eq hadvance (Stream.kind_ne_endOfFile_of_name? hword)]
    split at hkind
    next => cases hkind; exact ⟨_, rfl, rfl, (h.advance hs).advance hadvance⟩
    next => cases hkind; exact ⟨_, rfl, rfl, (h.advance hs).advance hadvance⟩
    next => cases hkind; exact ⟨_, rfl, rfl, h.advance hs⟩
    next => cases hkind
  next => cases hkind

/-- **The start of a header is read on both sides.** -/
theorem headerStart? (h : P.Beside s s') {header : Parsed Stream.HeaderStart}
    (hheader : s.headerStart? P.left = some header) (hrest : P.Before header.rest) :
    ∃ header', s'.headerStart? P.right = some header' ∧
      P.StartsAlike header.value header'.value ∧ P.Beside header.rest header'.rest := by
  obtain ⟨sections, kind, hsections, hkind, rfl⟩ := Stream.headerStart?_eq_some_iff.1 hheader
  have hmodifiersRest := hrest.of_suffix (Stream.takesWords_typeKeyword? hkind).suffix
  have hsectionsRest := hmodifiersRest.of_suffix
    (Stream.takesWords_readModifiers sections.rest.prevEnd sections.rest.ahead).suffix
  obtain ⟨sections', hsections', hlike, hbeside⟩ := h.sections? hsections hsectionsRest
  obtain ⟨hmodifiers, hbeside'⟩ := readModifiers hbeside hmodifiersRest
  obtain ⟨kind', hkind', hvalue, hbeside''⟩ := hbeside'.typeKeyword? hkind hrest
  exact ⟨_, Stream.headerStart?_eq_some_iff.2 ⟨sections', kind', hsections', hkind', rfl⟩,
    ⟨hlike, hmodifiers, hvalue⟩, hbeside''⟩

/-! ### Up to a name -/

/-- At the tails, the streams have reached them together. -/
theorem ahead_eq (h : P.Beside s s') (hs : s.ahead = P.leftTail) : s'.ahead = P.rightTail := by
  obtain ⟨front, front', hfront, hfront', hmeets⟩ := h
  obtain rfl : front = [] := List.append_left_eq_self.1 (hfront.symm.trans hs)
  rw [hfront', List.forall₂_nil_left_iff.1 hmeets, List.nil_append]

section Name

variable {name : String} {span : Span} {behind : List Token}
  (hname : P.rightTail = ⟨.identifier name, span⟩ :: behind)
include hname

/-- A keyword before a name is read on both sides, where the name on the other one may be any
identifier, but none that belongs to the keyword behind `record`. -/
theorem typeKeyword?_of_name (h : P.Beside s s') {kind : Parsed TypeKind}
    (hkind : s.typeKeyword? = some kind) (htail : kind.rest.ahead = P.leftTail)
    (hrecord : kind.value = .recordType → name ≠ "struct" ∧ name ≠ "class") :
    ∃ kind', s'.typeKeyword? = some kind' ∧ kind'.value = kind.value ∧
      P.Beside kind.rest kind'.rest := by
  have hupTo : P.UpTo kind.rest := ⟨[], htail.symm⟩
  have hs := hupTo.before_typeKeyword? hkind
  rw [Stream.typeKeyword?] at hkind ⊢
  rw [h.kind_eq hs]
  split at hkind
  next => cases hkind; exact ⟨_, rfl, rfl, h.advance hs⟩
  next => cases hkind; exact ⟨_, rfl, rfl, h.advance hs⟩
  next => cases hkind; exact ⟨_, rfl, rfl, h.advance hs⟩
  next => cases hkind; exact ⟨_, rfl, rfl, h.advance hs⟩
  next hword =>
    have hend := Stream.kind_ne_endOfFile_of_name? hword
    -- A word that belongs to `record` stands before the tail, and so is the same on both sides.
    have hsecond {second : String} (hsecond : s.secondKind.name? = some second)
        (hrest : P.UpTo s.advance.advance) : P.Before s.advance := by
      rw [Stream.secondKind_eq_kind_advance hend] at hsecond
      exact hrest.before (Stream.kind_ne_endOfFile_of_name? hsecond)
    split at hkind
    next hstruct =>
      cases hkind
      have hadvance := hsecond hstruct hupTo
      rw [h.secondKind_eq hadvance hend, hstruct]
      exact ⟨_, rfl, rfl, (h.advance hs).advance hadvance⟩
    next hclass =>
      cases hkind
      have hadvance := hsecond hclass hupTo
      rw [h.secondKind_eq hadvance hend, hclass]
      exact ⟨_, rfl, rfl, (h.advance hs).advance hadvance⟩
    next =>
      cases hkind
      obtain ⟨hstruct, hclass⟩ := hrecord rfl
      have hsecond' : s'.secondKind.name? = some name := by
        have hend' : s'.kind ≠ .endOfFile := by rwa [h.kind_eq hs]
        rw [Stream.secondKind_eq_kind_advance hend', Stream.kind,
          (h.advance hs).ahead_eq htail, hname]
        rfl
      rw [hsecond']
      split
      next heq => exact absurd (Option.some.inj heq) hstruct
      next heq => exact absurd (Option.some.inj heq) hclass
      next => exact ⟨_, rfl, rfl, h.advance hs⟩
      next heq => cases heq
    next => cases hkind
  next => cases hkind

/-- **The start of a header up to the name** is read on both sides. -/
theorem headerStart?_of_name (h : P.Beside s s') {header : Parsed Stream.HeaderStart}
    (hheader : s.headerStart? P.left = some header) (htail : header.rest.ahead = P.leftTail)
    (hrecord : header.value.kind = .recordType → name ≠ "struct" ∧ name ≠ "class") :
    ∃ header', s'.headerStart? P.right = some header' ∧
      P.StartsAlike header.value header'.value ∧ P.Beside header.rest header'.rest := by
  obtain ⟨sections, kind, hsections, hkind, rfl⟩ := Stream.headerStart?_eq_some_iff.1 hheader
  have hupTo : P.UpTo kind.rest := ⟨[], htail.symm⟩
  have hmodifiersRest := hupTo.before_typeKeyword? hkind
  have hsectionsRest := hmodifiersRest.of_suffix
    (Stream.takesWords_readModifiers sections.rest.prevEnd sections.rest.ahead).suffix
  obtain ⟨sections', hsections', hlike, hbeside⟩ := h.sections? hsections hsectionsRest
  obtain ⟨hmodifiers, hbeside'⟩ := readModifiers hbeside hmodifiersRest
  obtain ⟨kind', hkind', hvalue, hbeside''⟩ :=
    hbeside'.typeKeyword?_of_name hname hkind htail hrecord
  exact ⟨_, Stream.headerStart?_eq_some_iff.2 ⟨sections', kind', hsections', hkind', rfl⟩,
    ⟨hlike, hmodifiers, hvalue⟩, hbeside''⟩

end Name

end Beside

end Pairing

end DoubleDispatch
