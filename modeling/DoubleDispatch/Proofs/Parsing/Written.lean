import DoubleDispatch.Proofs.Parsing.TypePhrase
import DoubleDispatch.Proofs.Printing.Header

/-!
# Attribute sections as they are written

Attribute sections with targets, attributes with arguments, and names with any type arguments.
What is readable is read exactly as it is written (`Stream.section?_of_isReadable`): no name has an
array, a tuple or a pointer among its type arguments, and the section is not meant for the assembly
or the module. Any other section is not read at all (`Stream.section?_eq_none`), and with it none of
the sections in a row.
-/

namespace DoubleDispatch

/-- The start of the first of some tokens. -/
def startOf (tokens : List Token) : Nat := (tokens.head?.map (·.span.start)).getD 0

/-! ### Attributes -/

/-- An attribute as it is written: its name, and its arguments if it has any. -/
structure WrittenAttribute where
  name : List Token
  arguments : List Token
deriving Repr

namespace WrittenAttribute

/-- The tokens of an attribute. -/
def tokens (a : WrittenAttribute) : List Token := a.name ++ a.arguments

/-- The name is one that a type may have, and the arguments are a group in parentheses. -/
structure IsWellFormed (a : WrittenAttribute) : Prop where
  name : IsTypePhrase .name a.name
  arguments : a.arguments = [] ∨ IsGroupIn .openParen a.arguments

/-- Whether the reading of names knows all of the name. -/
def isReadable (a : WrittenAttribute) : Bool := Stream.isKnown a.name

/-- The attribute as it should be read. -/
def read (source : List Char) (a : WrittenAttribute) : Attribute where
  name := String.ofList (Stream.withoutGlobal
    (Text.slice (startOf a.name) (stopBehind 0 a.name) source))
  span := ⟨startOf a.name, stopBehind 0 a.tokens⟩

end WrittenAttribute

/-- A name starts with a word, and no colon follows in it. -/
theorem IsTypePhrase.exists_cons {phrase : TypePhrase} {tokens : List Token}
    (h : IsTypePhrase phrase tokens) (hphrase : phrase = .name) :
    ∃ word more, tokens = word :: more ∧ word.kind.isIdentifier = true ∧
      ∀ t ∈ more.head?, t.kind ≠ .colon := by
  induction h with
  | simple hword => exact ⟨_, [], rfl, hword, by simp⟩
  | generic hword hless =>
    refine ⟨_, _, rfl, hword, ?_⟩
    rintro t ⟨⟩
    rw [hless]
    nofun
  | @qualified _ inner joint _ hjoint _ ih =>
    obtain ⟨word, more, rfl, hword, hmore⟩ := ih rfl
    refine ⟨word, more ++ joint :: inner, rfl, hword, ?_⟩
    rcases more with - | ⟨t, more⟩
    · rintro t ⟨⟩
      rcases hjoint with hjoint | hjoint
      · rw [hjoint]; nofun
      · rw [hjoint]; nofun
    · exact hmore
  | _ => cases hphrase

namespace Stream

variable {source : List Char}

section Attributes

variable {a : WrittenAttribute} {t : Token}

/-- What may stand behind the name of an attribute ends it. -/
theorem next?_eq_none_of_ends (ht : t.kind = .openParen ∨ EndsAttribute t.kind) :
    NameState.next? ⟨0, false⟩ t.kind = none := by
  rcases ht with ht | ht | ht
  · rw [ht]; rfl
  · rw [ht]; rfl
  · rw [ht]; rfl

/-- A known name is read as it stands in the source, but for a `global::` in front of it. -/
theorem typeName?_of_isKnown {name : List Token} (h : IsTypePhrase .name name)
    (hknown : isKnown name = true) (ht : t.kind = .openParen ∨ EndsAttribute t.kind)
    (ts : List Token) (prevEnd : Nat) :
    typeName? source ⟨name ++ t :: ts, prevEnd⟩ =
      some ⟨String.ofList (withoutGlobal (Text.slice (startOf name) (stopBehind 0 name) source)),
        ⟨t :: ts, stopBehind 0 name⟩⟩ := by
  obtain ⟨word, more, rfl, -⟩ := h.exists_cons rfl
  have hread : readName ⟨0, true⟩ prevEnd ((word :: more) ++ t :: ts) =
      ⟨⟨0, false⟩, ⟨t :: ts, stopBehind prevEnd (word :: more)⟩⟩ := by
    rw [leads_of_isTypePhrase h hknown (.inl rfl) nofun, readName, next?_eq_none_of_ends ht]
  simp only [typeName?, hread]
  rfl

/-- A name with a part that is not known is not read. -/
theorem typeName?_eq_none {name : List Token} (h : IsTypePhrase .name name)
    (hunknown : isKnown name = false) (ts : List Token) (prevEnd : Nat) :
    typeName? source ⟨name ++ ts, prevEnd⟩ = none := by
  have hstops : NameState.StopsInside ⟨0, true⟩ name :=
    stopsInside_of_isTypePhrase h hunknown (.inl rfl) nofun
  have hdepth := hstops prevEnd ts
  have hcomplete :
      (readName ⟨0, true⟩ prevEnd (name ++ ts)).value.isComplete = false := by
    rw [NameState.isComplete, Bool.and_eq_false_iff]
    exact .inr (by simpa using Nat.ne_of_gt hdepth)
  simp only [typeName?, hcomplete, Bool.false_eq_true, if_false]

theorem skipArguments?_of_isWellFormed (h : a.IsWellFormed) (ht : EndsAttribute t.kind)
    (ts : List Token) (prevEnd : Nat) :
    skipArguments? ⟨a.arguments ++ t :: ts, prevEnd⟩ =
      some ⟨t :: ts, stopBehind prevEnd a.arguments⟩ := by
  rw [skipArguments?_eq_some_iff]
  rcases h.arguments with hnone | hgroup
  · rw [hnone]
    refine .inr ⟨?_, rfl⟩
    show t.kind ≠ .openParen
    rcases ht with ht | ht
    · rw [ht]; decide
    · rw [ht]; decide
  · obtain ⟨first, later, hfirst, hopen⟩ := hgroup.starts
    have hkind : kind ⟨a.arguments ++ t :: ts, prevEnd⟩ = .openParen := by
      rw [hfirst]
      exact hopen
    exact .inl ⟨hkind, skipGroup_of_isGroup hgroup.isGroup _ _⟩

variable (source) in
/-- A readable attribute is read, whatever stands behind it. -/
theorem attribute?_of_isReadable (h : a.IsWellFormed) (hreadable : a.isReadable = true)
    (ht : EndsAttribute t.kind) (ts : List Token) (prevEnd : Nat) :
    attribute? source ⟨a.tokens ++ t :: ts, prevEnd⟩ =
      some ⟨a.read source, ⟨t :: ts, stopBehind 0 a.tokens⟩⟩ := by
  obtain ⟨word, more, hname, -⟩ := h.name.exists_cons rfl
  have hread : typeName? source ⟨a.tokens ++ t :: ts, prevEnd⟩ =
      some ⟨(a.read source).name, ⟨a.arguments ++ t :: ts, stopBehind 0 a.name⟩⟩ := by
    rw [WrittenAttribute.tokens, List.append_assoc]
    -- Behind the name stands the group of its arguments, or what stands behind the attribute.
    rcases h.arguments with hnone | hgroup
    · rw [hnone]
      exact typeName?_of_isKnown h.name hreadable (.inr ht) ts prevEnd
    · obtain ⟨first, later, hfirst, hopen⟩ := hgroup.starts
      rw [hfirst]
      exact typeName?_of_isKnown h.name hreadable (.inl hopen) (later ++ t :: ts) prevEnd
  have hskip := skipArguments?_of_isWellFormed h ht ts (stopBehind 0 a.name)
  rw [attribute?_eq_some_iff]
  refine ⟨_, _, hread, hskip, ?_⟩
  rw [← stopBehind_append, WrittenAttribute.read, WrittenAttribute.tokens, hname]
  rfl

/-- An attribute that is not readable is refused, whatever stands behind it. -/
theorem attribute?_eq_none (h : a.IsWellFormed) (hunreadable : a.isReadable = false)
    (ts : List Token) (prevEnd : Nat) :
    attribute? source ⟨a.tokens ++ ts, prevEnd⟩ = none := by
  rw [attribute?, WrittenAttribute.tokens, List.append_assoc,
    typeName?_eq_none h.name hunreadable]
  rfl

end Attributes

end Stream

/-! ### Sections -/

/-- A section of attributes as it is written: the target with its colon if there is one, attributes
behind commas, and a last comma if there is one. -/
structure WrittenSection where
  opener : Token
  target : Option (Token × Token)
  first : WrittenAttribute
  later : List (Token × WrittenAttribute)
  comma : Option Token
  closer : Token
deriving Repr

/-- The tokens of attributes behind commas. -/
def WrittenAttribute.tokensOfLater (later : List (Token × WrittenAttribute)) : List Token :=
  later.flatMap fun (comma, a) ↦ comma :: a.tokens

namespace WrittenSection

/-- The attributes of a section. -/
def attributes (w : WrittenSection) : List WrittenAttribute := w.first :: w.later.map (·.2)

/-- The name of the target, if there is one. -/
def targetName? (w : WrittenSection) : Option String := w.target.bind (·.1.kind.name?)

/-- The tokens of a section between its brackets. -/
def content (w : WrittenSection) : List Token :=
  (w.target.toList.flatMap fun (word, colon) ↦ [word, colon]) ++
    (w.first.tokens ++ (WrittenAttribute.tokensOfLater w.later ++ w.comma.toList))

/-- The tokens of a section. -/
def tokens (w : WrittenSection) : List Token := w.opener :: w.content ++ [w.closer]

/-- Brackets, colon and commas are what they should be, and so are the attributes. -/
structure IsWellFormed (w : WrittenSection) : Prop where
  opener : w.opener.kind = .openBracket
  target : ∀ t ∈ w.target, t.1.kind.isIdentifier = true ∧ t.2.kind = .colon
  attributes : ∀ a ∈ w.attributes, a.IsWellFormed
  commas : ∀ p ∈ w.later, p.1.kind = .comma
  comma : ∀ t ∈ w.comma, t.kind = .comma
  closer : w.closer.kind = .closeBracket

/-- Whether the section is read as one of the declaration behind it: the reading of names knows all
of its names, and it is not meant for the assembly or the module. -/
def isReadable (w : WrittenSection) : Bool :=
  Stream.isOwnTarget w.targetName? && w.attributes.all (·.isReadable)

/-- The section as it should be read. -/
def read (source : List Char) (w : WrittenSection) : AttributeSection where
  target := w.targetName?
  attributes := w.attributes.map (·.read source)
  span := ⟨w.opener.span.start, w.closer.span.stop⟩

theorem IsWellFormed.behind_comma {w : WrittenSection} (h : w.IsWellFormed) :
    ∀ p ∈ w.later, p.1.kind = .comma ∧ p.2.IsWellFormed := fun p hp ↦
  ⟨h.commas p hp, h.attributes p.2 (List.mem_cons_of_mem _ (List.mem_map_of_mem hp))⟩

end WrittenSection

namespace Stream

variable {source : List Char}

section AttributeLists

variable {s : Stream}

theorem attributes?_eq_none_of_first (hkind : s.kind ≠ .closeBracket)
    (hfirst : s.attribute? source = none) : attributes? source s = none := by
  rw [attributes?_eq, if_neg hkind, hfirst]
  rfl

/-- One attribute that is refused refuses the section. -/
theorem attributes?_eq_none_of_later {first : Parsed Attribute} (hkind : s.kind ≠ .closeBracket)
    (hfirst : s.attribute? source = some first) (hcomma : first.rest.kind = .comma)
    (hlater : attributes? source first.rest.advance = none) : attributes? source s = none := by
  rw [attributes?_eq, if_neg hkind, hfirst, Option.bind_eq_bind, Option.bind_some, if_pos hcomma,
    hlater]
  rfl

end AttributeLists

section Sections

variable {a first : WrittenAttribute} {later : List (Token × WrittenAttribute)}
  {comma : Option Token} {closer : Token}

theorem kind_tokens_ne (h : a.IsWellFormed) (ts : List Token) (prevEnd : Nat) {kind : TokenKind}
    (hkind : kind.isIdentifier = false) : Stream.kind ⟨a.tokens ++ ts, prevEnd⟩ ≠ kind := by
  obtain ⟨word, more, hname, hword, -⟩ := h.name.exists_cons rfl
  rw [WrittenAttribute.tokens, hname]
  show word.kind ≠ kind
  rintro rfl
  rw [hword] at hkind
  cases hkind

variable (source) in
/-- **Readable attributes are read up to the closing bracket.** -/
theorem attributes?_of_isReadable (hfirst : first.IsWellFormed)
    (hfirstRead : first.isReadable = true)
    (hlater : ∀ p ∈ later, p.1.kind = .comma ∧ p.2.IsWellFormed)
    (hlaterRead : ∀ p ∈ later, p.2.isReadable = true) (hcomma : ∀ t ∈ comma, t.kind = .comma)
    (hcloser : closer.kind = .closeBracket) (ts : List Token) (prevEnd : Nat) :
    ∃ stop, attributes? source ⟨first.tokens ++ (WrittenAttribute.tokensOfLater later ++
        (comma.toList ++ closer :: ts)), prevEnd⟩ =
      some ⟨(first :: later.map (·.2)).map (·.read source), ⟨closer :: ts, stop⟩⟩ := by
  induction later generalizing first prevEnd with
  | nil =>
    have hbracket : kind ⟨closer :: ts, prevEnd⟩ = .closeBracket := hcloser
    cases comma with
    | none =>
      have hread := attribute?_of_isReadable source hfirst hfirstRead (.inr hcloser) ts
        prevEnd
      refine ⟨_, attributes?_singleton (kind_tokens_ne hfirst _ _ rfl) hread ?_⟩
      show closer.kind ≠ .comma
      rw [hcloser]
      nofun
    | some t =>
      have ht : t.kind = .comma := hcomma t rfl
      have hread := attribute?_of_isReadable source hfirst hfirstRead (.inl ht)
        (closer :: ts) prevEnd
      have hend : attributes? source (advance ⟨t :: closer :: ts, stopBehind 0 first.tokens⟩) =
          some ⟨[], ⟨closer :: ts, t.span.stop⟩⟩ := by
        rw [advance_cons (by rw [ht]; nofun), attributes?]
        exact if_pos hcloser
      exact ⟨_, attributes?_cons (kind_tokens_ne hfirst _ _ rfl) hread ht hend⟩
  | cons p later ih =>
    obtain ⟨t, second⟩ := p
    obtain ⟨⟨ht, hsecond⟩, hlater⟩ := List.forall_mem_cons.1 hlater
    obtain ⟨hsecondRead, hlaterRead⟩ := List.forall_mem_cons.1 hlaterRead
    have hread := attribute?_of_isReadable source hfirst hfirstRead (.inl ht)
      (second.tokens ++ (WrittenAttribute.tokensOfLater later ++ (comma.toList ++ closer :: ts)))
      prevEnd
    obtain ⟨stop, hrest⟩ := ih hsecond hsecondRead hlater hlaterRead t.span.stop
    rw [← advance_cons (t := t) (by rw [ht]; nofun) _ (stopBehind 0 first.tokens)] at hrest
    refine ⟨stop, ?_⟩
    have hall := attributes?_cons (kind_tokens_ne hfirst _ _ rfl) hread ht hrest
    simpa [WrittenAttribute.tokensOfLater] using hall

/-- **Attributes are not read if one of them is not readable.** -/
theorem attributes?_eq_none (hfirst : first.IsWellFormed)
    (hlater : ∀ p ∈ later, p.1.kind = .comma ∧ p.2.IsWellFormed)
    (hunreadable : (first :: later.map (·.2)).all (·.isReadable) = false) (ts : List Token)
    (prevEnd : Nat) :
    attributes? source ⟨first.tokens ++ (WrittenAttribute.tokensOfLater later ++ ts), prevEnd⟩ =
      none := by
  induction later generalizing first prevEnd with
  | nil =>
    have hunread : first.isReadable = false := by simpa using hunreadable
    exact attributes?_eq_none_of_first (kind_tokens_ne hfirst _ _ rfl)
      (attribute?_eq_none hfirst hunread _ _)
  | cons p later ih =>
    obtain ⟨t, second⟩ := p
    obtain ⟨⟨ht, hsecond⟩, hlater⟩ := List.forall_mem_cons.1 hlater
    cases hfirstRead : first.isReadable with
    | false =>
      exact attributes?_eq_none_of_first (kind_tokens_ne hfirst _ _ rfl)
        (attribute?_eq_none hfirst hfirstRead _ _)
    | true =>
      have hread := attribute?_of_isReadable source hfirst hfirstRead (.inl ht)
        (second.tokens ++ (WrittenAttribute.tokensOfLater later ++ ts)) prevEnd
      have hrest := ih hsecond hlater (by simpa [hfirstRead] using hunreadable) t.span.stop
      rw [← advance_cons (t := t) (by rw [ht]; nofun) _ (stopBehind 0 first.tokens)] at hrest
      have hall := attributes?_eq_none_of_later (kind_tokens_ne hfirst _ _ rfl) hread ht hrest
      simpa [WrittenAttribute.tokensOfLater] using hall

variable {w : WrittenSection}

/-- Without a colon behind the first token there is no target. -/
theorem target_eq_none {t : Token} {ts : List Token} (h : ∀ u ∈ ts.head?, u.kind ≠ .colon)
    (prevEnd : Nat) : target ⟨t :: ts, prevEnd⟩ = ⟨none, ⟨t :: ts, prevEnd⟩⟩ := by
  rw [target]
  split
  next hcolon =>
    rcases ts with - | ⟨u, us⟩
    · cases hcolon
    · exact absurd hcolon (h u rfl)
  next => rfl

/-- No colon follows behind the first word of an attribute. -/
theorem kind_ne_colon_behind_word (h : w.IsWellFormed) {word : Token} {more : List Token}
    (hname : w.first.name = word :: more) (hmore : ∀ t ∈ more.head?, t.kind ≠ .colon)
    (ts : List Token) :
    ∀ t ∈ (more ++ (w.first.arguments ++ (WrittenAttribute.tokensOfLater w.later ++
      (w.comma.toList ++ w.closer :: ts)))).head?, t.kind ≠ .colon := by
  rcases more with - | ⟨u, us⟩
  · rcases (h.attributes w.first List.mem_cons_self).arguments with hnone | hgroup
    · rw [hnone]
      cases hlater : w.later with
      | cons p later =>
        rintro t ⟨⟩
        rw [h.commas p (by rw [hlater]; exact List.mem_cons_self)]
        nofun
      | nil =>
        cases hcomma : w.comma with
        | some t =>
          rintro u ⟨⟩
          rw [h.comma t hcomma]
          nofun
        | none =>
          rintro t ⟨⟩
          rw [h.closer]
          nofun
    · obtain ⟨first, later, hfirst, hopen⟩ := hgroup.starts
      rw [hfirst]
      rintro t ⟨⟩
      rw [hopen]
      nofun
  · exact hmore

/-- The target is taken with its colon, and the attributes follow. -/
theorem exists_target_eq (h : w.IsWellFormed) (ts : List Token) (prevEnd : Nat) :
    ∃ stop, target ⟨w.content ++ w.closer :: ts, prevEnd⟩ =
      ⟨w.targetName?, ⟨w.first.tokens ++ (WrittenAttribute.tokensOfLater w.later ++
        (w.comma.toList ++ w.closer :: ts)), stop⟩⟩ := by
  cases htarget : w.target with
  | some t =>
    obtain ⟨⟨wordKind, wordSpan⟩, ⟨colonKind, colonSpan⟩⟩ := t
    obtain ⟨hword, hcolon⟩ := h.target _ htarget
    obtain ⟨name, hname⟩ := Option.isSome_iff_exists.1 hword
    obtain rfl : wordKind = .identifier name := by
      cases wordKind with
      | identifier => cases hname; rfl
      | _ => cases hname
    obtain rfl : colonKind = .colon := hcolon
    refine ⟨colonSpan.stop, ?_⟩
    rw [WrittenSection.content, WrittenSection.targetName?, htarget]
    simp only [Option.toList_some, List.flatMap_singleton, List.append_assoc]
    rfl
  | none =>
    obtain ⟨word, more, hname, -, hmore⟩ :=
      (h.attributes w.first List.mem_cons_self).name.exists_cons rfl
    have hnone := target_eq_none (t := word) (kind_ne_colon_behind_word h hname hmore ts) prevEnd
    refine ⟨prevEnd, ?_⟩
    rw [WrittenSection.content, WrittenSection.targetName?, htarget, WrittenAttribute.tokens,
      hname]
    simpa using hnone

/-- Behind the opening bracket the content of a section follows. -/
theorem advance_section (h : w.IsWellFormed) (ts : List Token) (prevEnd : Nat) :
    advance ⟨w.tokens ++ ts, prevEnd⟩ = ⟨w.content ++ w.closer :: ts, w.opener.span.stop⟩ := by
  have hall : w.tokens ++ ts = w.opener :: (w.content ++ w.closer :: ts) := by
    simp [WrittenSection.tokens]
  rw [hall, advance_cons (by rw [h.opener]; nofun)]

/-- **A readable section is read as it is written.** -/
theorem section?_of_isReadable (h : w.IsWellFormed) (hreadable : w.isReadable = true)
    (ts : List Token) (prevEnd : Nat) : section? source ⟨w.tokens ++ ts, prevEnd⟩ =
      some ⟨w.read source, ⟨ts, w.closer.span.stop⟩⟩ := by
  obtain ⟨hown, hattributes⟩ := Bool.and_eq_true_iff.1 hreadable
  obtain ⟨hfirst, hlater⟩ : w.first.isReadable = true ∧ ∀ p ∈ w.later, p.2.isReadable = true := by
    simpa [WrittenSection.attributes] using hattributes
  obtain ⟨start, htarget⟩ := exists_target_eq h ts w.opener.span.stop
  obtain ⟨stop, hread⟩ := attributes?_of_isReadable source
    (h.attributes w.first List.mem_cons_self) hfirst h.behind_comma hlater h.comma h.closer ts start
  have hcloser : kind ⟨w.closer :: ts, stop⟩ = .closeBracket := h.closer
  have hbehind : advance ⟨w.closer :: ts, stop⟩ = ⟨ts, w.closer.span.stop⟩ :=
    advance_cons (by rw [h.closer]; nofun) ts stop
  simp only [section?, advance_section h, htarget, hown, if_true, hread, hcloser, hbehind]
  rfl

/-- **Any other section is not read.** -/
theorem section?_eq_none (h : w.IsWellFormed) (hunreadable : w.isReadable = false)
    (ts : List Token) (prevEnd : Nat) : section? source ⟨w.tokens ++ ts, prevEnd⟩ = none := by
  obtain ⟨start, htarget⟩ := exists_target_eq h ts w.opener.span.stop
  simp only [section?, advance_section h, htarget]
  cases hown : isOwnTarget w.targetName? with
  | false => rfl
  | true =>
    have hattributes : w.attributes.all (·.isReadable) = false := by
      simpa [WrittenSection.isReadable, hown] using hunreadable
    rw [attributes?_eq_none (h.attributes w.first List.mem_cons_self) h.behind_comma hattributes]
    rfl

/-! ### Sections in a row -/

/-- The tokens of sections in a row. -/
def tokensOfSections (ws : List WrittenSection) : List Token := ws.flatMap (·.tokens)

theorem sections?_eq_none_of_first {s : Stream} (hkind : s.kind = .openBracket)
    (hfirst : s.section? source = none) : sections? source s = none := by
  rw [sections?_eq, if_pos hkind, hfirst]
  rfl

/-- One section that is refused refuses all sections. -/
theorem sections?_eq_none_of_later {s : Stream} {first : Parsed AttributeSection}
    (hkind : s.kind = .openBracket) (hfirst : s.section? source = some first)
    (hlater : sections? source first.rest = none) : sections? source s = none := by
  rw [sections?_eq, if_pos hkind, hfirst, Option.bind_eq_bind, Option.bind_some, hlater]
  rfl

theorem kind_tokens_section (h : w.IsWellFormed) (ts : List Token) (prevEnd : Nat) :
    kind ⟨w.tokens ++ ts, prevEnd⟩ = .openBracket :=
  h.opener

/-- **Readable sections are read as they are written**, up to what is no section. -/
theorem sections?_of_isReadable {ws : List WrittenSection} (h : ∀ w ∈ ws, w.IsWellFormed)
    (hreadable : ∀ w ∈ ws, w.isReadable = true) {t : Token} (ht : t.kind ≠ .openBracket)
    (ts : List Token) (prevEnd : Nat) :
    ∃ stop, sections? source ⟨tokensOfSections ws ++ t :: ts, prevEnd⟩ =
      some ⟨ws.map (·.read source), ⟨t :: ts, stop⟩⟩ := by
  induction ws generalizing prevEnd with
  | nil =>
    refine ⟨prevEnd, ?_⟩
    rw [sections?]
    exact dif_neg ht
  | cons w ws ih =>
    obtain ⟨hw, hws⟩ := List.forall_mem_cons.1 h
    obtain ⟨hwRead, hwsRead⟩ := List.forall_mem_cons.1 hreadable
    obtain ⟨stop, hlater⟩ := ih hws hwsRead w.closer.span.stop
    refine ⟨stop, ?_⟩
    rw [tokensOfSections, List.flatMap_cons, List.append_assoc]
    exact sections?_cons (kind_tokens_section hw _ _) (section?_of_isReadable hw hwRead _ _) hlater

/-- **Sections are not read if one of them is not readable.** -/
theorem sections?_eq_none {ws : List WrittenSection} (h : ∀ w ∈ ws, w.IsWellFormed)
    (hunreadable : ∃ w ∈ ws, w.isReadable = false) (ts : List Token) (prevEnd : Nat) :
    sections? source ⟨tokensOfSections ws ++ ts, prevEnd⟩ = none := by
  induction ws generalizing prevEnd with
  | nil => simp at hunreadable
  | cons w ws ih =>
    obtain ⟨hw, hws⟩ := List.forall_mem_cons.1 h
    rw [tokensOfSections, List.flatMap_cons, List.append_assoc]
    have hkind := kind_tokens_section hw (tokensOfSections ws ++ ts) prevEnd
    cases hwRead : w.isReadable with
    | false => exact sections?_eq_none_of_first hkind (section?_eq_none hw hwRead _ _)
    | true =>
      have hlater : ∃ w ∈ ws, w.isReadable = false := by simpa [hwRead] using hunreadable
      exact sections?_eq_none_of_later hkind (section?_of_isReadable hw hwRead _ _)
        (ih hws hlater _)

end Sections

end Stream

end DoubleDispatch
